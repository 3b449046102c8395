import HoconRender.Text
import HoconRender.Number.Binary64

/-
Decimal numerals of binary numbers: the fewest digits that read back to the number, and of those
the nearest, laid out in one of several styles.
-/
namespace HoconRender

structure Decimal where
  digits : Nat
  exponent : Int
deriving DecidableEq, Repr

namespace Decimal

open Binary64 (twoTo tenTo)

/-- How numerals are laid out. Numbers whose leading digit stands for `10 ^ e` are positional for
`plainFrom ≤ e < plainBelow`. -/
structure Style where
  plainFrom : Int
  plainBelow : Int
  nan : Text
  infinity : Text

def compareScaled (a : Nat) (i : Int) (n : Nat) (j : Int) : Ordering :=
  compare (a * tenTo i * twoTo (-j)) (n * twoTo j * tenTo (-i))

def readsBack (m : Nat) (e : Int) (d : Decimal) : Bool :=
  let narrow := m == twoTo 52 && Binary64.leastExponent < e
  let below := compareScaled d.digits d.exponent (if narrow then 4 * m - 1 else 4 * m - 2) (e - 2)
  let above := compareScaled d.digits d.exponent (4 * m + 2) (e - 2)
  let even := m % 2 == 0
  (below == .gt || (even && below == .eq)) && (above == .lt || (even && above == .eq))

def magnitude (m : Nat) (e : Int) : Int :=
  let near : Int := ((Nat.log2 m : Int) + e) * 30103 / 100000
  (([near - 1, near, near + 1].find? fun k => compareScaled 1 k m e == .gt)).getD (near + 2)

/-- Of the two neighbours of `m * 2 ^ e` on the grid `10 ^ s` the one that reads back; if both do,
the nearer one, and the even one of two equally near. -/
def onGrid (m : Nat) (e s : Int) : Option Decimal :=
  let a := m * twoTo e * tenTo (-s) / (tenTo s * twoTo (-e))
  let low : Decimal := ⟨a, s⟩
  let high : Decimal := ⟨a + 1, s⟩
  match readsBack m e low, readsBack m e high with
  | false, false => none
  | true, false => some low
  | false, true => some high
  | true, true =>
    match compareScaled (2 * a + 1) s m (e + 1) with
    | .gt => some low
    | .lt => some high
    | .eq => some (if a % 2 = 0 then low else high)

def dropZeros : (fuel : Nat) → Decimal → Decimal
  | 0, d => d
  | fuel + 1, d =>
    if d.digits ≠ 0 ∧ d.digits % 10 = 0 then dropZeros fuel ⟨d.digits / 10, d.exponent + 1⟩ else d

def shortest (m : Nat) (e : Int) : Decimal :=
  let k := magnitude m e
  let found := (List.range 17).findSome? fun n : Nat => onGrid m e (k - ((n : Int) + 1))
  dropZeros 17 (found.getD ⟨m * twoTo e * Nat.pow 5 (-e).toNat, if e < 0 then e else 0⟩)

def exponentText (e : Int) : Text :=
  let digits := Text.natural e.natAbs
  Text.ofString (if e < 0 then "e-" else "e+") ++
    (if digits.length < 2 then Text.ofString "0" ++ digits else digits)

def zeros (n : Nat) : Text := List.replicate n 0x30

def layout (style : Style) (d : Decimal) : Text :=
  let digits := Text.natural d.digits
  let point : Int := digits.length + d.exponent
  let point0 := Text.ofString "."
  if style.plainFrom < point ∧ point ≤ style.plainBelow then
    if point ≤ 0 then Text.ofString "0." ++ zeros (-point).toNat ++ digits
    else if (digits.length : Int) ≤ point then
      digits ++ zeros (point.toNat - digits.length) ++ Text.ofString ".0"
    else digits.take point.toNat ++ point0 ++ digits.drop point.toNat
  else
    let fraction := digits.drop 1
    digits.take 1 ++ (if fraction.isEmpty then [] else point0 ++ fraction)
      ++ exponentText (point - 1)

def render (style : Style) : Binary64 → Text
  | .nan => style.nan
  | .infinity negative => (if negative then Text.ofString "-" else []) ++ style.infinity
  | .finite negative m e =>
    (if negative then Text.ofString "-" else []) ++
      (if m = 0 then Text.ofString "0.0" else layout style (shortest m e))

end Decimal
end HoconRender
