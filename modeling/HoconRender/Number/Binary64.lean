/-
Binary floating point numbers of 64 bits, kept exactly as sign, significand and exponent, so that
equality is decided and nothing rests on machine arithmetic.
-/
namespace HoconRender

/-- A finite number is `significand * 2 ^ exponent`. It is stored with 53 significant bits, or with
the least exponent where it has fewer; zero has the least exponent too. -/
inductive Binary64 where
  | finite (negative : Bool) (significand : Nat) (exponent : Int)
  | infinity (negative : Bool)
  | nan
deriving DecidableEq, Repr

namespace Binary64

def twoTo (e : Int) : Nat := Nat.pow 2 e.toNat
def tenTo (e : Int) : Nat := Nat.pow 10 e.toNat

def leastExponent : Int := -1074
def greatestExponent : Int := 971

def zero (negative : Bool) : Binary64 := .finite negative 0 leastExponent

def isZero : Binary64 → Bool
  | .finite _ m _ => m == 0
  | _ => false

def roundHalfEven (num den : Nat) : Nat :=
  let q := num / den
  let twice := 2 * (num % den)
  if twice < den then q else if den < twice then q + 1 else q + q % 2

def exponentFor (num den : Nat) : Int :=
  let e : Int := Nat.log2 num - Nat.log2 den - 52
  if num * twoTo (-e) < twoTo 52 * (den * twoTo e) then e - 1 else e

def ofQuotient (negative : Bool) (num den : Nat) : Binary64 :=
  if num = 0 then zero negative
  else
    let e := max (exponentFor num den) leastExponent
    let m := roundHalfEven (num * twoTo (-e)) (den * twoTo e)
    let (m, e) := if m = twoTo 53 then (twoTo 52, e + 1) else (m, e)
    if greatestExponent < e then .infinity negative else .finite negative m e

/-- The nearest representable number to `digits * 10 ^ exponent`. Numbers of more than 310 places
are beyond the greatest one, and those below `10 ^ -325` are nearest to zero. -/
def ofDecimal (negative : Bool) (digits : Nat) (exponent : Int) : Binary64 :=
  let places : Int := (Nat.toDigits 10 digits).length + exponent
  if digits = 0 then zero negative
  else if 310 < places then .infinity negative
  else if places < -325 then zero negative
  else ofQuotient negative (digits * tenTo exponent) (tenTo (-exponent))

def toInt? : Binary64 → Option Int
  | .finite negative m e =>
    let den := twoTo (-e)
    if m % den = 0 then
      let n : Int := (m / den * twoTo e : Nat)
      some (if negative then -n else n)
    else none
  | _ => none

def numericEq : Binary64 → Binary64 → Bool
  | .finite s m e, .finite s' m' e' =>
    (m == 0 && m' == 0) || (s == s' && m == m' && e == e')
  | .infinity s, .infinity s' => s == s'
  | _, _ => false

end Binary64
end HoconRender
