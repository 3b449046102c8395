/-
Text as a list of code points. A settings file may name an unpaired surrogate by an escape, so
texts range over all code points and not only over characters.
-/
namespace HoconRender

abbrev Text := List Nat

namespace Text

def ofString (s : String) : Text := s.toList.map Char.toNat

instance : Coe String Text := ⟨ofString⟩

def isHighSurrogate (c : Nat) : Bool := 0xD800 ≤ c && c < 0xDC00
def isLowSurrogate (c : Nat) : Bool := 0xDC00 ≤ c && c < 0xE000

def isScalar (c : Nat) : Bool := c < 0xD800 || (0xE000 ≤ c && c < 0x110000)

def WellFormed (t : Text) : Prop := ∀ c ∈ t, isScalar c = true

instance (t : Text) : Decidable t.WellFormed :=
  inferInstanceAs (Decidable (∀ c ∈ t, isScalar c = true))

def isAsciiDigit (c : Nat) : Bool := 0x30 ≤ c && c ≤ 0x39

def newline : Nat := 10
def quotationMark : Nat := 0x22
def apostrophe : Nat := 0x27
def backslash : Nat := 0x5C

def line (t : Text) : Text := t ++ [newline]

def join (separator : Text) : List Text → Text
  | [] => []
  | [t] => t
  | t :: u :: rest => t ++ separator ++ join separator (u :: rest)

def splitAt (mark : Nat) : Text → List Text
  | [] => [[]]
  | c :: rest =>
    if c = mark then [] :: splitAt mark rest
    else match splitAt mark rest with
      | [] => [[c]]
      | part :: parts => (c :: part) :: parts

/-- The part before the first occurrence of a code point and the part after it, if there is one. -/
def cutAt (mark : Nat) : Text → Text × Option Text
  | [] => ([], none)
  | c :: rest =>
    if c = mark then ([], some rest)
    else let (before, after) := cutAt mark rest; (c :: before, after)

def dropHead? : Text → Text → Option Text
  | [], t => some t
  | _ :: _, [] => none
  | h :: hs, c :: cs => if h = c then dropHead? hs cs else none

def startsWith (t beginning : Text) : Bool := (dropHead? beginning t).isSome

def natural (n : Nat) : Text := (Nat.toDigits 10 n).map Char.toNat

def integer : Int → Text
  | .ofNat n => natural n
  | .negSucc n => 0x2D :: natural (n + 1)

def hexDigit (n : Nat) : Nat := if n < 10 then 0x30 + n else 0x57 + n

/-- The last `width` hexadecimal digits of a number, in lower case. -/
def hexadecimal : (width : Nat) → Nat → Text
  | 0, _ => []
  | width + 1, n => hexadecimal width (n / 16) ++ [hexDigit (n % 16)]

def inRanges (c : Nat) : List (Nat × Nat) → Bool
  | [] => false
  | (first, last) :: rest => if c < first then false else c ≤ last || inRanges c rest

/-- Bytes of a code point in UTF-8; an unpaired surrogate counts like its neighbours. -/
def utf8Width (c : Nat) : Nat :=
  if c < 0x80 then 1 else if c < 0x800 then 2 else if c < 0x10000 then 3 else 4

def utf8Size (t : Text) : Nat := t.foldl (fun n c => n + utf8Width c) 0

end Text
end HoconRender
