import HoconRender.Json
import HoconRender.Number.Decimal
import HoconRender.Text.Quoted

/-
Values as messages show them: texts between quotation marks, capitalised constants, items and
members separated by a comma and a space. A long form is cut in the middle, and an integer that is
too long has none.
-/
namespace HoconRender.Json

def shownNumerals : Decimal.Style := ⟨-4, 16, "nan", "inf"⟩

def shownBool (b : Bool) : Text := if b then "True" else "False"

mutual
def shown : Json → Text
  | .null => "None"
  | .bool b => shownBool b
  | .int i => Text.integer i
  | .float x => Decimal.render shownNumerals x
  | .str t => t.quoted
  | .arr items => Text.ofString "[" ++ shownItems items ++ Text.ofString "]"
  | .obj members => Text.ofString "\x7b" ++ shownMembers members ++ Text.ofString "\x7d"
def shownItems : List Json → Text
  | [] => []
  | [item] => shown item
  | item :: next :: rest => shown item ++ Text.ofString ", " ++ shownItems (next :: rest)
def shownMembers : List (Text × Json) → Text
  | [] => []
  | [(key, value)] => key.quoted ++ Text.ofString ": " ++ shown value
  | (key, value) :: next :: rest =>
    key.quoted ++ Text.ofString ": " ++ shown value ++ Text.ofString ", "
      ++ shownMembers (next :: rest)
end

def plain : Json → Text
  | .str t => t
  | value => value.shown

mutual
def writable : Json → Bool
  | .int i => i.natAbs < 10 ^ digitLimit
  | .arr items => writableItems items
  | .obj members => writableMembers members
  | _ => true
def writableItems : List Json → Bool
  | [] => true
  | item :: rest => writable item && writableItems rest
def writableMembers : List (Text × Json) → Bool
  | [] => true
  | (_, value) :: rest => writable value && writableMembers rest
end

def fault? (value : Json) : Option Text := if value.writable then none else some (digitsMessage [])

def notNameMessage (value : Json) : Text :=
  Text.ofString "attribute name must be string, not " ++ value.kindName.quoted

def takeBytes : (budget : Nat) → Text → Text
  | _, [] => []
  | budget, c :: rest =>
    if Text.utf8Width c ≤ budget then c :: takeBytes (budget - Text.utf8Width c) rest else []

def shownLimit : Nat := 50

/-- Forms of more than 50 bytes keep 25 bytes in front and 24 at the end, in whole code points. -/
def shortened (t : Text) : Text :=
  if t.utf8Size ≤ shownLimit then t
  else takeBytes (shownLimit / 2) t ++ Text.ofString "..."
    ++ (takeBytes (shownLimit / 2 - 1) t.reverse).reverse

/-- A value as validation errors quote it, which they do in any case. -/
def excerpt (value : Json) : Text :=
  if value.writable then shortened value.shown
  else Text.ofString "<unprintable " ++ value.kindName ++ Text.ofString " object>"

end HoconRender.Json
