import HoconRender.Json
import HoconRender.Number.Decimal

/-
Writing JSON text in ASCII, on one line or with two spaces of indentation. What is not printable
ASCII is escaped, code points above U+FFFF as surrogate pairs.
-/
namespace HoconRender.Json

/-- Floating point numbers keep a fraction or an exponent, so that they read back as such. -/
def numerals : Decimal.Style := ⟨-4, 16, "NaN", "Infinity"⟩

def escapedUnit (n : Nat) : Text := Text.ofString "\\u" ++ Text.hexadecimal 4 n

def escapedPoint (c : Nat) : Text :=
  if c = Text.quotationMark ∨ c = Text.backslash then [Text.backslash, c]
  else if c = 0x08 then Text.ofString "\\b"
  else if c = 0x09 then Text.ofString "\\t"
  else if c = 0x0A then Text.ofString "\\n"
  else if c = 0x0C then Text.ofString "\\f"
  else if c = 0x0D then Text.ofString "\\r"
  else if 0x20 ≤ c ∧ c < 0x7F then [c]
  else if c < 0x10000 then escapedUnit c
  else escapedUnit (0xD800 + (c - 0x10000) / 0x400)
    ++ escapedUnit (0xDC00 + (c - 0x10000) % 0x400)

def quotedText (t : Text) : Text :=
  [Text.quotationMark] ++ t.flatMap escapedPoint ++ [Text.quotationMark]

def scalarText : Json → Text
  | .bool true => "true"
  | .bool false => "false"
  | .int i => Text.integer i
  | .float x => Decimal.render numerals x
  | .str t => quotedText t
  | _ => "null"

mutual
def compact : Json → Text
  | .arr items => Text.ofString "[" ++ compactItems items ++ Text.ofString "]"
  | .obj members => Text.ofString "\x7b" ++ compactMembers members ++ Text.ofString "\x7d"
  | value => scalarText value
def compactItems : List Json → Text
  | [] => []
  | [item] => compact item
  | item :: next :: rest => compact item ++ Text.ofString "," ++ compactItems (next :: rest)
def compactMembers : List (Text × Json) → Text
  | [] => []
  | [(key, value)] => quotedText key ++ Text.ofString ":" ++ compact value
  | (key, value) :: next :: rest =>
    quotedText key ++ Text.ofString ":" ++ compact value ++ Text.ofString ","
      ++ compactMembers (next :: rest)
end

def lineBreak (depth : Nat) : Text := Text.newline :: List.replicate (2 * depth) 0x20

mutual
def indented (depth : Nat) : Json → Text
  | .arr [] => "[]"
  | .arr items =>
    Text.ofString "[" ++ indentedItems (depth + 1) items ++ lineBreak depth ++ Text.ofString "]"
  | .obj [] => "\x7b\x7d"
  | .obj members =>
    Text.ofString "\x7b" ++ indentedMembers (depth + 1) members ++ lineBreak depth
      ++ Text.ofString "\x7d"
  | value => scalarText value
def indentedItems (depth : Nat) : List Json → Text
  | [] => []
  | [item] => lineBreak depth ++ indented depth item
  | item :: next :: rest =>
    lineBreak depth ++ indented depth item ++ Text.ofString "," ++ indentedItems depth (next :: rest)
def indentedMembers (depth : Nat) : List (Text × Json) → Text
  | [] => []
  | [(key, value)] => lineBreak depth ++ quotedText key ++ Text.ofString ": " ++ indented depth value
  | (key, value) :: next :: rest =>
    lineBreak depth ++ quotedText key ++ Text.ofString ": " ++ indented depth value
      ++ Text.ofString "," ++ indentedMembers depth (next :: rest)
end

def pretty (value : Json) : Text := indented 0 value

end HoconRender.Json
