import HoconRender.Json

/-
Reading JSON text. Duplicate keys keep the first place and the last value; NaN and the infinities
are read; numbers with a fraction or an exponent become floating point. A fault says what was
expected where. Containers may be nested up to `nestingLimit`, integers written with up to
`digitLimit` digits.
-/
namespace HoconRender.Json

inductive Problem where
  | byteOrderMark | missingValue | missingName | missingColon | missingComma | extraData
  | openString | controlCharacter | escape | unicodeEscape
deriving DecidableEq, Repr

structure Place where
  line : Nat
  column : Nat
  offset : Nat
deriving DecidableEq, Repr

inductive ReadFault where
  | malformed (problem : Problem) (place : Place)
  | tooManyDigits (count : Nat)
  | tooDeep
deriving DecidableEq, Repr

inductive Stop where
  | problem (problem : Problem) (offset : Nat)
  | tooManyDigits (count : Nat)
  | tooDeep
deriving DecidableEq, Repr

/-- The text still to be read, and how much of the document stands before it. -/
structure Cursor where
  offset : Nat
  rest : Text
deriving DecidableEq, Repr

def isBlank (c : Nat) : Bool := c == 0x20 || c == 0x0A || c == 0x0D || c == 0x09

def skipBlank (offset : Nat) : Text → Cursor
  | [] => ⟨offset, []⟩
  | c :: rest => if isBlank c then skipBlank (offset + 1) rest else ⟨offset, c :: rest⟩

def hexValue? (c : Nat) : Option Nat :=
  if 0x30 ≤ c ∧ c ≤ 0x39 then some (c - 0x30)
  else if 0x61 ≤ c ∧ c ≤ 0x66 then some (c - 0x57)
  else if 0x41 ≤ c ∧ c ≤ 0x46 then some (c - 0x37)
  else none

def hexValue4? (a b c d : Nat) : Option Nat := do
  let a ← hexValue? a
  let b ← hexValue? b
  let c ← hexValue? c
  let d ← hexValue? d
  return ((a * 16 + b) * 16 + c) * 16 + d

def simpleEscape? (c : Nat) : Option Nat :=
  if c = 0x22 ∨ c = 0x5C ∨ c = 0x2F then some c
  else if c = 0x62 then some 0x08
  else if c = 0x66 then some 0x0C
  else if c = 0x6E then some 0x0A
  else if c = 0x72 then some 0x0D
  else if c = 0x74 then some 0x09
  else none

def joinSurrogates (high low : Nat) : Nat := 0x10000 + (high - 0xD800) * 0x400 + (low - 0xDC00)

def consText (c : Nat) : Except Stop (Text × Cursor) → Except Stop (Text × Cursor)
  | .ok (t, next) => .ok (c :: t, next)
  | .error stop => .error stop

def quad? : Text → Option (Option Nat × Text)
  | a :: b :: c :: d :: next :: rest => some (hexValue4? a b c d, next :: rest)
  | _ => none

/-- The code point that an escape stands for, and its length without the backslash, which stands at
`offset`. The halves of a surrogate pair are joined. -/
def readEscape (start offset : Nat) : Text → Except Stop (Nat × Nat)
  | [] => .error (.problem .openString start)
  | mark :: digits =>
    if mark ≠ 0x75 then
      match simpleEscape? mark with
      | some c => .ok (c, 1)
      | none => .error (.problem .escape offset)
    else
      match quad? digits with
      | some (some high, 0x5C :: 0x75 :: digits) =>
        if Text.isHighSurrogate high then
          match quad? digits with
          | none => .ok (high, 5)
          | some (none, _) => .error (.problem .unicodeEscape (offset + 7))
          | some (some low, _) =>
            .ok (if Text.isLowSurrogate low then (joinSurrogates high low, 11) else (high, 5))
        else .ok (high, 5)
      | some (some c, _) => .ok (c, 5)
      | _ => .error (.problem .unicodeEscape (offset + 1))

def readString (start : Nat) : (offset : Nat) → Text → Except Stop (Text × Cursor)
  | _, [] => .error (.problem .openString start)
  | offset, c :: rest =>
    if c = Text.quotationMark then .ok ([], ⟨offset + 1, rest⟩)
    else if c < 0x20 then .error (.problem .controlCharacter offset)
    else if c ≠ Text.backslash then consText c (readString start (offset + 1) rest)
    else match readEscape start offset rest with
      | .ok (c, width) => consText c (readString start (offset + 1 + width) (rest.drop width))
      | .error stop => .error stop
termination_by _ t => t.length

def digitValue (digits : Text) : Nat := digits.foldl (fun n c => n * 10 + (c - 0x30)) 0

def fraction? : Text → Option (Text × Text)
  | 0x2E :: c :: rest =>
    if Text.isAsciiDigit c then some ((c :: rest).span Text.isAsciiDigit) else none
  | _ => none

def exponent? : Text → Option (Int × Text × Nat)
  | mark :: rest =>
    if mark ≠ 0x65 ∧ mark ≠ 0x45 then none
    else
      let (negative, signs, rest) : Bool × Nat × Text := match rest with
        | 0x2D :: rest => (true, 1, rest)
        | 0x2B :: rest => (false, 1, rest)
        | rest => (false, 0, rest)
      let (digits, rest) := rest.span Text.isAsciiDigit
      if digits.isEmpty then none
      else
        let e : Int := digitValue digits
        some (if negative then -e else e, rest, 1 + signs + digits.length)
  | [] => none

def readMagnitude (negative : Bool) (start : Nat) (here : Cursor) :
    Except Stop (Json × Cursor) :=
  let (digits, rest) : Text × Text := match here.rest with
    | 0x30 :: rest => ([0x30], rest)
    | t => t.span Text.isAsciiDigit
  if digits.isEmpty then .error (.problem .missingValue start)
  else
    let (places, rest) := (fraction? rest).getD ([], rest)
    let offset := here.offset + digits.length + (if places.isEmpty then 0 else places.length + 1)
    match exponent? rest with
    | some (e, rest, width) =>
      .ok (.float (.ofDecimal negative (digitValue (digits ++ places)) (e - places.length)),
        ⟨offset + width, rest⟩)
    | none =>
      if places.isEmpty then
        if digitLimit < digits.length then .error (.tooManyDigits digits.length)
        else
          let n : Int := digitValue digits
          .ok (.int (if negative then -n else n), ⟨offset, rest⟩)
      else
        .ok (.float (.ofDecimal negative (digitValue (digits ++ places)) (-places.length)),
          ⟨offset, rest⟩)

def constants : List (Text × Json) := [
  ("null", .null), ("true", .bool true), ("false", .bool false), ("NaN", .float .nan),
  ("Infinity", .float (.infinity false)), ("-Infinity", .float (.infinity true))]

def constant? (here : Cursor) : Option (Json × Cursor) :=
  constants.findSome? fun (name, value) =>
    (Text.dropHead? name here.rest).map fun rest => (value, ⟨here.offset + name.length, rest⟩)

def readScalar (here : Cursor) : Except Stop (Json × Cursor) :=
  match constant? here with
  | some found => .ok found
  | none =>
    match here.rest with
    | 0x22 :: rest => (readString here.offset (here.offset + 1) rest).map fun (t, next) => (.str t, next)
    | 0x2D :: rest => readMagnitude true here.offset ⟨here.offset + 1, rest⟩
    | _ => readMagnitude false here.offset here

/-- Reads members up to the closing brace, from where a name is due. Each takes a code point at
least, so the size of the document bounds their number. -/
def readMembers (item : Cursor → Except Stop (Json × Cursor)) :
    (size : Nat) → Members → Cursor → Except Stop (Members × Cursor)
  | 0, _, here => .error (.problem .missingName here.offset)
  | size + 1, found, here =>
    match here.rest with
    | 0x22 :: rest => do
      let (name, next) ← readString here.offset (here.offset + 1) rest
      let colon := skipBlank next.offset next.rest
      match colon.rest with
      | 0x3A :: rest =>
        let (value, next) ← item (skipBlank (colon.offset + 1) rest)
        let found := found.put name value
        let mark := skipBlank next.offset next.rest
        match mark.rest with
        | 0x7D :: rest => .ok (found, ⟨mark.offset + 1, rest⟩)
        | 0x2C :: rest => readMembers item size found (skipBlank (mark.offset + 1) rest)
        | _ => .error (.problem .missingComma mark.offset)
      | _ => .error (.problem .missingColon colon.offset)
    | _ => .error (.problem .missingName here.offset)

def readItems (item : Cursor → Except Stop (Json × Cursor)) :
    (size : Nat) → Cursor → Except Stop (List Json × Cursor)
  | 0, here => .error (.problem .missingValue here.offset)
  | size + 1, here => do
    let (value, next) ← item here
    let mark := skipBlank next.offset next.rest
    match mark.rest with
    | 0x5D :: rest => .ok ([value], ⟨mark.offset + 1, rest⟩)
    | 0x2C :: rest =>
      let (items, next) ← readItems item size (skipBlank (mark.offset + 1) rest)
      .ok (value :: items, next)
    | _ => .error (.problem .missingComma mark.offset)

/-- Reads a value nested in at most `depth` more containers, in a document of a given size. -/
def readValue (size : Nat) : (depth : Nat) → Cursor → Except Stop (Json × Cursor)
  | depth, here =>
    match here.rest with
    | 0x7B :: rest =>
      match depth with
      | 0 => .error .tooDeep
      | depth + 1 =>
        let first := skipBlank (here.offset + 1) rest
        match first.rest with
        | 0x7D :: rest => .ok (.obj [], ⟨first.offset + 1, rest⟩)
        | _ => (readMembers (readValue size depth) size [] first).map fun (m, next) => (.obj m, next)
    | 0x5B :: rest =>
      match depth with
      | 0 => .error .tooDeep
      | depth + 1 =>
        let first := skipBlank (here.offset + 1) rest
        match first.rest with
        | 0x5D :: rest => .ok (.arr [], ⟨first.offset + 1, rest⟩)
        | _ => (readItems (readValue size depth) size first).map fun (items, next) => (.arr items, next)
    | _ => readScalar here

def readDocument (document : Text) : Except Stop Json :=
  if document.head? = some 0xFEFF then .error (.problem .byteOrderMark 0)
  else do
    let (value, next) ← readValue document.length nestingLimit (skipBlank 0 document)
    let last := skipBlank next.offset next.rest
    if last.rest.isEmpty then .ok value else .error (.problem .extraData last.offset)

def placeOf (document : Text) (offset : Nat) : Place :=
  let before := document.take offset
  let lines := before.count Text.newline
  ⟨lines + 1, (before.reverse.takeWhile (· ≠ Text.newline)).length + 1, offset⟩

def read (document : Text) : Except ReadFault Json :=
  match readDocument document with
  | .ok value => .ok value
  | .error (.problem problem offset) => .error (.malformed problem (placeOf document offset))
  | .error (.tooManyDigits count) => .error (.tooManyDigits count)
  | .error .tooDeep => .error .tooDeep

def Problem.message : Problem → Text
  | .byteOrderMark => "Unexpected UTF-8 BOM (decode using utf-8-sig)"
  | .missingValue => "Expecting value"
  | .missingName => "Expecting property name enclosed in double quotes"
  | .missingColon => "Expecting ':' delimiter"
  | .missingComma => "Expecting ',' delimiter"
  | .extraData => "Extra data"
  | .openString => "Unterminated string starting at"
  | .controlCharacter => "Invalid control character at"
  | .escape => "Invalid \\escape"
  | .unicodeEscape => "Invalid \\uXXXX escape"

def Place.message (place : Place) : Text :=
  Text.ofString "line " ++ Text.natural place.line ++ Text.ofString " column "
    ++ Text.natural place.column ++ Text.ofString " (char " ++ Text.natural place.offset
    ++ Text.ofString ")"

def malformedMessage (problem : Problem) (place : Place) : Text :=
  problem.message ++ Text.ofString ": " ++ place.message

def tooManyDigitsMessage (count : Nat) : Text :=
  digitsMessage (Text.ofString ": value has " ++ Text.natural count ++ Text.ofString " digits")

end HoconRender.Json
