import HoconRender.CommandLine.Option

/-
Words of a command line. Each is told apart by itself: an option under one of its spellings or
under an unambiguous beginning of a long one, with or without a value behind an equals sign, an
option that is not known, or a value. Behind two hyphens everything is a value.
-/
namespace HoconRender

namespace Text

/-- The zeros of all scripts (Unicode 14.0), in ascending order. Nine more digits follow each. -/
def decimalZeros : List Nat := [
  0x30, 0x660, 0x6F0, 0x7C0, 0x966, 0x9E6, 0xA66, 0xAE6, 0xB66, 0xBE6,
  0xC66, 0xCE6, 0xD66, 0xDE6, 0xE50, 0xED0, 0xF20, 0x1040, 0x1090, 0x17E0,
  0x1810, 0x1946, 0x19D0, 0x1A80, 0x1A90, 0x1B50, 0x1BB0, 0x1C40, 0x1C50, 0xA620,
  0xA8D0, 0xA900, 0xA9D0, 0xA9F0, 0xAA50, 0xABF0, 0xFF10, 0x104A0, 0x10D30, 0x11066,
  0x110F0, 0x11136, 0x111D0, 0x112F0, 0x11450, 0x114D0, 0x11650, 0x116C0, 0x11730, 0x118E0,
  0x11950, 0x11C50, 0x11D50, 0x11DA0, 0x16A60, 0x16AC0, 0x16B50, 0x1D7CE, 0x1D7D8, 0x1D7E2,
  0x1D7EC, 0x1D7F6, 0x1E140, 0x1E2F0, 0x1E950, 0x1FBF0]

def isDecimalDigit (c : Nat) : Bool := decimalZeros.any fun first => first ≤ c && c < first + 10

theorem isDecimalDigit_ascii (c : Nat) (digit : isAsciiDigit c = true) :
    isDecimalDigit c = true := by
  simp only [isAsciiDigit, Bool.and_eq_true, decide_eq_true_eq] at digit
  simp only [isDecimalDigit, List.any_eq_true, Bool.and_eq_true, decide_eq_true_eq]
  exact ⟨0x30, by simp [decimalZeros], by omega, by omega⟩

end Text

namespace CommandLine

inductive UsageFault where
  | ambiguous (word : Text) (candidates : List Text)
  | unusedValue (title value : Text)
  | missingValue (title : Text)
  | invalidChoice (title value : Text) (choices : List Text)
  | missingCommand
  | unrecognized (words : List Text)
deriving DecidableEq, Repr

inductive WordKind where
  | separator
  | value
  | known (spelling : Spelling) (value : Option Text)
  | unknown
deriving DecidableEq, Repr

structure Word where
  text : Text
  kind : WordKind
deriving DecidableEq, Repr

def hyphen : Nat := 0x2D
def equalsSign : Nat := 0x3D
def separatorText : Text := "--"

def findSpelling (spellings : List Spelling) (name : Text) : Option Spelling :=
  spellings.find? fun spelling => spelling.name == name

def isNumeral (t : Text) : Bool :=
  let t := if t.getLast? = some Text.newline then t.dropLast else t
  let (whole, rest) := t.span Text.isDecimalDigit
  match rest with
  | [] => !whole.isEmpty
  | c :: fraction => c == 0x2E && !fraction.isEmpty && fraction.all Text.isDecimalDigit

def candidates (spellings : List Spelling) (word : Text) : List (Spelling × Option Text) :=
  match word with
  | first :: second :: tail =>
    if second = hyphen then
      let (name, value) := Text.cutAt equalsSign word
      (spellings.filter fun spelling => spelling.name.startsWith name).map fun spelling =>
        (spelling, value)
    else
      (spellings.filter fun spelling => spelling.name == [first, second]).map fun spelling =>
        (spelling, some tail)
  | _ => []

def assigned? (spellings : List Spelling) (word : Text) : Option (Spelling × Text) :=
  match Text.cutAt equalsSign word with
  | (name, some value) => (findSpelling spellings name).map fun spelling => (spelling, value)
  | _ => none

/-- A word in front of any separator. Negative numbers and words with a space in them are values
unless they spell an option. -/
def wordKind (spellings : List Spelling) (word : Text) : Except UsageFault WordKind :=
  if word.head? ≠ some hyphen then .ok .value
  else match findSpelling spellings word with
  | some spelling => .ok (.known spelling none)
  | none =>
    if word.length = 1 then .ok .value
    else match assigned? spellings word with
    | some (spelling, value) => .ok (.known spelling (some value))
    | none =>
      match candidates spellings word with
      | [(spelling, value)] => .ok (.known spelling value)
      | [] => .ok (if isNumeral (word.drop 1) || word.contains 0x20 then .value else .unknown)
      | several => .error (.ambiguous word (several.map (·.1.name)))

def words (spellings : List Spelling) : List Text → Except UsageFault (List Word)
  | [] => .ok []
  | text :: rest =>
    if text = separatorText then .ok (⟨text, .separator⟩ :: rest.map fun text => ⟨text, .value⟩)
    else do
      let kind ← wordKind spellings text
      return ⟨text, kind⟩ :: (← words spellings rest)

def cluster (spellings : List Spelling) : Spelling → Text → Except UsageFault (List Effect)
  | spelling, [] => .error (.unusedValue spelling.title [])
  | spelling, letter :: rest =>
    if spelling.name.startsWith separatorText then
      .error (.unusedValue spelling.title (letter :: rest))
    else match findSpelling spellings [hyphen, letter] with
    | none => .error (.unusedValue spelling.title (letter :: rest))
    | some next =>
      if rest.isEmpty then .ok [spelling.effect, next.effect]
      else (cluster spellings next rest).map (spelling.effect :: ·)

def effects (spellings : List Spelling) (spelling : Spelling) :
    Option Text → Except UsageFault (List Effect)
  | none => .ok [spelling.effect]
  | some value => cluster spellings spelling value

def usageMessage : UsageFault → Text
  | .ambiguous word candidates =>
    Text.ofString "ambiguous option: " ++ word ++ Text.ofString " could match "
      ++ Text.join (Text.ofString ", ") candidates
  | .unusedValue title value =>
    Text.ofString "argument " ++ title ++ Text.ofString ": ignored explicit argument "
      ++ value.quoted
  | .missingValue title =>
    Text.ofString "argument " ++ title ++ Text.ofString ": expected one argument"
  | .invalidChoice title value choices =>
    Text.ofString "argument " ++ title ++ Text.ofString ": invalid choice: " ++ value.quoted
      ++ Text.ofString " (choose from " ++ Text.join (Text.ofString ", ") (choices.map Text.quoted)
      ++ Text.ofString ")"
  | .missingCommand => "the following arguments are required: options_command"
  | .unrecognized words =>
    Text.ofString "unrecognized arguments: " ++ Text.join (Text.ofString " ") words

end CommandLine
end HoconRender
