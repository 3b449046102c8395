import HoconRender.Settings
import HoconRender.Json.Shown

/-
Reading settings from members of an object. Every field is judged by the value under its own key,
and a failure lists one fault for every field that is not valid, in the order of the fields.
Members under other keys do not matter.
-/
namespace HoconRender

inductive Complaint where
  | unknownPreset | unclearBool | notBool | notUnicode | notText | emptyText | notSettings
deriving DecidableEq, Repr

structure FieldFault where
  location : List Text
  complaint : Complaint
  input : Json
deriving DecidableEq

inductive Field where
  | preset
  | switch (flag : Flag)
  | commentPrefix
deriving DecidableEq, Repr

namespace Field

def all : List Field := .preset :: Flag.all.map .switch ++ [.commentPrefix]

/-- The switch for JSON has a second key, read when the first is missing. -/
def keys : Field → List Text
  | .preset => ["preset"]
  | .switch .json => ["json", "json_syntax"]
  | .switch flag => [flag.fieldName]
  | .commentPrefix => ["comment_prefix"]

def find? (field : Field) (members : Members) : Option (Text × Json) :=
  field.keys.findSome? fun key => (members.get? key).map fun value => (key, value)

end Field

namespace RenderSettings

def presetOf : Json → Except Complaint Preset
  | .str name =>
    if ¬ name.WellFormed then .error .notUnicode
    else (Preset.ofName? name).elim (.error .unknownPreset) .ok
  | _ => .error .unknownPreset

def lowerAscii (t : Text) : Text := t.map fun c => if 0x41 ≤ c ∧ c ≤ 0x5A then c + 0x20 else c

def wordsForFalse : List Text := ["0", "off", "f", "false", "n", "no"]
def wordsForTrue : List Text := ["1", "on", "t", "true", "y", "yes"]

def boolOfText (t : Text) : Except Complaint Bool :=
  if ¬ t.WellFormed then .error .notUnicode
  else if wordsForFalse.contains (lowerAscii t) then .ok false
  else if wordsForTrue.contains (lowerAscii t) then .ok true
  else .error .unclearBool

def boolOfInt (i : Int) : Except Complaint Bool :=
  if i = 0 then .ok false
  else if i = 1 then .ok true
  else if -0x8000000000000000 ≤ i ∧ i < 0x8000000000000000 then .error .unclearBool
  else .error .notBool

/-- Integral floating point numbers count as integers above the least one of 64 bits. -/
def boolOfFloat (x : Binary64) : Except Complaint Bool :=
  match x.toInt? with
  | some i => if -0x8000000000000000 < i then boolOfInt i else .error .notBool
  | none => .error .notBool

def boolOf : Json → Except Complaint Bool
  | .bool b => .ok b
  | .int i => boolOfInt i
  | .float x => boolOfFloat x
  | .str t => boolOfText t
  | _ => .error .notBool

def switchOf : Json → Except Complaint (Option Bool)
  | .null => .ok none
  | value => (boolOf value).map some

def commentPrefixOf : Json → Except Complaint (Option Text)
  | .null => .ok none
  | .str t =>
    if ¬ t.WellFormed then .error .notUnicode
    else if t.isEmpty then .error .emptyText
    else .ok (some t)
  | _ => .error .notText

def readField {α : Type} (members : Members) (field : Field) (default : α)
    (check : Json → Except Complaint α) : Except FieldFault α :=
  match field.find? members with
  | none => .ok default
  | some (key, value) => (check value).mapError fun complaint => ⟨[key], complaint, value⟩

def faultsOf {α : Type} : Except FieldFault α → List FieldFault
  | .ok _ => []
  | .error fault => [fault]

def ofMembers (members : Members) : Except (List FieldFault) RenderSettings :=
  let preset := readField members .preset .defaults presetOf
  let switch (flag : Flag) := readField members (.switch flag) none switchOf
  let commentPrefix := readField members .commentPrefix none commentPrefixOf
  let faults := faultsOf preset ++ Flag.all.flatMap (fun flag => faultsOf (switch flag))
    ++ faultsOf commentPrefix
  match preset, commentPrefix with
  | .ok preset, .ok commentPrefix =>
    if faults.isEmpty then
      .ok ⟨preset, .ofFn fun flag => (switch flag).toOption.join, commentPrefix⟩
    else .error faults
  | _, _ => .error faults

end RenderSettings

namespace FieldFault

def within (outer : Text) (fault : FieldFault) : FieldFault :=
  { fault with location := outer :: fault.location }

end FieldFault

namespace Config

def renderOf : Option Json → Except (List FieldFault) RenderSettings
  | none => .ok .unset
  | some (.obj members) =>
    (RenderSettings.ofMembers members).mapError (·.map (·.within "render"))
  | some value => .error [⟨["render"], .notSettings, value⟩]

def debugOf : Option Json → Except (List FieldFault) Bool
  | none => .ok false
  | some value =>
    (RenderSettings.boolOf value).mapError fun complaint => [⟨["debug"], complaint, value⟩]

def ofValues (render debug : Option Json) : Except (List FieldFault) Config :=
  match renderOf render, debugOf debug with
  | .ok render, .ok debug => .ok ⟨render, debug⟩
  | .error faults, .ok _ => .error faults
  | .ok _, .error faults => .error faults
  | .error first, .error second => .error (first ++ second)

end Config

namespace Complaint

def kind : Complaint → Text
  | .unknownPreset => "literal_error"
  | .unclearBool => "bool_parsing"
  | .notBool => "bool_type"
  | .notUnicode => "string_unicode"
  | .notText => "string_type"
  | .emptyText => "string_too_short"
  | .notSettings => "model_type"

def message : Complaint → Text
  | .unknownPreset => "Input should be 'defaults' or 'concise'"
  | .unclearBool => "Input should be a valid boolean, unable to interpret input"
  | .notBool => "Input should be a valid boolean"
  | .notUnicode => "Input should be a valid string, unable to parse raw data as a unicode string"
  | .notText => "Input should be a valid string"
  | .emptyText => "String should have at least 1 character"
  | .notSettings => "Input should be a valid dictionary or instance of RenderSettings"

end Complaint

namespace FieldFault

def text (fault : FieldFault) : Text :=
  Text.join (Text.ofString ".") fault.location ++ Text.ofString "\n  " ++ fault.complaint.message
    ++ Text.ofString " [type=" ++ fault.complaint.kind ++ Text.ofString ", input_value="
    ++ fault.input.excerpt ++ Text.ofString ", input_type=" ++ fault.input.kindName
    ++ Text.ofString "]"

def report (title : Text) (faults : List FieldFault) : Text :=
  Text.natural faults.length ++ Text.ofString " validation error"
    ++ Text.ofString (if faults.length = 1 then "" else "s") ++ Text.ofString " for " ++ title
    ++ faults.flatMap fun fault => Text.newline :: fault.text

end FieldFault
end HoconRender
