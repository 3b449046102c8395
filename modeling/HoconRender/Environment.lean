import HoconRender.Json
import HoconRender.Json.Reader
import HoconRender.Settings.Validation
import HoconRender.Text.LowerCase

/-
Settings from environment variables. Names are compared in lower case. One variable may hold the
render settings as a JSON object; others name a single setting by a path of keys and are laid over
that object in the order in which they were set.
-/
namespace HoconRender

abbrev Environment := Entries Text Text

namespace Environment

inductive Fault where
  | notJson
  | tooDeep
deriving DecidableEq, Repr

def renderVariable : Text := "hoconkit_render"
def debugVariable : Text := "hoconkit_debug"
def nestedStart : Text := "hoconkit_render__"

def lowered (environment : Environment) : Environment :=
  Entries.ofList (environment.map fun (name, value) => (name.lower, value))

def keyPath : Text → List Text
  | [] => [[]]
  | [c] => [[c]]
  | c :: d :: rest =>
    if c = 0x5F ∧ d = 0x5F then [] :: keyPath rest
    else match keyPath (d :: rest) with
      | [] => [[c]]
      | part :: parts => (c :: part) :: parts

/-- Writes a text at the end of a path, through objects that are there or are made on the way.
Any other value on the way blocks the path, and nothing is written. -/
def assign : List Text → Text → Members → Members
  | [], _, members => members
  | [key], value, members => members.put key (.str value)
  | key :: next :: path, value, members =>
    match members.get? key with
    | none => members.put key (.obj (assign (next :: path) value []))
    | some (.obj inner) => members.put key (.obj (assign (next :: path) value inner))
    | some _ => members

def nested (environment : Environment) : Members :=
  environment.foldl (fun members (name, value) =>
    match Text.dropHead? nestedStart name with
    | some rest => assign (keyPath rest) value members
    | none => members) []

def settingKeys : List Text := Field.all.filterMap fun field => field.keys.head?

def settingKey (name : Text) : Text := (settingKeys.find? (· == name.lower)).getD name

def underSettingKeys (members : Members) : Members :=
  Entries.ofList (members.map fun (name, value) => (settingKey name, value))

/-- The render settings that the environment gives, if it gives any. Null gives none, and a value
that is not an object leaves the single settings out. -/
def render? (environment : Environment) : Except Fault (Option Json) :=
  let environment := environment.lowered
  match environment.get? renderVariable with
  | none =>
    let single := environment.nested
    .ok (if single.isEmpty then none else some (.obj (underSettingKeys single)))
  | some text =>
    match Json.read text with
    | .ok .null => .ok none
    | .ok (.obj members) => .ok (some (.obj (underSettingKeys (Json.merge members environment.nested))))
    | .ok value => .ok (some value)
    | .error .tooDeep => .error .tooDeep
    | .error _ => .error .notJson

def debug? (environment : Environment) : Option Json :=
  (environment.lowered.get? debugVariable).map .str

end Environment

namespace Config

inductive Fault where
  | invalid (faults : List FieldFault)
  | environment
  | tooDeep
deriving DecidableEq

def member? (members : Members) (name : Text) : Option Json :=
  (members.find? fun (key, _) => key.lower == name).map (·.2)

def layered (environment given : Option Json) : Option Json :=
  match given with
  | none => environment
  | some value => some (Json.overlay environment value)

def build (environment : Environment) (members : Members) : Except Fault Config :=
  match environment.render? with
  | .error .notJson => .error .environment
  | .error .tooDeep => .error .tooDeep
  | .ok render =>
    (ofValues (layered render (member? members "render"))
      (layered environment.debug? (member? members "debug"))).mapError .invalid

end Config
end HoconRender
