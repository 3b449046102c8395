import HoconRender.Options.Raw

/-
Options derived from one another. Every state of a derivation is an object with an identity: a
step that changes nothing returns its receiver, any other one makes a new object. A failed step
leaves its receiver as its state.
-/
namespace HoconRender.RawOptions

inductive Step where
  | flag (flag : Flag) (value : Json)
  | namedFlag (name value : Json)
  | commentPrefix (value : Json)
  | roundTrip
  | assign (field : Json)
  | delete (field : Json)

inductive StepFault where
  | refused (fault : ReadingFault)
  | fixedField (field : Text)
  | lastingField (field : Text)
  | noField (name : Json)
deriving DecidableEq

namespace StepFault

def message : StepFault → Text
  | .refused fault => fault.message
  | .fixedField field => Text.ofString "cannot assign to field " ++ field.quoted
  | .lastingField field => Text.ofString "cannot delete field " ++ field.quoted
  | .noField name => name.notNameMessage

end StepFault

inductive Product where
  | receiver
  | fresh (options : RawOptions)
deriving DecidableEq

def Product.value (receiver : RawOptions) : Product → RawOptions
  | .receiver => receiver
  | .fresh options => options

/-- A flag takes the truth of any value, and nothing is made if it has that truth already. -/
def withFlag (receiver : RawOptions) (chosen : Flag) (value : Json) : Product :=
  if (receiver.get chosen).alike (.bool value.truthy) then .receiver
  else .fresh (receiver.set chosen value.truthy)

def withCommentPrefix (receiver : RawOptions) (t : Text) : Product :=
  if t == receiver.commentPrefix then .receiver else .fresh { receiver with commentPrefix := t }

def Step.run (receiver : RawOptions) : Step → Except StepFault Product
  | .flag chosen value => .ok (receiver.withFlag chosen value)
  | .namedFlag name value =>
    match RenderOptions.flagNamed name with
    | .ok chosen => .ok (receiver.withFlag chosen value)
    | .error fault => .error (.refused fault)
  | .commentPrefix value =>
    match RenderOptions.commentPrefixOf value with
    | .ok t => .ok (receiver.withCommentPrefix t)
    | .error rejection => .error (.refused (.rejected rejection))
  | .roundTrip =>
    match RenderOptions.ofMapping receiver.toMapping with
    | .ok options => .ok (.fresh (ofOptions options))
    | .error fault => .error (.refused fault)
  | .assign (.str field) => .error (.fixedField field)
  | .delete (.str field) => .error (.lastingField field)
  | .assign name => .error (.noField name)
  | .delete name => .error (.noField name)

structure Instance where
  identity : Nat
  options : RawOptions
deriving DecidableEq

/-- States in order of their numbers; identities below `objects` are in use. -/
structure Derivation where
  states : List Instance
  objects : Nat
deriving DecidableEq

namespace Derivation

def start (options : RawOptions) : Derivation := ⟨[⟨0, options⟩], 1⟩

def receiver (run : Derivation) (state : Nat) : Instance :=
  (run.states[state]?).getD ⟨run.objects, ofOptions Preset.defaults.options⟩

def apply (run : Derivation) (state : Nat) (step : Step) : Derivation :=
  let receiver := run.receiver state
  match step.run receiver.options with
  | .ok (.fresh options) => ⟨run.states ++ [⟨run.objects, options⟩], run.objects + 1⟩
  | _ => ⟨run.states ++ [receiver], run.objects⟩

def firstAlike? (run : Derivation) (options : RawOptions) : Option Nat :=
  run.states.findIdx? fun state => state.options.alike options

end Derivation
end HoconRender.RawOptions
