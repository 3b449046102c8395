import HoconRender.Json.Key

/-
Errors with context. An error shows its message and the context collected so far. A non-empty
mapping handed in as context is shared with its owner, who sees what is added later; an empty one
is not. The parts of an error may be any values; a message that is no text can only be shown in
front of context, and integers may be too long to be shown at all.
-/
namespace HoconRender

inductive ErrorSubject where
  | general (message : Json)
  | validation (field reason : Json)
  | configuration (key reason : Json)
deriving DecidableEq

namespace ErrorSubject

/-- What counts as false counts as missing. A missing reason is written out behind a key, and left
out without one. -/
def configurationMessage (key reason : Json) : Text :=
  if key.truthy then
    Text.ofString "Configuration error for '" ++ key.plain ++ Text.ofString "': " ++ reason.plain
  else if reason.truthy then Text.ofString "Configuration error: " ++ reason.plain
  else "Configuration error"

def validationMessage (field reason : Text) : Text :=
  Text.ofString "Validation failed for field '" ++ field ++ Text.ofString "': " ++ reason

def fault? : ErrorSubject → Option Text
  | .general _ => none
  | .validation field reason => field.fault?.or reason.fault?
  | .configuration key reason =>
    if key.truthy then key.fault?.or reason.fault? else reason.fault?

def message : ErrorSubject → Json
  | .general message => message
  | .validation field reason => .str (validationMessage field.plain reason.plain)
  | .configuration key reason => .str (configurationMessage key reason)

def isValueError : ErrorSubject → Bool
  | .validation _ _ => true
  | _ => false

end ErrorSubject

structure ErrorReport where
  message : Json
  context : Mapping
  /-- The mapping handed in, as its owner sees it. -/
  handedIn : Option Mapping
  shared : Bool

namespace ErrorReport

def ofSubject (subject : ErrorSubject) (handedIn : Option Mapping) : ErrorReport :=
  let context := handedIn.getD []
  ⟨subject.message, context, handedIn, !context.isEmpty⟩

def addContext (report : ErrorReport) (key : Key) (value : Json) : ErrorReport :=
  { report with
    context := report.context.put ⟨key⟩ value
    handedIn := if report.shared then report.handedIn.map (·.put ⟨key⟩ value) else report.handedIn }

def contextText (context : Mapping) : Text :=
  Text.join (Text.ofString ", ")
    (context.map fun (key, value) => key.key.plain ++ Text.ofString "=" ++ value.plain)

def text (report : ErrorReport) : Text :=
  if report.context.isEmpty then report.message.plain
  else report.message.plain ++ Text.ofString " (context: " ++ contextText report.context
    ++ Text.ofString ")"

inductive Fault where
  | notText (message : Json)
  | unspoken (message : Text)
deriving DecidableEq

def Fault.message : Fault → Text
  | .notText message =>
    Text.ofString "__str__ returned non-string (type " ++ message.kindName ++ Text.ofString ")"
  | .unspoken message => message

def contextFault? (context : Mapping) : Option Text :=
  context.findSome? fun (key, value) => key.key.fault?.or value.fault?

def fault? (report : ErrorReport) : Option Fault :=
  match report.context, report.message with
  | [], .str _ => none
  | [], message => some (.notText message)
  | context, message => ((contextFault? context).or message.fault?).map .unspoken

end ErrorReport
end HoconRender
