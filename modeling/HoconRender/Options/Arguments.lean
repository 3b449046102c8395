import HoconRender.Options.Raw

/-
Render options built from named arguments: every flag has to be given, the comment prefix may be.
Only the comment prefix is checked.
-/
namespace HoconRender.RawOptions

inductive ArgumentFault where
  | nameNotText
  | receiverNamed
  | unexpected (name : Text)
  | missing (first : Text) (others : List Text)
  | rejected (rejection : Rejection)
deriving DecidableEq

namespace ArgumentFault

def enumeration : List Text → Text
  | [] => []
  | [a] => a.quoted
  | [a, b] => a.quoted ++ Text.ofString " and " ++ b.quoted
  | names =>
    Text.join (Text.ofString ", ") (names.dropLast.map Text.quoted) ++ Text.ofString ", and "
      ++ (names.getLast?.getD []).quoted

def called : Text := "ConfigRenderOptions.__init__() "

def message : ArgumentFault → Text
  | .nameNotText => "keywords must be strings"
  | .receiverNamed => called ++ Text.ofString "got multiple values for argument 'self'"
  | .unexpected name =>
    called ++ Text.ofString "got an unexpected keyword argument '" ++ name ++ Text.ofString "'"
  | .missing first others =>
    called ++ Text.ofString "missing " ++ Text.natural (others.length + 1)
      ++ Text.ofString " required positional argument"
      ++ Text.ofString (if others.isEmpty then ": " else "s: ") ++ enumeration (first :: others)
  | .rejected rejection => rejection.reason

end ArgumentFault

def isParameter (name : Text) : Bool :=
  Flag.all.any (fun flag => flag.fieldName == name) || name == Text.ofString "comment_prefix"

/-- Checks one argument name; the receiver of the options is not an argument. -/
def checkName (key : Key) : Except ArgumentFault Unit :=
  match key with
  | .text name =>
    if isParameter name then .ok ()
    else if name = Text.ofString "self" then .error .receiverNamed
    else .error (.unexpected name)
  | _ => .error .nameNotText

def allText (arguments : Mapping) : Bool :=
  arguments.all fun entry => match entry.1.key with | .text _ => true | _ => false

def ofArguments (arguments : Mapping) : Except ArgumentFault RawOptions := do
  if !allText arguments then throw .nameNotText
  arguments.forM fun entry => checkName entry.1.key
  let given (flag : Flag) : Option Json := arguments.get? ⟨.text flag.fieldName⟩
  match (Flag.all.filter fun flag => (given flag).isNone).map Flag.fieldName with
  | first :: others => throw (.missing first others)
  | [] =>
    let commentPrefix ← match arguments.get? "comment_prefix" with
      | none => pure RenderOptions.defaultCommentPrefix
      | some (.str t) => pure t
      | some value => throw (.rejected (.commentPrefixNotText value))
    return ⟨.ofFn fun flag => (given flag).getD .null, commentPrefix⟩

end HoconRender.RawOptions
