import HoconRender.CommandLine.Word

/-
What a command line asks for. Each option keeps its last value, options that are not there stay
unset, and words that nothing takes are reported together.
-/
namespace HoconRender.CommandLine

/-- A value given to an option. Two hyphens behind an equals sign give an option nothing. -/
inductive Supplied where
  | text (text : Text)
  | nothing
deriving DecidableEq, Repr

structure Arguments where
  verbose : Bool
  format : Supplied
  config : Option Supplied
  preset : Option Supplied
  flags : Flags (Option Bool)
  commentPrefix : Option Supplied
deriving DecidableEq, Repr

inductive Stop where
  | help (command : Command)
  | version
  | usage (command : Command) (fault : UsageFault)
deriving DecidableEq, Repr

inductive Invocation where
  | noCommand
  | inspect (arguments : Arguments)
  | presets (arguments : Arguments)
deriving DecidableEq, Repr

namespace Arguments

def unset : Arguments :=
  ⟨false, .text "summary", none, none, .ofFn fun _ => none, none⟩

def supply (arguments : Arguments) (value : Supplied) : Effect → Arguments
  | .format => { arguments with format := value }
  | .config => { arguments with config := some value }
  | .preset => { arguments with preset := some value }
  | .commentPrefix => { arguments with commentPrefix := some value }
  | _ => arguments

def perform (command : Command) : List Effect → Arguments → Except Stop Arguments
  | [], arguments => .ok arguments
  | .help :: _, _ => .error (.help command)
  | .version :: _, _ => .error .version
  | .verbose :: rest, arguments => perform command rest { arguments with verbose := true }
  | .flag flag value :: rest, arguments =>
    perform command rest { arguments with flags := arguments.flags.set flag (some value) }
  | _ :: rest, arguments => perform command rest arguments

def accept (command : Command) (spelling : Spelling) (text : Text) (arguments : Arguments) :
    Except Stop Arguments :=
  let choices := spelling.effect.choices
  if choices.isEmpty || choices.contains text then
    .ok (arguments.supply (.text text) spelling.effect)
  else .error (.usage command (.invalidChoice spelling.title text choices))

def acceptAssigned (command : Command) (spelling : Spelling) (text : Text)
    (arguments : Arguments) : Except Stop Arguments :=
  if text = separatorText then .ok (arguments.supply .nothing spelling.effect)
  else accept command spelling text arguments

def usage {α : Type} (command : Command) : Except UsageFault α → Except Stop α
  | .ok value => .ok value
  | .error fault => .error (.usage command fault)

def leaveOver (word : Text) : Except Stop (Arguments × List Text) → Except Stop (Arguments × List Text)
  | .ok (arguments, left) => .ok (arguments, word :: left)
  | .error stop => .error stop

/-- Takes the options of a command from its words. The words that are left over come back. -/
def ofWords (command : Command) :
    List Word → Arguments → Except Stop (Arguments × List Text)
  | [], arguments => .ok (arguments, [])
  | ⟨text, .separator⟩ :: rest, arguments => leaveOver text (ofWords command rest arguments)
  | ⟨text, .value⟩ :: rest, arguments => leaveOver text (ofWords command rest arguments)
  | ⟨text, .unknown⟩ :: rest, arguments => leaveOver text (ofWords command rest arguments)
  | ⟨_, .known spelling value⟩ :: rest, arguments =>
    if spelling.effect.takesValue then
      match value, rest with
      | some text, rest => do
        let arguments ← acceptAssigned command spelling text arguments
        ofWords command rest arguments
      | none, ⟨text, .value⟩ :: rest => do
        let arguments ← accept command spelling text arguments
        ofWords command rest arguments
      | none, _ => .error (.usage command (.missingValue spelling.title))
    else do
      let effects ← usage command (effects command.spellings spelling value)
      let arguments ← perform command effects arguments
      ofWords command rest arguments

def read (command : Command) (line : List Text) : Except Stop (Arguments × List Text) := do
  let found ← usage command (words command.spellings line)
  ofWords command found unset

end Arguments

/-- The name of a subcommand with the words behind it, and the words left over in front of it. A
separator in front of values stands where the name should. -/
def descend (command : Command) : List Word → Except Stop (List Text × Option (Text × List Text))
  | [] => .ok ([], none)
  | ⟨text, .value⟩ :: rest => .ok ([], some (text, rest.map Word.text))
  | ⟨text, .separator⟩ :: rest =>
    .ok (if rest.isEmpty then ([text], none) else ([], some (text, rest.map Word.text)))
  | ⟨text, .unknown⟩ :: rest =>
    (descend command rest).map fun (left, found) => (text :: left, found)
  | ⟨_, .known spelling value⟩ :: rest => do
    let effects ← Arguments.usage command (effects command.spellings spelling value)
    let _ ← Arguments.perform command effects .unset
    descend command rest

def subcommand (command : Command) (line : List Text) :
    Except Stop (List Text × Option (Command × List Text)) := do
  let found ← Arguments.usage command (words command.spellings line)
  match ← descend command found with
  | (left, none) => .ok (left, none)
  | (left, some (name, rest)) =>
    match command.subcommands.lookup name with
    | some next => .ok (left, some (next, rest))
    | none => .error (.usage command
        (.invalidChoice command.placeholder name (command.subcommands.map (·.1))))

def readGroup (line : List Text) : Except Stop (Invocation × List Text) := do
  match ← subcommand .group line with
  | (_, none) => .error (.usage .group .missingCommand)
  | (left, some (command, rest)) =>
    let (arguments, more) ← Arguments.read command rest
    let invocation := if command = .presets then .presets arguments else .inspect arguments
    .ok (invocation, left ++ more)

def readRoot (line : List Text) : Except Stop (Invocation × List Text) := do
  match ← subcommand .root line with
  | (left, none) => .ok (.noCommand, left)
  | (left, some (_, rest)) =>
    let (invocation, more) ← readGroup rest
    .ok (invocation, left ++ more)

def parse (line : List Text) : Except Stop Invocation := do
  let (invocation, left) ← readRoot line
  if left.isEmpty then .ok invocation else .error (.usage .root (.unrecognized left))

namespace Arguments

def suppliedValue : Supplied → Json
  | .text t => .str t
  | .nothing => .arr []

def presetMember (arguments : Arguments) : Members :=
  match arguments.preset with
  | some (.text (c :: rest)) => [(Text.ofString "preset", .str (c :: rest))]
  | _ => []

def flagMembers (arguments : Arguments) : Members :=
  Flag.all.filterMap fun flag =>
    (arguments.flags.get flag).map fun value => (flag.fieldName, .bool value)

def commentPrefixMember (arguments : Arguments) : Members :=
  match arguments.commentPrefix with
  | some value => [(Text.ofString "comment_prefix", suppliedValue value)]
  | none => []

def overrides (arguments : Arguments) : Members :=
  arguments.presetMember ++ arguments.flagMembers ++ arguments.commentPrefixMember

def wantsJson (arguments : Arguments) : Bool := arguments.format == .text (Text.ofString "json")

end Arguments
end HoconRender.CommandLine
