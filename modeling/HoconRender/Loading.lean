import HoconRender.Environment
import HoconRender.ErrorReport
import HoconRender.Files
import HoconRender.Loading.Request
import HoconRender.Text.Utf8

/-
Loading a configuration from its layers: a user file, a project file or a file named explicitly,
overrides, and the environment below them all. Optional files that cannot be read count as
absent and leave a warning; a file named explicitly has to be there and readable.
-/
namespace HoconRender

structure World where
  files : Files
  environment : Environment
  directory : Location
  /-- The home that is on record for the user. -/
  accountHome? : Option Text
deriving Repr

inductive FileFault where
  | notUtf8 (fault : Text.Utf8Fault)
  | malformed (problem : Json.Problem) (place : Json.Place)
  | directory (path : Text)
deriving DecidableEq, Repr

inductive ConfigurationError where
  | missingFile (path : Text)
  | unreadableFile (path : Text) (fault : FileFault)
  | notAnObject (path : Text) (value : Json)
  | invalidSettings (faults : List FieldFault)
  | invalidEnvironment
deriving DecidableEq

/-- Failures other than configuration errors leave the program as they are. -/
inductive LoadFailure where
  | configuration (error : ConfigurationError)
  | tooManyDigits (count : Nat)
  | tooDeep
  | nameTooLong (path : Text)
  | noHome
  | noDirectory
  | notAPath (value : Json)
deriving DecidableEq

inductive Level where
  | debug | warning | error
deriving DecidableEq, Repr

inductive Activity where
  | collectingOverrides | readingFile | resolvingOptions | running
deriving DecidableEq, Repr

structure LogRecord where
  level : Level
  activity : Activity
  message : Text
deriving DecidableEq, Repr

structure Traced (α : Type) where
  log : List LogRecord
  result : Except LoadFailure α

namespace Traced

variable {α β : Type}

def ok (value : α) : Traced α := ⟨[], .ok value⟩
def fail (failure : LoadFailure) : Traced α := ⟨[], .error failure⟩
def note (record : LogRecord) : Traced Unit := ⟨[record], .ok ()⟩

def bind (first : Traced α) (next : α → Traced β) : Traced β :=
  match first.result with
  | .ok value => ⟨first.log ++ (next value).log, (next value).result⟩
  | .error failure => ⟨first.log, .error failure⟩

instance : Monad Traced where
  pure := ok
  bind := bind

end Traced

namespace FileFault

def message : FileFault → Text
  | .notUtf8 fault => fault.message
  | .malformed problem place => Json.malformedMessage problem place
  | .directory path => Text.ofString "[Errno 21] Is a directory: " ++ path.quoted

end FileFault

namespace ConfigurationError

def configTitle : Text := "HoconKitConfig"

def key : ConfigurationError → Option Text
  | .missingFile path => some path
  | .unreadableFile path _ => some path
  | .notAnObject path _ => some path
  | _ => none

def value : ConfigurationError → Json
  | .notAnObject _ value => value
  | _ => .null

def environmentMessage : Text := "error parsing value for field \"render\" from source \"EnvSettingsSource\""

def reason : ConfigurationError → Text
  | .missingFile _ => "Config file does not exist"
  | .unreadableFile _ fault => Text.ofString "Failed to read config file: " ++ fault.message
  | .notAnObject _ _ => "Top level of a config file must be a JSON object"
  | .invalidSettings faults =>
    Text.ofString "Invalid settings: " ++ FieldFault.report configTitle faults
  | .invalidEnvironment => Text.ofString "Invalid environment settings: " ++ environmentMessage

def message (error : ConfigurationError) : Text :=
  ErrorSubject.configurationMessage ((error.key.map Json.str).getD .null) (.str error.reason)

inductive Cause where
  | file (fault : FileFault)
  | build (fault : Config.Fault)
deriving DecidableEq

def cause? : ConfigurationError → Option Cause
  | .unreadableFile _ fault => some (.file fault)
  | .invalidSettings faults => some (.build (.invalid faults))
  | .invalidEnvironment => some (.build .environment)
  | .missingFile _ => none
  | .notAnObject _ _ => none

end ConfigurationError

def Config.Fault.message : Config.Fault → Text
  | .invalid faults => FieldFault.report ConfigurationError.configTitle faults
  | .environment => ConfigurationError.environmentMessage
  | .tooDeep => "maximum recursion depth exceeded"

def LoadFailure.message : LoadFailure → Text
  | .configuration error => error.message
  | .tooManyDigits count => Json.tooManyDigitsMessage count
  | .tooDeep => "maximum recursion depth exceeded"
  | .nameTooLong path => Text.ofString "[Errno 36] File name too long: " ++ path.quoted
  | .noHome => "Could not determine home directory."
  | .noDirectory => "[Errno 2] No such file or directory"
  | .notAPath value =>
    Text.ofString "expected str, bytes or os.PathLike object, not " ++ value.kindName

inductive Content where
  | value (value : Json)
  | faulty (fault : FileFault)
  | tooManyDigits (count : Nat)
  | tooDeep
deriving DecidableEq

namespace Content

def ofBytes (bytes : List Nat) : Content :=
  match Text.decodeUtf8 bytes with
  | .error fault => .faulty (.notUtf8 fault)
  | .ok text =>
    match Json.read (Text.unixLines text) with
    | .ok found => .value found
    | .error (.malformed problem place) => .faulty (.malformed problem place)
    | .error (.tooManyDigits count) => .tooManyDigits count
    | .error .tooDeep => .tooDeep

def ofNode (path : Path) : Node → Content
  | .directory => .faulty (.directory path.text)
  | .file bytes => ofBytes bytes

end Content

namespace World

def target (world : World) (path : Path) : Target := world.files.target world.directory path

def homeVariable : Text := "HOME"
def tilde : Nat := 0x7E

/-- The home directory, from the variable or else from the record. Slashes at its end do not matter,
and a tilde in front stands for a home that is not known. -/
def home? (world : World) : Option Path :=
  match (world.environment.get? homeVariable).or world.accountHome? with
  | none => none
  | some t =>
    if t.head? = some tilde then none
    else
      let t := (t.reverse.dropWhile (· == Path.slash)).reverse
      some (.ofText (if t.isEmpty then [Path.slash] else t))

def userFileIn (home : Path) : Path := (home.child ".hoconkit").child "config.json"

def projectFileIn (directory : Path) : Path := directory.child ".hoconkit.json"

/-- The directory that relative paths start from, unless it was taken away. -/
def currentDirectory? (world : World) : Option Path :=
  if world.files.node? world.directory = some .directory then
    some ⟨[Path.slash], world.directory⟩
  else none

end World

def readMembersOf (path : Path) (required : Bool) : Content → Traced Members
  | .value (.obj members) => do
    .note ⟨.debug, .readingFile, Text.ofString "Loaded configuration from: " ++ path.text⟩
    .ok members
  | .value value => .fail (.configuration (.notAnObject path.text value))
  | .faulty fault =>
    if required then .fail (.configuration (.unreadableFile path.text fault))
    else do
      .note ⟨.warning, .readingFile, Text.ofString "Failed to load config file " ++ path.text
        ++ Text.ofString ": " ++ fault.message⟩
      .ok []
  | .tooManyDigits count => .fail (.tooManyDigits count)
  | .tooDeep => .fail .tooDeep

def readSettingsFile (world : World) (path : Path) (required : Bool) : Traced Members :=
  match world.target path with
  | .absent => if required then .fail (.configuration (.missingFile path.text)) else .ok []
  | .tooLong => .fail (.nameTooLong path.text)
  | .node node _ => readMembersOf path required (.ofNode path node)

def readUserFile (world : World) : Traced Members :=
  match world.home? with
  | some home => readSettingsFile world (World.userFileIn home) false
  | none => .fail .noHome

def readProjectFile (world : World) (directory : Option PathChoice) : Traced Members :=
  match directory with
  | some (.path path) => readSettingsFile world (World.projectFileIn path) false
  | some (.notAPath value) => .fail (.notAPath value)
  | none =>
    match world.currentDirectory? with
    | some path => readSettingsFile world (World.projectFileIn path) false
    | none => .fail .noDirectory

def readChosenFile (world : World) (request : Request) : Traced Members :=
  match request.configFile with
  | some (.path path) => readSettingsFile world path true
  | some (.notAPath value) => .fail (.notAPath value)
  | none => readProjectFile world request.projectDirectory

def buildConfig (environment : Environment) (members : Members) : Except LoadFailure Config :=
  (Config.build environment members).mapError fun
    | .invalid faults => .configuration (.invalidSettings faults)
    | .environment => .configuration .invalidEnvironment
    | .tooDeep => .tooDeep

/-- Later layers are laid over earlier ones, and all of them over the environment. -/
def load (world : World) (request : Request) : Traced Config := do
  let user ← readUserFile world
  let chosen ← readChosenFile world request
  let members := Json.merge (Json.merge (Json.merge [] user) chosen) request.overrides
  ⟨[], buildConfig world.environment members⟩

def resolvingRecord (config : Config) : LogRecord :=
  ⟨.debug, .resolvingOptions, Text.ofString "Resolved render options from '"
    ++ config.render.preset.name ++ Text.ofString "' preset: " ++ config.toOptions.summary⟩

end HoconRender
