import HoconRender.CommandLine.Help
import HoconRender.Json.Writer
import HoconRender.Loading

/-
Carrying out a command line: what is printed, what is logged, and how it ends. Commands print
remarks, which only a verbose one makes, and values as indented JSON.
-/
namespace HoconRender.CommandLine

def remark (verbose : Bool) (message : Text) : Text :=
  if verbose then Text.line (Text.ofString "🔍 " ++ message) else []

def document (value : Json) : Text := Text.line value.pretty

def optionsText (json : Bool) (options : RenderOptions) : Text :=
  if json then document (.obj options.toMembers) else Text.line options.summary

def notStrictRemark : Text :=
  "JSON syntax requested but comments are enabled; output is not strict JSON"

def remarks (verbose : Bool) (config : Config) : Text :=
  let options := config.toOptions
  remark verbose (Text.ofString "Preset: " ++ config.render.preset.name)
    ++ remark verbose (Text.ofString "Comment prefix: " ++ options.commentPrefix.quoted)
    ++ (if options.get .json && !options.isStrictJson then remark verbose notStrictRemark else [])

def overridesRecord (overrides : Members) : LogRecord :=
  ⟨.debug, .collectingOverrides,
    Text.ofString "Render overrides from command line: " ++ (Json.obj overrides).shown⟩

namespace Arguments

def fileChoice : Supplied → PathChoice
  | .text t => .path (.ofText t)
  | .nothing => .notAPath (suppliedValue .nothing)

/-- What is loaded for a command line: its file, and its overrides if there are any. -/
def request (arguments : Arguments) : Request :=
  ⟨none, arguments.config.map fileChoice,
    if arguments.overrides.isEmpty then []
    else [(Text.ofString "render", .obj arguments.overrides)]⟩

end Arguments

def showConfig (arguments : Arguments) (config : Config) : Text :=
  remarks (arguments.verbose || config.debug) config
    ++ optionsText arguments.wantsJson config.toOptions

def inspect (world : World) (arguments : Arguments) : Traced Text := do
  .note (overridesRecord arguments.overrides)
  let config ← load world arguments.request
  .note (resolvingRecord config)
  .ok (showConfig arguments config)

def presetsText (arguments : Arguments) : Text :=
  if arguments.wantsJson then
    document (.obj (Preset.all.map fun preset => (preset.name, .obj preset.options.toMembers)))
  else Preset.all.flatMap fun preset =>
    Text.line (preset.name ++ Text.ofString ": " ++ preset.options.summary)

def levelName : Level → Text
  | .debug => "DEBUG"
  | .warning => "WARNING"
  | .error => "ERROR"

def activityName : Activity → Text
  | .collectingOverrides => "hoconkit.api.cli.commands.options:render_overrides_from_args"
  | .readingFile => "hoconkit.core.config.unified_config:_load_json_file"
  | .resolvingOptions => "hoconkit.core.config.unified_config:to_render_options"
  | .running => "hoconkit.api.cli.main:main"

/-- Verbose logs show every record and where it comes from; others leave debugging out. -/
def recordLine (verbose : Bool) (record : LogRecord) : Text :=
  if verbose then
    Text.line (levelName record.level ++ Text.ofString " | " ++ activityName record.activity
      ++ Text.ofString " - " ++ record.message)
  else if record.level = .debug then []
  else Text.line (levelName record.level ++ Text.ofString " | " ++ record.message)

def logText (verbose : Bool) (log : List LogRecord) : Text := log.flatMap (recordLine verbose)

inductive Ending where
  | exit (code : Nat)
  | uncaught (failure : LoadFailure)
deriving DecidableEq

structure Run where
  ending : Ending
  output : Text
  errors : Text
deriving DecidableEq

def failureRecord (error : ConfigurationError) : LogRecord :=
  ⟨.error, .running, Text.ofString "Command failed: " ++ error.message⟩

namespace Run

def ofStop : Stop → Run
  | .help command => ⟨.exit 0, helpText command, []⟩
  | .version => ⟨.exit 0,
      Text.line (Export.package ++ Text.ofString " " ++ Export.version), []⟩
  | .usage command fault => ⟨.exit 2, [],
      usageText command
        ++ Text.line (command.program ++ Text.ofString ": error: " ++ usageMessage fault)⟩

def ofTraced (verbose : Bool) (traced : Traced Text) : Run :=
  match traced.result with
  | .ok output => ⟨.exit 0, output, logText verbose traced.log⟩
  | .error (.configuration error) =>
    ⟨.exit 1, [], logText verbose (traced.log ++ [failureRecord error])⟩
  | .error failure => ⟨.uncaught failure, [], logText verbose traced.log⟩

end Run

def run (world : World) (line : List Text) : Run :=
  match parse line with
  | .error stop => .ofStop stop
  | .ok .noCommand => ⟨.exit 1, helpText .root, []⟩
  | .ok (.inspect arguments) => .ofTraced arguments.verbose (inspect world arguments)
  | .ok (.presets arguments) => ⟨.exit 0, presetsText arguments, []⟩

end HoconRender.CommandLine
