import HoconRender.Json
import HoconRender.Options
import HoconRender.Exports

/-
The commands and their options. One table says how an option is spelled, what each spelling sets,
and what the help shows.
-/
namespace HoconRender.CommandLine

/-- The program itself, the group of commands about options, and the commands of that group. -/
inductive Command where
  | root | group | inspect | presets
deriving DecidableEq, Repr

inductive Effect where
  | help | version | verbose | format | config | preset | commentPrefix
  | flag (flag : Flag) (value : Bool)
deriving DecidableEq, Repr

namespace Effect

def takesValue : Effect → Bool
  | .format => true
  | .config => true
  | .preset => true
  | .commentPrefix => true
  | _ => false

def choices : Effect → List Text
  | .format => ["summary", "json"]
  | .preset => Preset.all.map Preset.name
  | _ => []

end Effect

structure OptionSpec where
  spellings : List (Text × Effect)
  valueName : Text
  help : Text
deriving Repr

namespace OptionSpec

def title (option : OptionSpec) : Text :=
  Text.join (Text.ofString "/") (option.spellings.map (·.1))

end OptionSpec

def choiceName (choices : List Text) : Text :=
  Text.ofString "\x7b" ++ Text.join (Text.ofString ",") choices ++ Text.ofString "\x7d"

def helpOption : OptionSpec :=
  ⟨[("-h", .help), ("--help", .help)], "", "show this help message and exit"⟩

def versionOption : OptionSpec :=
  ⟨[("--version", .version)], "", "show program's version number and exit"⟩

def verboseOption : OptionSpec :=
  ⟨[("--verbose", .verbose), ("-v", .verbose)], "", "Enable verbose logging"⟩

def formatOption : OptionSpec :=
  ⟨[("--format", .format)], choiceName (Effect.choices .format), "Output format (default: summary)"⟩

def configOption : OptionSpec :=
  ⟨[("--config", .config)], "CONFIG", "Settings file used instead of ./.hoconkit.json"⟩

def presetOption : OptionSpec :=
  ⟨[("--preset", .preset)], choiceName (Effect.choices .preset),
    "Preset to start from (default: from settings, else defaults)"⟩

def commentPrefixOption : OptionSpec :=
  ⟨[("--comment-prefix", .commentPrefix)], "COMMENT_PREFIX", "Token prepended to comment lines"⟩

def flagHelp : Flag → Text
  | .originComments => "Render autogenerated comments naming where each setting came from"
  | .comments => "Render human-written comments"
  | .formatted => "Render indentation and whitespace"
  | .json => "Render JSON-only syntax (no HOCON extensions)"
  | .showEnvVariableValues => "Render values set from environment variables"

def flagOption (flag : Flag) : OptionSpec :=
  ⟨[(flag.option, .flag flag true), (Text.ofString "--no-" ++ flag.hyphenated, .flag flag false)],
    "", flagHelp flag⟩

namespace Command

def options : Command → List OptionSpec
  | .root => [helpOption, versionOption]
  | .group => [helpOption]
  | .inspect => [helpOption, verboseOption, formatOption, configOption, presetOption]
      ++ Flag.all.map flagOption ++ [commentPrefixOption]
  | .presets => [helpOption, verboseOption, formatOption]

def program : Command → Text
  | .root => Export.package
  | .group => Export.package ++ Text.ofString " options"
  | .inspect => Export.package ++ Text.ofString " options show"
  | .presets => Export.package ++ Text.ofString " options presets"

def subcommands : Command → List (Text × Command)
  | .root => [("options", .group)]
  | .group => [("show", .inspect), ("presets", .presets)]
  | _ => []

/-- How messages call the place where the name of a subcommand stands. -/
def placeholder : Command → Text
  | .root => "command"
  | _ => "options_command"

end Command

structure Spelling where
  name : Text
  effect : Effect
  title : Text
deriving DecidableEq, Repr

def Command.spellings (command : Command) : List Spelling :=
  command.options.flatMap fun option =>
    option.spellings.map fun (name, effect) => ⟨name, effect, option.title⟩

end HoconRender.CommandLine
