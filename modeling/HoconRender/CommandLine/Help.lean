import HoconRender.CommandLine.Arguments

/-
Usage lines and help texts, laid out from the table of options in 78 columns.
-/
namespace HoconRender.CommandLine

def columns : Nat := 78
def helpColumn : Nat := 24

def blanks (n : Nat) : Text := List.replicate n 0x20

/-- Puts words on lines of at most `width` columns. The first line has `used` columns already. -/
def fill (width : Nat) : (used : Nat) → (line : List Text) → List Text → List (List Text)
  | _, line, [] => if line.isEmpty then [] else [line]
  | used, line, word :: rest =>
    if line.isEmpty then fill width (used + word.length) [word] rest
    else if width < used + 1 + word.length then line :: fill width word.length [word] rest
    else fill width (used + 1 + word.length) (line ++ [word]) rest

def spaced (words : List Text) : Text := Text.join (Text.ofString " ") words

def wrap (width : Nat) (t : Text) : List Text :=
  (fill width 0 [] (Text.splitAt 0x20 t)).map spaced

namespace OptionSpec

def withValue (option : OptionSpec) (name : Text) : Text :=
  if option.valueName.isEmpty then name else spaced [name, option.valueName]

/-- The part of a usage line: spellings with different meanings are alternatives. -/
def usagePart (option : OptionSpec) : Text :=
  let names := match option.spellings with
    | (first, .flag ..) :: rest => first :: rest.map (·.1)
    | spellings => (spellings.map (·.1)).take 1
  Text.ofString "[" ++ option.withValue (Text.join (Text.ofString " | ") names) ++ Text.ofString "]"

def heading (option : OptionSpec) : Text :=
  Text.join (Text.ofString ", ") (option.spellings.map fun (name, _) => option.withValue name)

end OptionSpec

def subcommandNames (command : Command) : Text := choiceName (command.subcommands.map (·.1))

def usageParts (command : Command) : List Text :=
  command.options.map OptionSpec.usagePart ++
    (if command.subcommands.isEmpty then []
     else [subcommandNames command, Text.ofString "..."])

def usageLines (command : Command) : List Text :=
  let start := Text.ofString "usage: " ++ command.program ++ Text.ofString " "
  match fill (columns - start.length) 0 [] (usageParts command) with
  | [] => [start]
  | first :: rest =>
    (start ++ spaced first) :: rest.map fun line => blanks start.length ++ spaced line

structure HelpRow where
  indent : Nat
  heading : Text
  help : Text
deriving Repr

namespace HelpRow

def width (row : HelpRow) : Nat := row.indent + row.heading.length

/-- The help starts in a column of its own, on a new line if the heading reaches it. -/
def lines (column : Nat) (row : HelpRow) : List Text :=
  let help := wrap (columns - column) row.help
  let start := blanks row.indent ++ row.heading
  if row.width + 2 ≤ column then
    match help with
    | [] => [start]
    | first :: rest =>
      (start ++ blanks (column - row.width) ++ first) :: rest.map (blanks column ++ ·)
  else start :: help.map (blanks column ++ ·)

end HelpRow

def subcommandHelp : Command → Text
  | .root => ""
  | .group => "Inspect render options"
  | .inspect => "Show the render options resolved from settings and flags"
  | .presets => "Show the built-in presets"

def placeholderHelp : Command → Text
  | .root => "Available commands"
  | _ => "Options commands"

def description : Command → Text
  | .root => "Inspect the render options used for HOCON and JSON output"
  | .group => "Resolve and display render options"
  | _ => ""

def examples : List Text := [
  "Examples:",
  "  hoconkit options show",
  "  hoconkit options show --preset concise --format json",
  "  hoconkit options show --no-comments --comment-prefix //",
  "  hoconkit options show --config ./render.json",
  "  hoconkit options presets",
  "        "]

def subcommandRows (command : Command) : List HelpRow :=
  if command.subcommands.isEmpty then []
  else ⟨2, subcommandNames command, placeholderHelp command⟩
    :: command.subcommands.map fun (name, next) => ⟨4, name, subcommandHelp next⟩

def optionRows (command : Command) : List HelpRow :=
  command.options.map fun option => ⟨2, option.heading, option.help⟩

def helpTable (column : Nat) (title : String) (rows : List HelpRow) : List Text :=
  if rows.isEmpty then [] else Text.ofString title :: rows.flatMap (HelpRow.lines column)

def helpBlocks (command : Command) : List (List Text) :=
  let rows := subcommandRows command ++ optionRows command
  let column := min (rows.foldl (fun width row => max width row.width) 0 + 2) helpColumn
  let described := description command
  [usageLines command, if described.isEmpty then [] else [described],
    helpTable column "positional arguments:" (subcommandRows command),
    helpTable column "options:" (optionRows command),
    if command = .root then examples else []].filter (!·.isEmpty)

def usageText (command : Command) : Text := (usageLines command).flatMap Text.line

def helpText (command : Command) : Text :=
  Text.join [Text.newline] ((helpBlocks command).map fun block => block.flatMap Text.line)

end HoconRender.CommandLine
