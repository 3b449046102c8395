import HoconRender.Files
import HoconRender.Json

/-
What a load is asked for: where the project is, a file named explicitly, and overrides. All of it
may come as named arguments, of which two name paths and the others are overrides.
-/
namespace HoconRender

/-- A value in the place of a path: a text names one, and nothing else does. -/
inductive PathChoice where
  | path (path : Path)
  | notAPath (value : Json)
deriving DecidableEq

structure Request where
  projectDirectory : Option PathChoice
  configFile : Option PathChoice
  overrides : Members
deriving DecidableEq

namespace Request

inductive Fault where
  | repeated (name : Text)
  | receiverNamed
deriving DecidableEq, Repr

def plain : Request := ⟨none, none, []⟩

def projectDirectoryName : Text := "project_dir"
def configFileName : Text := "config_file"

def receiverName : Text := "cls"

def choice? : Json → Option PathChoice
  | .null => none
  | .str t => some (.path (.ofText t))
  | value => some (.notAPath value)

def chosen? (given : Option Path) (name : Text) (arguments : Members) : Option PathChoice :=
  match given with
  | some path => some (.path path)
  | none => (arguments.get? name).bind choice?

/-- The request that named arguments make beside paths that are given already. What is given must
not be named again. -/
def ofArguments (projectDirectory configFile : Option Path) (arguments : Members) :
    Except Fault Request :=
  let isGiven (name : Text) : Bool :=
    (projectDirectory.isSome && name == projectDirectoryName)
      || (configFile.isSome && name == configFileName)
  match arguments.keys.find? isGiven with
  | some name => .error (.repeated name)
  | none =>
    if arguments.keys.contains receiverName then .error .receiverNamed
    else .ok ⟨chosen? projectDirectory projectDirectoryName arguments,
      chosen? configFile configFileName arguments,
      (arguments.erase projectDirectoryName).erase configFileName⟩

namespace Fault

def called : Text := "HoconKitConfig.load_hierarchical() got multiple values for "

def message : Fault → Text
  | .repeated name => Text.ofString "hoconkit.core.config.unified_config." ++ called
      ++ Text.ofString "keyword argument '" ++ name ++ Text.ofString "'"
  | .receiverNamed => called ++ Text.ofString "argument '" ++ receiverName ++ Text.ofString "'"

end Fault
end Request
end HoconRender
