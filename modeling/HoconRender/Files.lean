import HoconRender.Entries
import HoconRender.Text.Stored

/-
A tree of files and the paths into it. A path is a root and named parts; empty parts and single
dots are dropped when it is read, double dots stay. Every file and directory below the root is kept
under its location, the names that lead to it from the root, as they come back from the system.
-/
namespace HoconRender

structure Path where
  root : Text
  parts : List Text
deriving DecidableEq, Repr

namespace Path

def slash : Nat := 0x2F
def here : Text := "."
def parent : Text := ".."

def namedParts (t : Text) : List Text :=
  (Text.splitAt slash t).filter fun part => !part.isEmpty && part != here

def rootOf (t : Text) : Text :=
  match (t.takeWhile (· == slash)).length with
  | 0 => []
  | 2 => [slash, slash]
  | _ => [slash]

def ofText (t : Text) : Path := ⟨rootOf t, namedParts t⟩

def isAbsolute (path : Path) : Bool := !path.root.isEmpty

def child (path : Path) (name : Text) : Path := { path with parts := path.parts ++ [name] }

def text (path : Path) : Text :=
  if path.root.isEmpty && path.parts.isEmpty then here
  else path.root ++ Text.join [slash] path.parts

end Path

abbrev Location := List Text

/-- Where names lead from a location through directories. Double dots lead to the directory
above. -/
def Location.follow (location : Location) (names : List Text) : Location :=
  names.foldl (fun location name =>
    if name = Path.parent then location.dropLast else location ++ [name.stored]) location

inductive Node where
  | directory
  | file (bytes : List Nat)
deriving DecidableEq, Repr

abbrev Files := Entries Location Node

inductive Target where
  | absent
  | tooLong
  | node (node : Node) (location : Location)
deriving DecidableEq, Repr

namespace Files

def nameLimit : Nat := 255
def pathLimit : Nat := 4096

def node? (files : Files) (location : Location) : Option Node :=
  if location.isEmpty then some .directory else files.get? location

/-- Names hold characters but no null, and bytes that are no UTF-8. -/
def isNameable (c : Nat) : Bool := c != 0 && (Text.isScalar c || Text.isRawByte c)

def nameSize (name : Text) : Nat := (Text.storedBytes name).length

/-- Follows names from a directory. Double dots lead to the directory above, and only a directory
leads further. -/
def walk (files : Files) (location : Location) : List Text → Target
  | [] => .node .directory location
  | name :: rest =>
    if name = Path.parent then walk files location.dropLast rest
    else if nameLimit < nameSize name then .tooLong
    else
      let next := location ++ [name.stored]
      match files.node? next with
      | none => .absent
      | some .directory => walk files next rest
      | some (.file bytes) => if rest.isEmpty then .node (.file bytes) next else .absent

def target (files : Files) (directory : Location) (path : Path) : Target :=
  if !path.text.all isNameable then .absent
  else if pathLimit ≤ nameSize path.text then .tooLong
  else walk files (if path.isAbsolute then [] else directory) path.parts

def makeDirectory (files : Files) (location : Location) : Files :=
  (List.range location.length).foldl
    (fun files n => files.put (location.take (n + 1)) .directory) files

def write (files : Files) (location : Location) (bytes : List Nat) : Files :=
  (files.makeDirectory location.dropLast).put location (.file bytes)

def remove (files : Files) (location : Location) : Files :=
  files.filter fun (other, _) => !location.isPrefixOf other

end Files
end HoconRender
