import HoconRender.Json.Shown
import HoconRender.Options.Flag

/-
Keys of mappings given as entries. Any value may be a key but a container. Numbers are one key
when they are numerically equal, and true and false count as one and zero; not-a-number is a key
too, and one with itself. A flag of the program is a key apart from its names.
-/
namespace HoconRender

/-- A value of a kind that the program knows nothing of, which is equal to no value of the others.
Such values are equal when their numbers are, and may be shown apart then, or not at all. -/
structure Foreign where
  number : Nat
  shown : Text
  plain : Text
  fault? : Option Text
deriving DecidableEq, Repr

inductive Key where
  | null
  | bool (value : Bool)
  | int (value : Int)
  | float (value : Binary64)
  | text (value : Text)
  | flag (value : Flag)
  | other (value : Foreign)
deriving DecidableEq, Repr

namespace Key

inductive Number where
  | int (value : Int)
  | float (value : Binary64)

def number? : Key → Option Number
  | .bool b => some (.int (if b then 1 else 0))
  | .int i => some (.int i)
  | .float x => some (.float x)
  | _ => none

def sameNumber : Number → Number → Bool
  | .int i, .int j => i == j
  | .int i, .float x => x.toInt? == some i
  | .float x, .int i => x.toInt? == some i
  | .float x, .float y => x == y || x.numericEq y

/-- What is left of a key that is no number where only equality counts. -/
def bare : Key → Key
  | .other value => .other ⟨value.number, [], [], none⟩
  | key => key

def same (a b : Key) : Bool :=
  match a.number?, b.number? with
  | some m, some n => sameNumber m n
  | none, none => a.bare == b.bare
  | _, _ => false

def ofJson? : Json → Option Key
  | .null => some .null
  | .bool b => some (.bool b)
  | .int i => some (.int i)
  | .float x => some (.float x)
  | .str t => some (.text t)
  | _ => none

def json? : Key → Option Json
  | .null => some .null
  | .bool b => some (.bool b)
  | .int i => some (.int i)
  | .float x => some (.float x)
  | .text t => some (.str t)
  | .flag _ => none
  | .other _ => none

theorem ofJson?_eq_some_iff (value : Json) (key : Key) :
    ofJson? value = some key ↔ key.json? = some value := by
  cases value <;> cases key <;> simp [ofJson?, json?, eq_comm]

def flagName (flag : Flag) : Text := Text.ofString "RenderFlag." ++ flag.memberName

def shown : Key → Text
  | .null => Json.null.shown
  | .bool b => (Json.bool b).shown
  | .int i => (Json.int i).shown
  | .float x => (Json.float x).shown
  | .text t => t.quoted
  | .flag f => Text.ofString "<" ++ flagName f ++ Text.ofString ": " ++ f.displayName.quoted
      ++ Text.ofString ">"
  | .other value => value.shown

def plain : Key → Text
  | .text t => t
  | .flag f => flagName f
  | .other value => value.plain
  | key => key.shown

def fault? : Key → Option Text
  | .int i => (Json.int i).fault?
  | .other value => value.fault?
  | _ => none

end Key

def Json.alike (a b : Json) : Bool :=
  match Key.ofJson? a, Key.ofJson? b with
  | some m, some n => m.same n
  | _, _ => a == b

/-- Numerically equal keys are one key of a mapping. -/
structure MappingKey where
  key : Key
deriving Repr

instance : BEq MappingKey := ⟨fun a b => a.key.same b.key⟩
instance : Coe String MappingKey := ⟨fun s => ⟨.text (Text.ofString s)⟩⟩

abbrev Mapping := Entries MappingKey Json

def Mapping.ofEntries (entries : List (Key × Json)) : Mapping :=
  Entries.ofList (entries.map fun (key, value) => (⟨key⟩, value))

end HoconRender
