import HoconRender.Text
import HoconRender.Entries
import HoconRender.Number.Binary64

/-
JSON values with ordered objects and exact numbers. Integers are unbounded and apart from
floating point numbers; texts may hold unpaired surrogates. One object is laid over another member
by member; any other value replaces what it meets, in place.
-/
namespace HoconRender

inductive Json where
  | null
  | bool (value : Bool)
  | int (value : Int)
  | float (value : Binary64)
  | str (value : Text)
  | arr (items : List Json)
  | obj (members : List (Text × Json))

abbrev Members := Entries Text Json

namespace Json

instance : Inhabited Json := ⟨.null⟩
instance : Coe String Json := ⟨fun s => .str (Text.ofString s)⟩

mutual
def beq : Json → Json → Bool
  | .null, .null => true
  | .bool a, .bool b => a == b
  | .int a, .int b => a == b
  | .float a, .float b => a == b
  | .str a, .str b => a == b
  | .arr a, .arr b => beqItems a b
  | .obj a, .obj b => beqMembers a b
  | _, _ => false
def beqItems : List Json → List Json → Bool
  | [], [] => true
  | a :: as, b :: bs => beq a b && beqItems as bs
  | _, _ => false
def beqMembers : List (Text × Json) → List (Text × Json) → Bool
  | [], [] => true
  | (k, a) :: as, (l, b) :: bs => k == l && beq a b && beqMembers as bs
  | _, _ => false
end

mutual
theorem beq_iff : ∀ a b : Json, beq a b = true ↔ a = b
  | .null, b => by cases b <;> simp [beq]
  | .bool a, b => by cases b <;> simp [beq]
  | .int a, b => by cases b <;> simp [beq]
  | .float a, b => by cases b <;> simp [beq]
  | .str a, b => by cases b <;> simp [beq]
  | .arr a, b => by cases b <;> simp [beq, beqItems_iff a]
  | .obj a, b => by cases b <;> simp [beq, beqMembers_iff a]
theorem beqItems_iff : ∀ a b : List Json, beqItems a b = true ↔ a = b
  | [], b => by cases b <;> simp [beqItems]
  | a :: as, b => by cases b <;> simp [beqItems, beq_iff a, beqItems_iff as]
theorem beqMembers_iff : ∀ a b : List (Text × Json), beqMembers a b = true ↔ a = b
  | [], b => by cases b <;> simp [beqMembers]
  | (k, a) :: as, b => by
    cases b <;> simp [beqMembers, beq_iff a, beqMembers_iff as, Prod.ext_iff, and_assoc]
end

instance : DecidableEq Json := fun a b => decidable_of_iff _ (beq_iff a b)

def kindName : Json → Text
  | .null => "NoneType"
  | .bool _ => "bool"
  | .int _ => "int"
  | .float _ => "float"
  | .str _ => "str"
  | .arr _ => "list"
  | .obj _ => "dict"

def truthy : Json → Bool
  | .null => false
  | .bool b => b
  | .int i => i != 0
  | .float x => !x.isZero
  | .str t => !t.isEmpty
  | .arr items => !items.isEmpty
  | .obj members => !members.isEmpty

def members : Json → Members
  | .obj found => found
  | _ => []

/-- The value that a path of keys leads to, as long as it runs through objects. -/
def at? : Json → List Text → Option Json
  | value, [] => some value
  | value, key :: path => (value.members.get? key).bind fun inner => at? inner path

mutual
def merge (target : Members) : List (Text × Json) → Members
  | [] => target
  | (key, value) :: rest => merge (target.put key (overlay (target.get? key) value)) rest
/-- What stands under a key once `value` is laid over it. -/
def overlay (existing : Option Json) : Json → Json
  | .obj source => .obj (merge ((existing.map members).getD []) source)
  | value => value
end

theorem merge_append (target first second : Members) :
    merge target (first ++ second) = merge (merge target first) second := by
  induction first generalizing target with
  | nil => rfl
  | cons entry rest ih => obtain ⟨key, value⟩ := entry; simp [merge, ih]

mutual
/-- How deep objects stand in one another. A merge of a value goes down as deep. -/
def nesting : Json → Nat
  | .obj members => nestingAmong members + 1
  | _ => 0
def nestingAmong : List (Text × Json) → Nat
  | [] => 0
  | (_, value) :: rest => max (nesting value) (nestingAmong rest)
end

theorem nestingAmong_le_iff (members : List (Text × Json)) (n : Nat) :
    nestingAmong members ≤ n ↔ ∀ entry ∈ members, entry.2.nesting ≤ n := by
  induction members with
  | nil => simp [nestingAmong]
  | cons entry rest ih =>
    obtain ⟨key, value⟩ := entry
    rw [nestingAmong, Nat.max_le, ih, List.forall_mem_cons]

def nestingLimit : Nat := 990

def digitLimit : Nat := 4300

def digitsMessage (found : Text) : Text :=
  Text.ofString "Exceeds the limit (" ++ Text.natural digitLimit
    ++ Text.ofString " digits) for integer string conversion" ++ found
    ++ Text.ofString "; use sys.set_int_max_str_digits() to increase the limit"

end Json
end HoconRender
