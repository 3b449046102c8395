/-
Ordered mappings as lists of entries. Writing a present key keeps its place and its spelling;
a new key goes to the end.
-/
namespace HoconRender

abbrev Entries (κ α : Type) := List (κ × α)

namespace Entries

variable {κ α : Type} [BEq κ]

def keys (entries : Entries κ α) : List κ := entries.map (·.1)

def get? : Entries κ α → κ → Option α
  | [], _ => none
  | (k, a) :: rest, key => if k == key then some a else get? rest key

def put : Entries κ α → κ → α → Entries κ α
  | [], key, a => [(key, a)]
  | (k, b) :: rest, key, a => if k == key then (k, a) :: rest else (k, b) :: put rest key a

def erase : Entries κ α → κ → Entries κ α
  | [], _ => []
  | (k, a) :: rest, key => if k == key then rest else (k, a) :: erase rest key

/-- The mapping that a list of assignments leaves behind. -/
def ofList (assignments : List (κ × α)) : Entries κ α :=
  assignments.foldl (fun entries entry => put entries entry.1 entry.2) []

theorem get?_put_same [LawfulBEq κ] (entries : Entries κ α) (key : κ) (a : α) :
    get? (put entries key a) key = some a := by
  induction entries with
  | nil => simp [put, get?]
  | cons entry rest ih =>
    obtain ⟨k, b⟩ := entry
    by_cases h : k == key <;> simp [put, get?, h, ih]

theorem get?_put_other [LawfulBEq κ] (entries : Entries κ α) {key other : κ} (a : α)
    (apart : key ≠ other) : get? (put entries key a) other = get? entries other := by
  induction entries with
  | nil => simp [put, get?, apart]
  | cons entry rest ih =>
    obtain ⟨k, b⟩ := entry
    by_cases h : k = key
    · simp [put, get?, h, apart]
    · simp [put, get?, beq_eq_false_iff_ne.mpr h, ih]

end Entries
end HoconRender
