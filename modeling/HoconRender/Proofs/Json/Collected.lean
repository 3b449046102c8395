import HoconRender.Proofs.Entries
import HoconRender.Proofs.Json.Keys
import HoconRender.Proofs.Options.Mappings
import Mathlib.Data.List.Induction

/-
Mappings made by assigning to keys one after another. Such a mapping has each key where it first
stands among the assignments, as it was first written, with the value that was assigned last. That
keys of several spellings can be one key matters wherever a key is looked up, so the numbers among
them are taken in stored form.
-/
namespace HoconRender

theorem eraseDups_concat {α : Type} [BEq α] (items : List α) (last : α) :
    (items ++ [last]).eraseDups =
      if items.eraseDups.any (last == ·) then items.eraseDups else items.eraseDups ++ [last] := by
  -- The tail that is searched next has lost elements, so the induction is on the length.
  induction size : items.length using Nat.strongRecOn generalizing items with
  | ind n ih =>
    cases items with
    | nil => rfl
    | cons first rest =>
      have shorter : (rest.filter fun item => !item == first).length < n := by
        have le := List.length_filter_le (fun item => !item == first) rest
        rw [← size, List.length_cons]
        omega
      have later := ih _ shorter _ rfl
      rw [List.cons_append, List.eraseDups_cons, List.eraseDups_cons, List.filter_append]
      by_cases same : (last == first) = true
      · simp [same]
      · simp only [List.filter_cons, same, Bool.not_false, if_true, List.filter_nil, later,
          List.any_cons, Bool.false_or]
        split <;> rfl

namespace MappingKey

variable {a b c : MappingKey}

theorem beq_self (key : MappingKey) : (key == key) = true := key.key.same_self

theorem beq_comm (a b : MappingKey) : (a == b) = (b == a) := Key.same_comm a.key b.key

theorem beq_congr (first : a.key.Canonical) (second : b.key.Canonical) (third : c.key.Canonical)
    (same : (a == b) = true) : (a == c) = (b == c) := by
  rw [Bool.eq_iff_iff]
  constructor
  · exact Key.same_trans second first third ((beq_comm b a).trans same)
  · exact Key.same_trans first second third same

end MappingKey

namespace Mapping

def Canonical (mapping : Mapping) : Prop := ∀ key ∈ mapping.keys, key.key.Canonical

instance (mapping : Mapping) : Decidable mapping.Canonical :=
  inferInstanceAs (Decidable (∀ key ∈ mapping.keys, key.key.Canonical))

def assignAll (mapping assignments : Mapping) : Mapping :=
  assignments.foldl (fun all entry => Entries.put all entry.1 entry.2) mapping

/-- The entries that assignments leave: each key once, where it first stands and as it was first
written, with the value that was assigned last. -/
structure Collects (assignments pairs : Mapping) : Prop where
  keys : pairs.keys = assignments.keys.eraseDups
  last : ∀ entry ∈ pairs, Entries.get? assignments.reverse entry.1 = some entry.2

section Lookups

variable {mapping assignments : Mapping} {key other : MappingKey}

theorem Canonical.tail {entry : MappingKey × Json} (canonical : Canonical (entry :: mapping)) :
    mapping.Canonical := fun key member => canonical key (List.mem_cons_of_mem _ member)

theorem canonical_append_iff :
    Canonical (mapping ++ assignments) ↔ mapping.Canonical ∧ assignments.Canonical := by
  unfold Canonical Entries.keys
  rw [List.map_append, List.forall_mem_append]

theorem Canonical.reverse (canonical : mapping.Canonical) : Canonical mapping.reverse := by
  intro key member
  have inside : key ∈ mapping.keys := by simpa [Entries.keys] using member
  exact canonical key inside

theorem get?_put (canonical : mapping.Canonical) (own : key.key.Canonical)
    (asked : other.key.Canonical) (value : Json) :
    (mapping.put key value).get? other =
      if key == other then some value else mapping.get? other := by
  induction mapping with
  | nil => rfl
  | cons entry rest ih =>
    obtain ⟨first, old⟩ := entry
    have front : first.key.Canonical := canonical first List.mem_cons_self
    by_cases same : (first == key) = true
    · rw [Entries.put, if_pos same, Entries.get?, Entries.get?,
        MappingKey.beq_congr front own asked same]
      split <;> rfl
    · rw [Entries.put, if_neg same, Entries.get?, Entries.get?, ih canonical.tail]
      by_cases found : (first == other) = true
      · have apart : ¬ (key == other) = true := by
          intro also
          rw [MappingKey.beq_congr front asked own found, MappingKey.beq_comm other key] at same
          exact same also
        rw [if_pos found, if_neg apart, if_pos found]
      · rw [if_neg found, if_neg found]

theorem canonical_put (canonical : mapping.Canonical) (own : key.key.Canonical) (value : Json) :
    Canonical (mapping.put key value) := by
  intro known member
  rcases mem_keys_put member with old | rfl
  · exact canonical known old
  · exact own

/-- The last assignment to a key counts, and what stood there before only if there is none. -/
theorem get?_assignAll (canonical : mapping.Canonical) (keys : assignments.Canonical)
    (asked : key.key.Canonical) :
    (mapping.assignAll assignments).get? key =
      (Entries.get? assignments.reverse key).or (mapping.get? key) := by
  induction assignments generalizing mapping with
  | nil => rfl
  | cons first rest ih =>
    have own : first.1.key.Canonical := keys first.1 List.mem_cons_self
    change (assignAll (mapping.put first.1 first.2) rest).get? key = _
    rw [ih (canonical_put canonical own first.2) keys.tail, get?_put canonical own asked,
      List.reverse_cons, Entries.get?_append, Option.or_assoc]
    congr 1
    rw [Entries.get?]
    split <;> rfl

theorem get?_congr (canonical : mapping.Canonical) (own : key.key.Canonical)
    (asked : other.key.Canonical) (same : (key == other) = true) :
    mapping.get? key = mapping.get? other := by
  induction mapping with
  | nil => rfl
  | cons entry rest ih =>
    have front : entry.1.key.Canonical := canonical entry.1 List.mem_cons_self
    have alike : (entry.1 == key) = (entry.1 == other) := by
      rw [MappingKey.beq_comm entry.1 key, MappingKey.beq_comm entry.1 other,
        MappingKey.beq_congr own asked front same]
    rw [Entries.get?, Entries.get?, alike, ih canonical.tail]

theorem get?_of_mem (proper : mapping.Proper) {entry : MappingKey × Json}
    (member : entry ∈ mapping) : mapping.get? entry.1 = some entry.2 := by
  induction mapping with
  | nil => cases member
  | cons first rest ih =>
    obtain ⟨apart, later⟩ := List.pairwise_cons.mp proper
    rcases List.mem_cons.mp member with rfl | behind
    · rw [Entries.get?, if_pos (MappingKey.beq_self entry.1)]
    · have passed : (first.1 == entry.1) = false := apart entry.1 (List.mem_map_of_mem behind)
      rw [Entries.get?, passed]
      exact ih later behind

theorem isSome_get?_of_mem {entry : MappingKey × Json} (member : entry ∈ mapping) :
    (mapping.get? entry.1).isSome = true := by
  rw [Entries.isSome_get?, List.any_eq_true]
  exact ⟨entry.1, List.mem_map_of_mem member, MappingKey.beq_self entry.1⟩

theorem exists_of_get? {value : Json} (found : mapping.get? key = some value) :
    ∃ entry ∈ mapping, (entry.1 == key) = true := by
  have present : (mapping.get? key).isSome = true := by rw [found]; rfl
  rw [Entries.isSome_get?, List.any_eq_true] at present
  obtain ⟨known, member, same⟩ := present
  obtain ⟨entry, inside, rfl⟩ := List.mem_map.mp member
  exact ⟨entry, inside, same⟩

theorem ext_get? {other : Mapping} (keys : mapping.keys = other.keys) (proper : mapping.Proper)
    (values : ∀ key ∈ mapping.keys, mapping.get? key = other.get? key) : mapping = other := by
  have also : other.Proper := by
    unfold Proper
    exact keys ▸ proper
  apply List.ext_getElem
  · have lengths := congrArg List.length keys
    simpa [Entries.keys] using lengths
  · intro n inside behind
    have same : mapping[n].1 = other[n].1 := by
      have there := List.getElem_of_eq keys (i := n) (by simpa [Entries.keys] using inside)
      simpa [Entries.keys] using there
    have value := values mapping[n].1 (List.mem_map_of_mem (List.getElem_mem inside))
    rw [get?_of_mem proper (List.getElem_mem inside), same,
      get?_of_mem also (List.getElem_mem behind)] at value
    exact Prod.ext same (Option.some.inj value)

end Lookups

section Collected

variable {mapping assignments pairs : Mapping}

theorem Collects.eq_nil_iff (collects : Collects assignments pairs) :
    pairs = [] ↔ assignments = [] := by
  have keys := collects.keys
  cases assignments with
  | nil => simpa [Entries.keys] using keys
  | cons first rest =>
    have listed : (Entries.keys (first :: rest)).eraseDups = first.1 :: _ := List.eraseDups_cons
    rw [listed] at keys
    cases pairs with
    | nil => cases keys
    | cons entry more => simp

theorem keys_assignAll (assignments : Mapping) :
    (assignAll [] assignments).keys = assignments.keys.eraseDups := by
  induction assignments using List.reverseRecOn with
  | nil => rfl
  | append_singleton rest last ih =>
    have step : assignAll [] (rest ++ [last]) = (assignAll [] rest).put last.1 last.2 :=
      List.foldl_append ..
    have keys : Entries.keys (rest ++ [last]) = Entries.keys rest ++ [last.1] := List.map_append
    have sides : (fun key => key == last.1) = fun key => last.1 == key :=
      funext fun key => MappingKey.beq_comm key last.1
    rw [step, Entries.keys_put, keys, eraseDups_concat, ih, sides]

theorem assignAll_proper {front : Mapping} (proper : Proper (front ++ mapping)) :
    front.assignAll mapping = front ++ mapping := by
  induction mapping generalizing front with
  | nil => exact (List.append_nil front).symm
  | cons first rest ih =>
    have whole : front ++ first :: rest = (front ++ [first]) ++ rest := by simp
    have fresh : ∀ known ∈ front.keys, (known == first.1) = false := by
      intro known member
      unfold Proper Entries.keys at proper
      rw [List.map_append, List.pairwise_append] at proper
      exact proper.2.2 known member first.1 List.mem_cons_self
    change assignAll (front.put first.1 first.2) rest = _
    rw [Entries.put_fresh first.2 fresh, whole]
    exact ih (whole ▸ proper)

theorem assignAll_append (front : Mapping) :
    front.assignAll (mapping ++ assignments) = (front.assignAll mapping).assignAll assignments :=
  List.foldl_append ..

theorem assignAll_of_proper (proper : mapping.Proper) :
    mapping.assignAll assignments = assignAll [] (mapping ++ assignments) := by
  have anew : assignAll [] mapping = mapping := assignAll_proper proper
  rw [assignAll_append, anew]

theorem canonical_assignAll (canonical : mapping.Canonical) (keys : assignments.Canonical) :
    (mapping.assignAll assignments).Canonical := by
  induction assignments generalizing mapping with
  | nil => exact canonical
  | cons first rest ih =>
    have own : first.1.key.Canonical := keys first.1 List.mem_cons_self
    exact ih (canonical_put canonical own first.2) keys.tail

theorem collects_assignAll (proper : mapping.Proper)
    (canonical : Canonical (mapping ++ assignments)) :
    Collects (mapping ++ assignments) (mapping.assignAll assignments) := by
  have nothing : Canonical [] := fun key member => nomatch member
  have empty : Proper [] := List.Pairwise.nil
  have distinct : Proper (assignAll [] (mapping ++ assignments)) := proper_putAll empty _
  rw [assignAll_of_proper proper]
  refine ⟨keys_assignAll _, fun entry member => ?_⟩
  have own := canonical_assignAll nothing canonical entry.1 (List.mem_map_of_mem member)
  have found := get?_of_mem distinct member
  rw [← found, get?_assignAll nothing canonical own]
  exact (Option.or_none ..).symm

theorem keys_assignAll_known
    (known : ∀ entry ∈ assignments, mapping.keys.any (· == entry.1) = true) :
    (mapping.assignAll assignments).keys = mapping.keys := by
  induction assignments generalizing mapping with
  | nil => rfl
  | cons first rest ih =>
    have kept : (mapping.put first.1 first.2).keys = mapping.keys := by
      rw [Entries.keys_put, if_pos (known first List.mem_cons_self)]
    refine Eq.trans (ih fun entry member => ?_) kept
    rw [kept]
    exact known entry (List.mem_cons_of_mem first member)

/-- Assignments change nothing exactly if the last one to each key says what stands there. -/
theorem assignAll_eq_self_iff (proper : mapping.Proper)
    (canonical : Canonical (mapping ++ assignments)) :
    mapping.assignAll assignments = mapping ↔
      ∀ entry ∈ assignments, mapping.get? entry.1 = Entries.get? assignments.reverse entry.1 := by
  obtain ⟨old, new⟩ := canonical_append_iff.mp canonical
  constructor
  · intro same entry member
    have own := new entry.1 (List.mem_map_of_mem member)
    have assigned := isSome_get?_of_mem (List.mem_reverse.mpr member)
    have found := get?_assignAll old new own
    rw [same] at found
    rw [found, Option.or_of_isSome assigned]
  · intro restated
    have known : ∀ entry ∈ assignments, mapping.keys.any (· == entry.1) = true := by
      intro entry member
      rw [← Entries.isSome_get?, restated entry member]
      exact isSome_get?_of_mem (List.mem_reverse.mpr member)
    have keys := keys_assignAll_known known
    refine (ext_get? keys.symm proper fun key member => ?_).symm
    have own := old key member
    rw [get?_assignAll old new own]
    cases assigned : Entries.get? assignments.reverse key with
    | none => rfl
    | some value =>
      obtain ⟨entry, behind, same⟩ := exists_of_get? assigned
      have inside := List.mem_reverse.mp behind
      have further := new entry.1 (List.mem_map_of_mem inside)
      calc mapping.get? key = mapping.get? entry.1 := (get?_congr old further own same).symm
        _ = Entries.get? assignments.reverse entry.1 := restated entry inside
        _ = Entries.get? assignments.reverse key := get?_congr new.reverse further own same
        _ = some value := assigned

end Collected

end Mapping
end HoconRender
