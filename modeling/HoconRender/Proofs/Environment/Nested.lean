import HoconRender.Environment
import HoconRender.Proofs.Json.Overlay
import HoconRender.Proofs.Text.Lines

/-
Texts written at paths, one after another. What ends up under a key is told by the paths alone: the
text of the path that ends there, or else an object of what the longer paths write below it. So the
order of writing different paths is lost, but for the order of keys.
-/
namespace HoconRender.Environment

theorem keyPath_ne_nil (t : Text) : keyPath t ≠ [] := by
  fun_induction keyPath t <;> simp

theorem join_keyPath (t : Text) : Text.join [0x5F, 0x5F] (keyPath t) = t := by
  fun_induction keyPath t with
  | case1 => rfl
  | case2 c => rfl
  | case3 c d rest marks ih =>
    obtain ⟨rfl, rfl⟩ := marks
    rw [Text.join_fresh (keyPath_ne_nil rest), ih]
    rfl
  | case4 c d rest plain nothing ih => exact absurd nothing (keyPath_ne_nil _)
  | case5 c d rest plain part more parts ih => rw [Text.join_grown, ← parts, ih]

theorem keyPath_injective {first second : Text} (same : keyPath first = keyPath second) :
    first = second := by
  rw [← join_keyPath first, same, join_keyPath]

theorem mem_of_mem_keyPath {t part : Text} {c : Nat} (member : part ∈ keyPath t)
    (inside : c ∈ part) : c ∈ t := by
  rw [← join_keyPath t]
  exact Text.mem_join member inside

abbrev Assignments := List (List Text × Text)

def assignAll (assignments : Assignments) (members : Members) : Members :=
  assignments.foldl (fun members (path, value) => assign path value members) members

def below? (key : Text) : List Text × Text → Option (List Text × Text)
  | (first :: next :: path, value) => if first = key then some (next :: path, value) else none
  | _ => none

section Assignment

variable {assignments : Assignments} {key : Text}

theorem get?_assign_other {first : Text} (apart : first ≠ key) (path : List Text) (value : Text)
    (members : Members) :
    Entries.get? (assign (first :: path) value members) key = Entries.get? members key := by
  cases path with
  | nil => exact Entries.get?_put_other members _ apart
  | cons next path =>
    unfold assign
    split
    · exact Entries.get?_put_other members _ apart
    · exact Entries.get?_put_other members _ apart
    · rfl

theorem get?_assign_below (next : Text) (path : List Text) (value : Text) {members : Members}
    (accessible : ∀ found, Entries.get? members key = some found → found.isObject = true) :
    Entries.get? (assign (key :: next :: path) value members) key =
      some (.obj (assign (next :: path) value (Json.held (Entries.get? members key)))) := by
  cases there : Entries.get? members key with
  | none =>
    have made : assign (key :: next :: path) value members =
        Entries.put members key (.obj (assign (next :: path) value [])) := by
      rw [assign, there]
    rw [made, Entries.get?_put_same]
    rfl
  | some found =>
    obtain ⟨inner, rfl⟩ := (Json.isObject_iff found).mp (accessible found there)
    have entered : assign (key :: next :: path) value members =
        Entries.put members key (.obj (assign (next :: path) value inner)) := by
      rw [assign, there]
    rw [entered, Entries.get?_put_same]
    rfl

theorem get?_assignAll_below (unwritten : ∀ entry ∈ assignments, entry.1 ≠ [key])
    {members : Members}
    (accessible : ∀ found, Entries.get? members key = some found → found.isObject = true) :
    Entries.get? (assignAll assignments members) key =
      if (assignments.filterMap (below? key)).isEmpty then Entries.get? members key
      else some (.obj (assignAll (assignments.filterMap (below? key))
        (Json.held (Entries.get? members key)))) := by
  -- What stands under the key so far is carried along: only a longer path from there changes it.
  induction assignments generalizing members with
  | nil => rfl
  | cons entry rest ih =>
    obtain ⟨path, value⟩ := entry
    obtain ⟨here, later⟩ := List.forall_mem_cons.mp unwritten
    have step : assignAll ((path, value) :: rest) members =
        assignAll rest (assign path value members) := rfl
    rw [step]
    match path with
    | [] => exact ih later accessible
    | [first] =>
      have apart : first ≠ key := fun same => here (same ▸ rfl)
      have kept := get?_assign_other apart [] value members
      rw [ih later (by rw [kept]; exact accessible), kept]
      rfl
    | first :: next :: path =>
      by_cases same : first = key
      · subst first
        have written := get?_assign_below next path value accessible
        have front : below? key (key :: next :: path, value) = some (next :: path, value) :=
          if_pos rfl
        rw [ih later (by rw [written]; rintro _ ⟨⟩; rfl), written,
          List.filterMap_cons_some front]
        cases rest.filterMap (below? key) <;> rfl
      · have kept := get?_assign_other same (next :: path) value members
        have front : below? key (first :: next :: path, value) = none := if_neg same
        rw [ih later (by rw [kept]; exact accessible), kept, List.filterMap_cons_none front]

theorem get?_assignAll_blocked (unwritten : ∀ entry ∈ assignments, entry.1 ≠ [key])
    {members : Members} {value : Text} (text : Entries.get? members key = some (.str value)) :
    Entries.get? (assignAll assignments members) key = some (.str value) := by
  induction assignments generalizing members with
  | nil => exact text
  | cons entry rest ih =>
    obtain ⟨path, other⟩ := entry
    obtain ⟨here, later⟩ := List.forall_mem_cons.mp unwritten
    apply ih later
    match path with
    | [] => exact text
    | [first] =>
      have apart : first ≠ key := fun same => here (same ▸ rfl)
      rw [get?_assign_other apart [] other members]
      exact text
    | first :: next :: path =>
      by_cases same : first = key
      · subst first
        simp [assign, text]
      · rw [get?_assign_other same (next :: path) other members]
        exact text

/-- A key that one path ends at holds the text of that path: longer paths are blocked by it, and
what they have written before goes. -/
theorem get?_assignAll_text (distinct : (assignments.map (·.1)).Nodup) {value : Text}
    (member : ([key], value) ∈ assignments) (members : Members) :
    Entries.get? (assignAll assignments members) key = some (.str value) := by
  obtain ⟨front, back, rfl⟩ := List.append_of_mem member
  rw [List.map_append, List.map_cons, List.nodup_append] at distinct
  have unwritten : ∀ entry ∈ back, entry.1 ≠ [key] := by
    intro entry inside same
    have again : entry.1 ∈ back.map (·.1) := List.mem_map_of_mem inside
    rw [same] at again
    exact (List.nodup_cons.mp distinct.2.1).1 again
  unfold assignAll
  rw [List.foldl_append, List.foldl_cons]
  exact get?_assignAll_blocked unwritten (Entries.get?_put_same _ key _)

theorem below?_some {entry inner : List Text × Text} (below : below? key entry = some inner) :
    entry = (key :: inner.1, inner.2) := by
  unfold below? at below
  split at below
  · split at below
    · rename_i same
      cases below
      rw [same]
    · cases below
  · cases below

theorem below_distinct (distinct : (assignments.map (·.1)).Nodup) :
    ((assignments.filterMap (below? key)).map (·.1)).Nodup := by
  unfold List.Nodup at distinct ⊢
  rw [List.pairwise_map] at distinct ⊢
  refine distinct.filterMap (below? key) fun entry other apart inner below rest behind same => ?_
  apply apart
  rw [below?_some below, below?_some behind, same]

end Assignment

/-- Different paths may be written in any order: under every path there is the same in the end. -/
theorem assignAll_perm {first second : Assignments} (perm : first.Perm second)
    (distinct : (first.map (·.1)).Nodup) (path : List Text) :
    ((Json.obj (assignAll first [])).at? path).map Json.outline =
      ((Json.obj (assignAll second [])).at? path).map Json.outline := by
  induction path generalizing first second with
  | nil => rfl
  | cons key path ih =>
    have steps (assignments : Assignments) :
        (Json.obj (assignAll assignments [])).at? (key :: path) =
          (Entries.get? (assignAll assignments []) key).bind fun inner => inner.at? path := rfl
    rw [steps first, steps second]
    by_cases written : ∃ value, ([key], value) ∈ first
    · obtain ⟨value, member⟩ := written
      have reordered := (perm.map (·.1)).nodup_iff.mp distinct
      rw [get?_assignAll_text distinct member,
        get?_assignAll_text reordered (perm.mem_iff.mp member)]
    · have unwritten : ∀ entry ∈ first, entry.1 ≠ [key] := by
        rintro ⟨path, value⟩ member rfl
        exact written ⟨value, member⟩
      have below := perm.filterMap (below? key)
      have empty : (first.filterMap (below? key)).isEmpty =
          (second.filterMap (below? key)).isEmpty := by
        rw [Bool.eq_iff_iff, List.isEmpty_iff, List.isEmpty_iff]
        exact ⟨fun nil => (nil ▸ below).nil_eq.symm, fun nil => (nil ▸ below).eq_nil⟩
      rw [get?_assignAll_below unwritten (by simp [Entries.get?]),
        get?_assignAll_below (fun entry member => unwritten entry (perm.mem_iff.mpr member))
          (by simp [Entries.get?]), empty]
      split
      · rfl
      · exact ih below (below_distinct distinct)

theorem nodup_keys_assign (path : List Text) (value : Text) {members : Members}
    (distinct : (Entries.keys members).Nodup) : (Entries.keys (assign path value members)).Nodup := by
  unfold assign
  split
  · exact distinct
  · exact Entries.nodup_keys_put _ _ distinct
  · split
    · exact Entries.nodup_keys_put _ _ distinct
    · exact Entries.nodup_keys_put _ _ distinct
    · exact distinct

theorem nodup_keys_assignAll (assignments : Assignments) {members : Members}
    (distinct : (Entries.keys members).Nodup) :
    (Entries.keys (assignAll assignments members)).Nodup := by
  induction assignments generalizing members with
  | nil => exact distinct
  | cons entry rest ih => exact ih (nodup_keys_assign entry.1 entry.2 distinct)

theorem get?_assignAll_unstarted {assignments : Assignments} {key : Text}
    (unstarted : ∀ entry ∈ assignments, key ∉ entry.1) (members : Members) :
    Entries.get? (assignAll assignments members) key = Entries.get? members key := by
  induction assignments generalizing members with
  | nil => rfl
  | cons entry rest ih =>
    obtain ⟨path, value⟩ := entry
    obtain ⟨here, later⟩ := List.forall_mem_cons.mp unstarted
    refine (ih later (assign path value members)).trans ?_
    cases path with
    | nil => rfl
    | cons first path =>
      have apart : first ≠ key := fun same => here (same ▸ List.mem_cons_self)
      exact get?_assign_other apart path value members

end HoconRender.Environment
