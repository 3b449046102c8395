import HoconRender.Proofs.Json.Overlay

/-
What a path of keys leads to in merged objects. A value that is no object ends every path through
it, and hides what was there before; where objects meet, the path goes on in both of them.
-/
namespace HoconRender.Json

theorem overlay_plain {value : Json} (plain : value.isObject = false) (existing : Option Json) :
    overlay existing value = value := by
  cases value with
  | obj members => cases plain
  | _ => rfl

section At

variable {members : Members} {key : Text} {value : Json}

theorem at?_missing (missing : Entries.get? members key = none) (path : List Text) :
    (obj members).at? (key :: path) = none := by
  change (Entries.get? members key).bind _ = none
  rw [missing]
  rfl

theorem at?_found (found : Entries.get? members key = some value) (path : List Text) :
    (obj members).at? (key :: path) = value.at? path := by
  change (Entries.get? members key).bind _ = _
  rw [found]
  rfl

theorem at?_plain (plain : value.isObject = false) {path : List Text} (long : path ≠ []) :
    value.at? path = none := by
  cases path with
  | nil => exact absurd rfl long
  | cons key path =>
    cases value with
    | obj members => cases plain
    | _ => rfl

theorem at?_held (value : Option Json) {path : List Text} (long : path ≠ []) :
    (obj (held value)).at? path = value.bind fun inner => inner.at? path := by
  cases path with
  | nil => exact absurd rfl long
  | cons key path => cases value <;> rfl

theorem held_at?_held (value : Option Json) (path : List Text) :
    held ((obj (held value)).at? path) = held (value.bind fun inner => inner.at? path) := by
  cases path with
  | nil => cases value <;> rfl
  | cons key path => rw [at?_held value (List.cons_ne_nil key path)]

theorem at?_merge {source : Members} (distinct : (Entries.keys source).Nodup) (target : Members)
    (key : Text) (path : List Text) :
    (obj (merge target source)).at? (key :: path) =
      (Config.layered (Entries.get? target key) (Entries.get? source key)).bind
        fun inner => inner.at? path := by
  rw [← get?_merge distinct]
  rfl

end At

/-- A value that is no object stands on a path, at its end or before it. -/
def Stops (source : Members) (path : List Text) : Prop :=
  ∃ front value, front ≠ [] ∧ front <+: path ∧ (obj source).at? front = some value ∧
    value.isObject = false

section Stops

variable {source : Members} {key : Text}

theorem not_stops_nil (source : Members) : ¬ Stops source [] := by
  rintro ⟨front, _, long, start, _⟩
  exact long (List.prefix_nil.mp start)

theorem stops_missing (missing : Entries.get? source key = none) (path : List Text) :
    ¬ Stops source (key :: path) := by
  rintro ⟨front, value, long, start, leads, _⟩
  cases front with
  | nil => exact long rfl
  | cons first front =>
    obtain ⟨rfl, _⟩ := List.cons_prefix_cons.mp start
    cases (at?_missing missing front).symm.trans leads

theorem stops_plain {value : Json} (found : Entries.get? source key = some value)
    (plain : value.isObject = false) (path : List Text) : Stops source (key :: path) :=
  ⟨[key], value, List.cons_ne_nil key [], ⟨path, rfl⟩, at?_found found [], plain⟩

theorem stops_object_iff {inner : Members} (found : Entries.get? source key = some (.obj inner))
    (path : List Text) : Stops source (key :: path) ↔ Stops inner path := by
  constructor
  · rintro ⟨front, value, long, start, leads, plain⟩
    cases front with
    | nil => exact absurd rfl long
    | cons first front =>
      obtain ⟨rfl, behind⟩ := List.cons_prefix_cons.mp start
      rw [at?_found found] at leads
      refine ⟨front, value, ?_, behind, leads, plain⟩
      rintro rfl
      cases leads
      cases plain
  · rintro ⟨front, value, _, start, leads, plain⟩
    exact ⟨key :: front, value, List.cons_ne_nil key front,
      List.cons_prefix_cons.mpr ⟨rfl, start⟩, (at?_found found front).trans leads, plain⟩

end Stops

structure FollowsMerge (target source : Members) (path : List Text) : Prop where
  stopped : Stops source path →
    (obj (merge target source)).at? path = (obj source).at? path
  merged : ∀ inner, (obj source).at? path = some (.obj inner) →
    (obj (merge target source)).at? path =
      some (.obj (merge (held ((obj target).at? path)) inner))
  kept : ¬ Stops source path → (obj source).at? path = none →
    (obj (merge target source)).at? path = (obj target).at? path

section Follows

variable {source : Members} {key : Text}

theorem follows_missing (distinct : (Entries.keys source).Nodup) (target : Members)
    (missing : Entries.get? source key = none) (path : List Text) :
    FollowsMerge target source (key :: path) := by
  have whole := at?_merge distinct target key path
  rw [missing] at whole
  refine ⟨fun stops => absurd stops (stops_missing missing path), fun inner reached => ?_,
    fun _ _ => whole⟩
  cases (at?_missing missing path).symm.trans reached

theorem follows_plain (distinct : (Entries.keys source).Nodup) (target : Members) {value : Json}
    (found : Entries.get? source key = some value) (plain : value.isObject = false)
    (path : List Text) : FollowsMerge target source (key :: path) := by
  have whole := at?_merge distinct target key path
  rw [found, Config.layered, overlay_plain plain] at whole
  refine ⟨fun _ => whole.trans (at?_found found path).symm, fun inner reached => ?_,
    fun free => absurd (stops_plain found plain path) free⟩
  rw [at?_found found] at reached
  cases path with
  | nil =>
    cases reached
    cases plain
  | cons next path => cases (at?_plain plain (List.cons_ne_nil next path)).symm.trans reached

theorem follows_object (distinct : (Entries.keys source).Nodup) (target : Members)
    {inner : Members} (found : Entries.get? source key = some (.obj inner)) {path : List Text}
    (behind : FollowsMerge (held (Entries.get? target key)) inner path) :
    FollowsMerge target source (key :: path) := by
  have whole : (obj (merge target source)).at? (key :: path) =
      (obj (merge (held (Entries.get? target key)) inner)).at? path := by
    rw [at?_merge distinct, found]
    rfl
  refine ⟨fun stops => ?_, fun members reached => ?_, fun free nowhere => ?_⟩
  · rw [whole, at?_found found, behind.stopped ((stops_object_iff found path).mp stops)]
  · rw [at?_found found] at reached
    rw [whole, behind.merged members reached, held_at?_held]
    rfl
  · rw [at?_found found] at nowhere
    have long : path ≠ [] := by
      rintro rfl
      cases nowhere
    rw [whole, behind.kept (mt (stops_object_iff found path).mpr free) nowhere, at?_held _ long]
    rfl

theorem follows_merge (distinct : (obj source).Distinct) (target : Members)
    (path : List Text) : FollowsMerge target source path := by
  induction path generalizing target source with
  | nil =>
    refine ⟨fun stops => absurd stops (not_stops_nil source), fun inner reached => ?_,
      fun _ nowhere => ?_⟩
    · cases reached
      rfl
    · cases nowhere
  | cons key path ih =>
    have keys := distinct_keys distinct
    rcases found_cases (Entries.get? source key) with
      missing | ⟨value, found, plain⟩ | ⟨inner, found⟩
    · exact follows_missing keys target missing path
    · exact follows_plain keys target found plain path
    · exact follows_object keys target found (ih (distinct_get? distinct found) _)

end Follows

/-- Along every path a merge gives what is laid over, if a value that is no object stands on it;
else the object there, merged into what was there if that is one; and else what was there. So it
reaches what either one reaches, but for what such a value hides. -/
theorem merge_obeys_paths (target source : Members) (distinct : (obj source).Distinct)
    (path : List Text) :
    (Stops source path → (obj (merge target source)).at? path = (obj source).at? path) ∧
    (∀ inner, (obj source).at? path = some (.obj inner) →
      (obj (merge target source)).at? path =
        some (.obj (merge (held ((obj target).at? path)) inner))) ∧
    (¬ Stops source path → (obj source).at? path = none →
      (obj (merge target source)).at? path = (obj target).at? path) ∧
    (((obj (merge target source)).at? path).isSome = true ↔
      ((obj source).at? path).isSome = true ∨
        ¬ Stops source path ∧ ((obj target).at? path).isSome = true) := by
  obtain ⟨stopped, merged, kept⟩ := follows_merge distinct target path
  refine ⟨stopped, merged, kept, ?_⟩
  by_cases stops : Stops source path
  · simp [stopped stops, stops]
  · rcases found_cases ((obj source).at? path) with
      nowhere | ⟨value, reached, plain⟩ | ⟨inner, reached⟩
    · simp [kept stops nowhere, nowhere, stops]
    · -- It would stand on the path, at its end.
      have long : path ≠ [] := by
        rintro rfl
        cases reached
        cases plain
      exact absurd ⟨path, value, long, List.prefix_refl path, reached, plain⟩ stops
    · simp [merged inner reached, reached]

section Sample

def clashingTarget : Members :=
  [("a", .obj [("x", .int 1), ("y", .obj [("z", .int 2)])]), ("b", .int 3)]

def clashingSource : Members :=
  [("a", .obj [("y", .null), ("w", .obj [])]), ("b", .obj [("x", .int 4)])]

theorem clashingSource_distinct : (obj clashingSource).Distinct := by
  simp only [clashingSource, Distinct, DistinctMembers]
  decide

theorem clashing_objects_merge :
    (obj (merge clashingTarget clashingSource)).at? ["a", "y", "z"] = none ∧
    (obj (merge clashingTarget clashingSource)).at? ["b"] = some (.obj [("x", .int 4)]) ∧
    (obj (merge clashingTarget clashingSource)).at? ["a", "x"] = some (.int 1) := by
  have laws := merge_obeys_paths clashingTarget clashingSource clashingSource_distinct
  have stopped : Stops clashingSource ["a", "y", "z"] :=
    ⟨["a", "y"], .null, by simp, ⟨["z"], rfl⟩, by decide, rfl⟩
  have inside : Entries.get? clashingSource "a" = some (.obj [("y", .null), ("w", .obj [])]) := by
    decide
  have free : ¬ Stops clashingSource ["a", "x"] :=
    mt (stops_object_iff inside ["x"]).mp (stops_missing (by decide) [])
  refine ⟨((laws _).1 stopped).trans (by decide),
    ((laws _).2.1 [("x", .int 4)] (by decide)).trans (by decide),
    ((laws _).2.2.1 free (by decide)).trans (by decide)⟩

end Sample

end HoconRender.Json
