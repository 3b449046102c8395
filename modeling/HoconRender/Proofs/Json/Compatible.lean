import HoconRender.Proofs.Json.Paths
import HoconRender.Proofs.Json.Regrouping

/-
Objects that do not contradict each other. Laid over a third one they may change places: whatever a
path leads to comes out the same, and only the keys that are new stand in another order.
-/
namespace HoconRender.Json

/-- Under every key that both objects have, both values are compatible objects, or they are one
value that is no object. -/
inductive Compatible : Json → Json → Prop where
  | plain {value : Json} (plain : value.isObject = false) : Compatible value value
  | objects {first second : Members}
      (shared : ∀ key x y, Entries.get? first key = some x → Entries.get? second key = some y →
        Compatible x y) : Compatible (.obj first) (.obj second)

/-- Equality of mappings at every level, in whatever order their keys stand. -/
inductive SameMapping : Json → Json → Prop where
  | plain {value : Json} (plain : value.isObject = false) : SameMapping value value
  | objects {first second : Members}
      (keys : ∀ key, key ∈ Entries.keys first ↔ key ∈ Entries.keys second)
      (values : ∀ key x y, Entries.get? first key = some x → Entries.get? second key = some y →
        SameMapping x y) : SameMapping (.obj first) (.obj second)

def SamePaths (first second : Json) : Prop :=
  ∀ path, (first.at? path).map outline = (second.at? path).map outline

section Paths

variable {first second : Members}

theorem at?_single (members : Members) (key : Text) :
    (obj members).at? [key] = Entries.get? members key :=
  Option.bind_fun_some _

theorem SamePaths.outlines (same : SamePaths (.obj first) (.obj second)) :
    SameOutlines first second := by
  intro key
  simpa only [at?_single] using same [key]

theorem SamePaths.held (same : SamePaths (.obj first) (.obj second)) (key : Text) :
    SamePaths (.obj (held (Entries.get? first key))) (.obj (held (Entries.get? second key))) := by
  intro path
  cases path with
  | nil => rfl
  | cons next path =>
    rw [at?_held _ (List.cons_ne_nil next path), at?_held _ (List.cons_ne_nil next path)]
    exact same (key :: next :: path)

theorem SamePaths.get? (same : SamePaths (.obj first) (.obj second)) {key : Text} {x y : Json}
    (here : Entries.get? first key = some x) (there : Entries.get? second key = some y) :
    SamePaths x y := by
  intro path
  rw [← at?_found here, ← at?_found there]
  exact same (key :: path)

theorem SamePaths.sameFields (same : SamePaths (.obj first) (.obj second)) (key : Text) :
    SameFields (Entries.get? first key) (Entries.get? second key) :=
  ⟨same.outlines key, (same.held key).outlines⟩

theorem outline_plain {value : Json} (plain : value.isObject = false) : value.outline = value := by
  cases value with
  | obj members => cases plain
  | _ => rfl

theorem eq_of_outline {value other : Json} (plain : value.isObject = false)
    (same : value.outline = other.outline) : other = value := by
  have kinds : other.isObject = false := by
    rw [← isObject_outline, ← same, isObject_outline, plain]
  rw [← outline_plain plain, same, outline_plain kinds]

theorem object_of_outline {members : Members} {other : Json}
    (same : (Json.obj members).outline = other.outline) : ∃ others, other = .obj others := by
  rw [← isObject_iff, ← isObject_outline, ← same]
  rfl

theorem sameMapping_of_paths {first second : Json} (same : SamePaths first second) :
    SameMapping first second := by
  rcases plain_or_object first with plain | ⟨members, rfl⟩
  · rw [eq_of_outline plain (Option.some.inj (same []))]
    exact .plain plain
  induction members using members_induction generalizing second with
  | step members ih =>
    obtain ⟨others, rfl⟩ := object_of_outline (Option.some.inj (same []))
    refine .objects same.outlines.mem_keys_iff fun key x y here there => ?_
    have inside := same.get? here there
    rcases plain_or_object x with inner | ⟨deeper, rfl⟩
    · rw [eq_of_outline inner (Option.some.inj (inside []))]
      exact .plain inner
    · exact ih key deeper here inside

end Paths

theorem SameFields.over_one {first second : Option Json} (same : SameFields first second)
    (distinctFirst : (Entries.keys (held first)).Nodup)
    (distinctSecond : (Entries.keys (held second)).Nodup) (below : Option Json) :
    SameFields (Config.layered below first) (Config.layered below second) := by
  rcases found_cases first with rfl | ⟨value, rfl, plain⟩ | ⟨source, rfl⟩
  · have nothing : second = none := by simpa using same.whole.symm
    rw [nothing]
    exact SameFields.refl _
  · obtain ⟨other, rfl, outlines⟩ := Option.map_eq_some_iff.mp same.whole.symm
    rw [eq_of_outline plain outlines.symm]
    exact SameFields.refl _
  · obtain ⟨other, rfl, outlines⟩ := Option.map_eq_some_iff.mp same.whole.symm
    obtain ⟨another, rfl⟩ := object_of_outline outlines.symm
    have keysFirst : (Entries.keys source).Nodup := distinctFirst
    have keysSecond : (Entries.keys another).Nodup := distinctSecond
    refine ⟨rfl, fun key => ?_⟩
    rw [get?_held_layered keysFirst, get?_held_layered keysSecond, outline_layered,
      outline_layered, Option.map_or, Option.map_or]
    exact congrArg (Option.or · _) (same.member key)

theorem SamePaths.merge {source : Members} (distinct : (obj source).Distinct)
    {first second : Members} (same : SamePaths (.obj first) (.obj second)) :
    SamePaths (.obj (merge first source)) (.obj (merge second source)) := by
  intro path
  induction path generalizing first second source with
  | nil => rfl
  | cons key path ih =>
    rw [at?_merge (distinct_keys distinct), at?_merge (distinct_keys distinct)]
    rcases found_cases (Entries.get? source key) with given | ⟨value, given, plain⟩ | ⟨inner, given⟩
    · rw [given]
      exact same (key :: path)
    · rw [given, layered_plain plain, layered_plain plain]
    · rw [given]
      exact ih (distinct_get? distinct given) (same.held key)

theorem samePaths_exchanged {first second : Members} (distinctFirst : (obj first).Distinct)
    (distinctSecond : (obj second).Distinct) (compatible : Compatible (.obj first) (.obj second))
    (target : Members) :
    SamePaths (.obj (merge (merge target first) second))
      (.obj (merge (merge target second) first)) := by
  intro path
  induction path generalizing target first second with
  | nil => rfl
  | cons key path ih =>
    cases compatible with
    | plain plain => cases plain
    | objects shared =>
      have keysFirst := distinct_keys distinctFirst
      have keysSecond := distinct_keys distinctSecond
      rw [at?_merge keysSecond, at?_merge keysFirst, get?_merge keysFirst, get?_merge keysSecond]
      cases here : Entries.get? first key with
      | none => rfl
      | some x =>
        cases there : Entries.get? second key with
        | none => rfl
        | some y =>
          cases shared key x y here there with
          | plain plain => rfl
          | objects deeper =>
            exact ih (distinct_get? distinctFirst here) (distinct_get? distinctSecond there)
              (.objects deeper) _

end HoconRender.Json
