import HoconRender.Proofs.Json.Paths

/-
Three objects laid over one another. It does not matter which two are merged first, unless a value
of the middle one that is no object stands between two objects: it hides the lowest one only as
long as it is there when the highest one comes.
-/
namespace HoconRender.Json

@[elab_as_elim]
theorem members_induction {motive : Members → Prop}
    (step : ∀ members, (∀ key inner, Entries.get? members key = some (.obj inner) →
      motive inner) → motive members) (members : Members) : motive members :=
  step members fun _ inner _ => members_induction step inner
termination_by sizeOf members
decreasing_by
  rename_i found
  have smaller := List.sizeOf_lt_of_mem (Entries.mem_of_get? found)
  simp only [Prod.mk.sizeOf_spec, obj.sizeOf_spec] at smaller
  omega

section Held

theorem held_nothing {value : Option Json} (other : ∀ inner, value ≠ some (.obj inner)) :
    held value = [] := by
  cases value with
  | none => rfl
  | some found =>
    cases found with
    | obj members => exact absurd rfl (other members)
    | _ => rfl

theorem held_plain {value : Json} (plain : value.isObject = false) : held (some value) = [] := by
  apply held_nothing
  rintro members ⟨rfl⟩
  cases plain

theorem distinct_held {members : Members} (distinct : (obj members).Distinct) (key : Text) :
    (obj (held (Entries.get? members key))).Distinct := by
  cases found : Entries.get? members key with
  | none => exact distinct_empty
  | some value => exact distinct_members (distinct_get? distinct found)

theorem layered_plain {value : Json} (plain : value.isObject = false) (below : Option Json) :
    Config.layered below (some value) = some value :=
  congrArg some (overlay_plain plain below)

theorem layered_object (below : Option Json) (source : Members) :
    Config.layered below (some (.obj source)) = some (.obj (merge (held below) source)) := rfl

end Held

/-- Under some key, or under keys that lead to objects in all three, a value that is no object
stands between two objects. -/
inductive Blocks : Members → Members → Members → Prop where
  | here {below middle above lower upper : Members} {key : Text} {value : Json}
      (under : Entries.get? below key = some (.obj lower))
      (between : Entries.get? middle key = some value) (plain : value.isObject = false)
      (upmost : Entries.get? above key = some (.obj upper)) : Blocks below middle above
  | within {below middle above lower inner upper : Members} {key : Text}
      (under : Entries.get? below key = some (.obj lower))
      (between : Entries.get? middle key = some (.obj inner))
      (upmost : Entries.get? above key = some (.obj upper)) (deeper : Blocks lower inner upper) :
      Blocks below middle above

theorem not_blocks_empty (middle above : Members) : ¬ Blocks [] middle above := by
  intro blocks
  cases blocks with
  | here under => cases under
  | within under => cases under

theorem not_blocks_held {below middle above inner upper : Members} {key : Text}
    (free : ¬ Blocks below middle above) (between : Entries.get? middle key = some (.obj inner))
    (upmost : Entries.get? above key = some (.obj upper)) :
    ¬ Blocks (held (Entries.get? below key)) inner upper := by
  intro deeper
  by_cases object : ∃ lower, Entries.get? below key = some (.obj lower)
  · obtain ⟨lower, under⟩ := object
    rw [under] at deeper
    exact free (.within under between upmost deeper)
  · rw [held_nothing fun lower under => object ⟨lower, under⟩] at deeper
    exact not_blocks_empty inner upper deeper

theorem keys_regrouped {below middle above : Members}
    (distinctMiddle : (Entries.keys middle).Nodup) (distinctAbove : (Entries.keys above).Nodup) :
    Entries.keys (merge (merge below middle) above) =
      Entries.keys (merge below (merge middle above)) := by
  rw [keys_merge distinctAbove, keys_merge distinctMiddle,
    keys_merge (nodup_keys_merge distinctMiddle above), keys_merge distinctAbove,
    List.filter_append, List.filter_filter, List.append_assoc]
  congr 2
  apply List.filter_congr
  intro key _
  simp only [List.mem_append, List.mem_filter, decide_eq_true_eq, ← Bool.decide_and]
  congr 1
  grind

/-- Where nothing is blocked, three objects may be grouped either way. -/
theorem merge_regrouped {above : Members} (distinctAbove : (obj above).Distinct)
    {below middle : Members} (distinctBelow : (obj below).Distinct)
    (distinctMiddle : (obj middle).Distinct) (free : ¬ Blocks below middle above) :
    merge (merge below middle) above = merge below (merge middle above) := by
  induction above using members_induction generalizing below middle with
  | step above ih =>
    have keysBelow := distinct_keys distinctBelow
    have keysMiddle := distinct_keys distinctMiddle
    have keysAbove := distinct_keys distinctAbove
    refine Entries.ext_get? (keys_regrouped keysMiddle keysAbove)
      (nodup_keys_merge (nodup_keys_merge keysBelow middle) above) fun key => ?_
    rw [get?_merge keysAbove, get?_merge keysMiddle, get?_merge (nodup_keys_merge keysMiddle above),
      get?_merge keysAbove]
    rcases found_cases (Entries.get? above key) with
      upmost | ⟨value, upmost, plain⟩ | ⟨upper, upmost⟩
    · rw [upmost]
      rfl
    · rw [upmost, layered_plain plain, layered_plain plain, layered_plain plain]
    have distinctUpper := distinct_get? distinctAbove upmost
    rcases found_cases (Entries.get? middle key) with
      between | ⟨value, between, solid⟩ | ⟨inner, between⟩
    · rw [upmost, between, layered_object none, show held none = [] from rfl,
        merge_empty distinctUpper]
      rfl
    · have bottom : held (Entries.get? below key) = [] :=
        held_nothing fun lower under => free (.here under between solid upmost)
      rw [upmost, between, layered_plain solid, layered_object, held_plain solid,
        merge_empty distinctUpper, layered_object, bottom, merge_empty distinctUpper]
    · have deeper := ih key upper upmost distinctUpper (distinct_held distinctBelow key)
        (distinct_get? distinctMiddle between) (not_blocks_held free between upmost)
      rw [upmost, between]
      exact congrArg (fun members => some (obj members)) deeper

theorem blocked_not_regrouped : ∃ below middle above : Members, (obj below).Distinct ∧
    (obj middle).Distinct ∧ (obj above).Distinct ∧ Blocks below middle above ∧
    merge (merge below middle) above ≠ merge below (merge middle above) := by
  refine ⟨[("k", .obj [("x", .int 1)])], [("k", .null)], [("k", .obj [("y", .int 2)])], ?_, ?_, ?_,
    @Blocks.here _ _ _ [("x", .int 1)] [("y", .int 2)] "k" .null (by decide)
      (by decide) rfl (by decide), by decide⟩
  all_goals
    simp only [Distinct, DistinctMembers]
    decide

end HoconRender.Json
