import HoconRender.Proofs.Json.Regrouping

/-
Where keys stand in merged objects. A key keeps its place whatever is laid over it, and new keys go
behind in their order, so that laying an object over a merge it is in already changes nothing.
-/
namespace HoconRender.Json

section Keys

variable {source : Members}

theorem keys_merge_known {target : Members} (distinct : (Entries.keys source).Nodup)
    (known : ∀ key ∈ Entries.keys source, key ∈ Entries.keys target) :
    Entries.keys (merge target source) = Entries.keys target := by
  have nothing : (Entries.keys source).filter (fun key => key ∉ Entries.keys target) = [] := by
    apply List.filter_eq_nil_iff.mpr
    intro key member
    simpa using known key member
  rw [keys_merge distinct, nothing, List.append_nil]

theorem mem_keys_merged (distinct : (Entries.keys source).Nodup) (target : Members) {key : Text}
    (member : key ∈ Entries.keys source) : key ∈ Entries.keys (merge target source) := by
  rw [keys_merge distinct, List.mem_append, List.mem_filter, decide_eq_true_eq]
  by_cases present : key ∈ Entries.keys target
  · exact Or.inl present
  · exact Or.inr ⟨member, present⟩

theorem merge_absorbed (distinct : (obj source).Distinct) {target : Members}
    (below : (obj target).Distinct) :
    merge (merge target source) source = merge target source := by
  induction source using members_induction generalizing target with
  | step source ih =>
    have keysSource := distinct_keys distinct
    have keysMerged := nodup_keys_merge (distinct_keys below) source
    have known (key : Text) (member : key ∈ Entries.keys source) :=
      mem_keys_merged keysSource target member
    refine Entries.ext_get? (keys_merge_known keysSource known)
      (nodup_keys_merge keysMerged source) fun key => ?_
    rw [get?_merge keysSource, get?_merge keysSource]
    rcases found_cases (Entries.get? source key) with given | ⟨value, given, plain⟩ | ⟨inner, given⟩
    · rw [given]
      rfl
    · rw [given, layered_plain plain, layered_plain plain]
    · have again := ih key inner given (distinct_get? distinct given) (distinct_held below key)
      rw [given]
      exact congrArg (fun members => some (obj members)) again

theorem merge_self (distinct : (obj source).Distinct) : merge source source = source := by
  have absorbed := merge_absorbed distinct distinct_empty
  rwa [merge_empty distinct] at absorbed

end Keys

section Paths

theorem distinct_at? {value inner : Json} (distinct : value.Distinct) {path : List Text}
    (reached : value.at? path = some inner) : inner.Distinct := by
  induction path generalizing value with
  | nil =>
    cases reached
    exact distinct
  | cons key path ih =>
    obtain ⟨next, found, behind⟩ := Option.bind_eq_some_iff.mp reached
    exact ih (distinct_get? (distinct_members distinct) found) behind

/-- How the keys of a target come through a merge. The empty path leads to the whole objects. -/
structure KeepsOrder (target source : Members) : Prop where
  both : ∀ path lower upper, (obj target).at? path = some (.obj lower) →
    (obj source).at? path = some (.obj upper) →
    ∃ inner, (obj (merge target source)).at? path = some (.obj inner) ∧
      Entries.keys inner =
        Entries.keys lower ++ (Entries.keys upper).filter fun key => key ∉ Entries.keys lower
  fresh : ∀ path upper, (∀ lower, (obj target).at? path ≠ some (.obj lower)) →
    (obj source).at? path = some (.obj upper) →
    (obj (merge target source)).at? path = some (.obj upper)
  /-- An object that takes the place of another value, or a value that takes the place of an
  object, stands where that one stood. -/
  retyped : ∀ path lower upper, (obj target).at? path = some (.obj lower) →
    (obj source).at? path = some (.obj upper) →
    ∀ (place : Nat) key before after, lower[place]? = some (key, before) →
      Entries.get? upper key = some after → before.isObject ≠ after.isObject →
      ∃ inner, (obj (merge target source)).at? path = some (.obj inner) ∧
        inner[place]? = some (key, after)

theorem getElem?_of_keys {members : Members} (distinct : (Entries.keys members).Nodup)
    {place : Nat} {key : Text} {value : Json} (stands : (Entries.keys members)[place]? = some key)
    (holds : Entries.get? members key = some value) : members[place]? = some (key, value) := by
  unfold Entries.keys at stands
  rw [List.getElem?_map] at stands
  obtain ⟨⟨name, other⟩, there, same⟩ := Option.map_eq_some_iff.mp stands
  obtain rfl : name = key := same
  have found := Entries.get?_of_mem distinct (List.mem_of_getElem? there)
  rw [there, Option.some.inj (found.symm.trans holds)]

theorem overlay_retyped {before after : Json} (distinct : after.Distinct)
    (retyped : before.isObject ≠ after.isObject) : overlay (some before) after = after := by
  rcases plain_or_object after with plain | ⟨upper, rfl⟩
  · exact overlay_plain plain _
  · rcases plain_or_object before with plain | ⟨lower, rfl⟩
    · change obj (merge (held (some before)) upper) = obj upper
      rw [held_plain plain, merge_empty distinct]
    · exact absurd rfl retyped

theorem merge_keepsOrder {target source : Members} (below : (obj target).Distinct)
    (distinct : (obj source).Distinct) : KeepsOrder target source := by
  have through (path : List Text) (upper : Members)
      (reached : (obj source).at? path = some (.obj upper)) :
      (obj (merge target source)).at? path =
        some (.obj (merge (held ((obj target).at? path)) upper)) :=
    (follows_merge distinct target path).merged upper reached
  have both (path : List Text) (lower upper : Members)
      (under : (obj target).at? path = some (.obj lower))
      (reached : (obj source).at? path = some (.obj upper)) :
      (obj (merge target source)).at? path = some (.obj (merge lower upper)) := by
    rw [through path upper reached, under]
    rfl
  refine ⟨fun path lower upper under reached => ?_, fun path upper other reached => ?_, ?_⟩
  · have keys := distinct_keys (distinct_at? distinct reached)
    exact ⟨merge lower upper, both path lower upper under reached, keys_merge keys lower⟩
  · rw [through path upper reached, held_nothing other, merge_empty (distinct_at? distinct reached)]
  · intro path lower upper under reached place key before after stood given retyped
    have distinctUpper := distinct_at? distinct reached
    have keysUpper := distinct_keys distinctUpper
    have keysLower := distinct_keys (distinct_at? below under)
    have member : (key, before) ∈ lower := List.mem_of_getElem? stood
    refine ⟨merge lower upper, both path lower upper under reached,
      getElem?_of_keys (nodup_keys_merge keysLower upper) ?_ ?_⟩
    · have inside : (Entries.keys lower)[place]? = some key := by
        unfold Entries.keys
        rw [List.getElem?_map, stood]
        rfl
      obtain ⟨early, _⟩ := List.getElem?_eq_some_iff.mp inside
      rw [keys_merge keysUpper, List.getElem?_append_left early, inside]
    · rw [get?_merge keysUpper, Entries.get?_of_mem keysLower member, given]
      exact congrArg some (overlay_retyped (distinct_get? distinctUpper given) retyped)

end Paths

section Runs

variable {sources : List Members}

theorem distinct_merged {target source : Members} (below : (obj target).Distinct)
    (distinct : (obj source).Distinct) : (obj (merge target source)).Distinct := by
  simp only [Distinct] at distinct
  exact distinct_merge source below distinct.2

theorem scanl_merge_distinct (distinct : ∀ source ∈ sources, (obj source).Distinct)
    {start : Members} (below : (obj start).Distinct) :
    ∀ target ∈ sources.scanl merge start, (obj target).Distinct := by
  induction sources generalizing start with
  | nil =>
    intro target member
    obtain rfl := List.mem_singleton.mp member
    exact below
  | cons source rest ih =>
    intro target member
    have first := distinct source List.mem_cons_self
    rw [List.scanl_cons] at member
    rcases List.mem_cons.mp member with rfl | later
    · exact below
    · exact ih (fun other inside => distinct other (List.mem_cons_of_mem source inside))
        (distinct_merged below first) target later

/-- However many objects are merged into an empty one, every target on the way has each key once
at every level, and every merge keeps the keys of its target in their places. -/
theorem merges_keep_key_order (sources : List Members)
    (distinct : ∀ source ∈ sources, (obj source).Distinct) :
    (∀ target ∈ sources.scanl merge [], (obj target).Distinct) ∧
    ∀ n source, sources[n]? = some source → ∃ target,
      (sources.scanl merge [])[n]? = some target ∧
      (sources.scanl merge [])[n + 1]? = some (merge target source) ∧
      KeepsOrder target source := by
  have targets := scanl_merge_distinct distinct distinct_empty
  refine ⟨targets, fun n source given => ?_⟩
  obtain ⟨early, _⟩ := List.getElem?_eq_some_iff.mp given
  have inside : n < (sources.scanl merge []).length := by
    rw [List.length_scanl]
    omega
  have here := List.getElem?_eq_getElem inside
  have below := targets _ (List.mem_of_getElem? here)
  have upper := distinct source (List.mem_of_getElem? given)
  refine ⟨_, here, ?_, merge_keepsOrder below upper⟩
  rw [List.getElem?_succ_scanl, here, given]
  rfl

section Sample

def numberedMembers : Members :=
  [("a", .int 1), ("b", .obj [("x", .obj [("y", .int 2)]), ("z", .int 3)])]

def retypingMembers : Members :=
  [("c", .null), ("b", .obj [("w", .null), ("x", .bool true)]), ("a", .obj [("v", .int 4)])]

theorem sample_sources_distinct :
    ∀ source ∈ [numberedMembers, retypingMembers], (obj source).Distinct := by
  have numbered : (obj numberedMembers).Distinct := by
    simp only [numberedMembers, Distinct, DistinctMembers]
    decide
  have retyping : (obj retypingMembers).Distinct := by
    simp only [retypingMembers, Distinct, DistinctMembers]
    decide
  simp [numbered, retyping]

theorem retyped_keys_keep_places :
    (∀ target ∈ [numberedMembers, retypingMembers].scanl merge [], (obj target).Distinct) ∧
    Entries.keys (merge (merge [] numberedMembers) retypingMembers) =
      (["a", "b", "c"] : List Text) ∧
    ∃ inner, (obj (merge (merge [] numberedMembers) retypingMembers)).at? ["b"] =
        some (.obj inner) ∧ inner[0]? = some (Text.ofString "x", .bool true) := by
  obtain ⟨targets, steps⟩ := merges_keep_key_order _ sample_sources_distinct
  obtain ⟨target, here, _, keeps⟩ := steps 1 retypingMembers rfl
  obtain rfl : merge [] numberedMembers = target := Option.some.inj here
  refine ⟨targets, ?_, ?_⟩
  · obtain ⟨whole, same, keys⟩ := keeps.both [] _ _ rfl rfl
    cases same
    exact keys.trans (by decide)
  · exact keeps.retyped ["b"] [("x", .obj [("y", .int 2)]), ("z", .int 3)]
      [("w", .null), ("x", .bool true)] (by decide) (by decide) 0 "x"
      (.obj [("y", .int 2)]) (.bool true) rfl (by decide) (by decide)

end Sample

def collapsed : List Members → List Members
  | [] => []
  | source :: rest =>
    if source = [] ∨ (collapsed rest).head? = some source then collapsed rest
    else source :: collapsed rest

theorem foldl_merge_collapsed (distinct : ∀ source ∈ sources, (obj source).Distinct)
    {start : Members} (below : (obj start).Distinct) :
    (collapsed sources).foldl merge start = sources.foldl merge start := by
  induction sources generalizing start with
  | nil => rfl
  | cons source rest ih =>
    have first := distinct source List.mem_cons_self
    have later (other : Members) (inside : other ∈ rest) : (obj other).Distinct :=
      distinct other (List.mem_cons_of_mem source inside)
    have kept := ih later (distinct_merged below first)
    rw [collapsed]
    split
    · rename_i idle
      rcases idle with rfl | repeated
      · exact ih later below
      · obtain ⟨tail, same⟩ := List.head?_eq_some_iff.mp repeated
        rw [List.foldl_cons, ← kept, same, List.foldl_cons, List.foldl_cons,
          merge_absorbed first below]
    · exact kept

end Runs

end HoconRender.Json
