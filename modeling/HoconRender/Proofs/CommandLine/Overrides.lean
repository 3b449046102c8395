import HoconRender.CommandLine.Run
import HoconRender.Proofs.Loading.Precedence

/-
What a command line overrides. Each setting that its words give is one member under the key of the
setting, in the order of the settings, and no other member is there.
-/
namespace HoconRender.CommandLine.Arguments

/-- The value that the words give a setting, if they give one. A preset has a name. -/
def set? (arguments : Arguments) : Field → Option Json
  | .preset =>
    match arguments.preset with
    | some (.text (c :: rest)) => some (.str (c :: rest))
    | _ => none
  | .switch flag => (arguments.flags.get flag).map .bool
  | .commentPrefix => arguments.commentPrefix.map suppliedValue

theorem overrides_eq_keyed (arguments : Arguments) :
    arguments.overrides = Entries.keyed Field.key arguments.set? Field.all := by
  have preset : arguments.presetMember =
      Entries.keyed Field.key arguments.set? [.preset] := by
    obtain ⟨_, _, _, preset, _, _⟩ := arguments
    match preset with
    | none => rfl
    | some .nothing => rfl
    | some (.text []) => rfl
    | some (.text (_ :: _)) => rfl
  have switches : arguments.flagMembers =
      Entries.keyed Field.key arguments.set? (Flag.all.map .switch) := by
    unfold flagMembers Entries.keyed
    rw [List.filterMap_map]
    congr 1
    funext flag
    simp only [Function.comp_apply, set?, Option.map_map]
    rfl
  have commentPrefix : arguments.commentPrefixMember =
      Entries.keyed Field.key arguments.set? [.commentPrefix] := by
    obtain ⟨_, _, _, _, _, commentPrefix⟩ := arguments
    cases commentPrefix <;> rfl
  unfold overrides
  rw [preset, switches, commentPrefix]
  unfold Entries.keyed
  rw [← List.filterMap_append, ← List.filterMap_append]
  rfl

theorem field_mem_all (field : Field) : field ∈ Field.all := by
  cases field with
  | switch flag => cases flag <;> decide
  | _ => decide

theorem field_keys_nodup : (Field.all.map Field.key).Nodup := by decide

theorem get?_overrides (arguments : Arguments) (field : Field) :
    Entries.get? arguments.overrides field.key = arguments.set? field := by
  rw [overrides_eq_keyed]
  exact Entries.get?_keyed field_keys_nodup arguments.set? (field_mem_all field)

theorem keys_overrides_nodup (arguments : Arguments) :
    (Entries.keys arguments.overrides).Nodup := by
  rw [overrides_eq_keyed]
  exact field_keys_nodup.sublist (Entries.keys_keyed_sublist ..)

theorem set?_distinct {arguments : Arguments} {field : Field} {value : Json}
    (given : arguments.set? field = some value) : value.Distinct := by
  cases field with
  | preset =>
    dsimp only [set?] at given
    split at given
    · cases given
      simp [Json.Distinct]
    · cases given
  | switch flag =>
    obtain ⟨_, _, rfl⟩ := Option.map_eq_some_iff.mp given
    simp [Json.Distinct]
  | commentPrefix =>
    obtain ⟨supplied, _, rfl⟩ := Option.map_eq_some_iff.mp given
    cases supplied <;> simp [suppliedValue, Json.Distinct, Json.DistinctItems]

theorem overrides_distinct (arguments : Arguments) : (Json.obj arguments.overrides).Distinct := by
  refine ⟨keys_overrides_nodup arguments, (Json.distinctMembers_iff _).mpr ?_⟩
  intro entry member
  rw [overrides_eq_keyed] at member
  obtain ⟨field, _, given⟩ := List.mem_filterMap.mp member
  obtain ⟨value, set, rfl⟩ := Option.map_eq_some_iff.mp given
  exact set?_distinct set

theorem set?_flat {arguments : Arguments} {field : Field} {value : Json}
    (given : arguments.set? field = some value) : value.nesting = 0 := by
  cases field with
  | preset =>
    dsimp only [set?] at given
    split at given
    · cases given
      rfl
    · cases given
  | switch flag =>
    obtain ⟨_, _, rfl⟩ := Option.map_eq_some_iff.mp given
    rfl
  | commentPrefix =>
    obtain ⟨supplied, _, rfl⟩ := Option.map_eq_some_iff.mp given
    cases supplied <;> rfl

theorem nesting_overrides (arguments : Arguments) :
    (Json.obj arguments.overrides).nesting ≤ 1 := by
  refine Nat.succ_le_succ ((Json.nestingAmong_le_iff ..).mpr fun entry member => ?_)
  rw [overrides_eq_keyed] at member
  obtain ⟨field, _, given⟩ := List.mem_filterMap.mp member
  obtain ⟨value, set, rfl⟩ := Option.map_eq_some_iff.mp given
  exact Nat.le_of_eq (set?_flat set)

theorem request_overrides (arguments : Arguments) :
    arguments.request.overrides = [] ∧ arguments.overrides = [] ∨
      arguments.request.overrides = [(Text.ofString "render", .obj arguments.overrides)] := by
  unfold request
  dsimp only
  cases none : arguments.overrides.isEmpty with
  | true => exact Or.inl ⟨rfl, List.isEmpty_iff.mp none⟩
  | false => exact Or.inr rfl

theorem request_only_render (arguments : Arguments) :
    ∀ key ∈ Entries.keys arguments.request.overrides, key = Text.ofString "render" := by
  rcases request_overrides arguments with ⟨none, _⟩ | render
  · simp [none, Entries.keys]
  · simp [render, Entries.keys]

theorem nesting_request (arguments : Arguments) :
    (Json.obj arguments.request.overrides).nesting ≤ 2 := by
  refine Nat.succ_le_succ ((Json.nestingAmong_le_iff ..).mpr fun entry member => ?_)
  rcases request_overrides arguments with ⟨none, _⟩ | render
  · rw [none] at member
    cases member
  · rw [render] at member
    rw [List.mem_singleton.mp member]
    exact nesting_overrides arguments

theorem request_distinct (arguments : Arguments) :
    (Json.obj arguments.request.overrides).Distinct := by
  rcases request_overrides arguments with ⟨none, _⟩ | render
  · rw [none]
    exact Json.distinct_empty
  · rw [render]
    refine ⟨by simp [Entries.keys], (Json.distinctMembers_iff _).mpr ?_⟩
    intro entry member
    rw [List.mem_singleton.mp member]
    exact overrides_distinct arguments

end HoconRender.CommandLine.Arguments
