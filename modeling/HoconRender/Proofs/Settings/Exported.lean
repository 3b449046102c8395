import HoconRender.Proofs.Settings.Fields

/-
Settings written as members and read back. What has been read is acceptable, and acceptable
settings settle on their own members: a field that is set stands under its first key, and one that
is not set under none.
-/
namespace HoconRender

namespace RenderSettings

def Acceptable (settings : RenderSettings) : Prop :=
  ∀ t, settings.commentPrefix = some t → t.WellFormed ∧ t ≠ []

theorem commentPrefixOf_ok_some_iff (value : Json) (t : Text) :
    commentPrefixOf value = .ok (some t) ↔ value = .str t ∧ t.WellFormed ∧ t ≠ [] := by
  cases value with
  | str u =>
    by_cases characters : u.WellFormed
    · by_cases empty : u = []
      · subst u
        simp only [commentPrefixOf, characters, not_true_eq_false, ↓reduceIte, List.isEmpty_nil,
          Json.str.injEq]
        constructor
        · intro taken
          cases taken
        · rintro ⟨rfl, _, present⟩
          exact absurd rfl present
      · simp only [commentPrefixOf, characters, not_true_eq_false, ↓reduceIte,
          List.isEmpty_iff, empty, Except.ok.injEq, Option.some.injEq, Json.str.injEq]
        constructor
        · rintro rfl
          exact ⟨rfl, characters, empty⟩
        · exact fun both => both.1
    · simp only [commentPrefixOf, characters, not_false_eq_true, ↓reduceIte, Json.str.injEq]
      constructor
      · intro taken
        cases taken
      · rintro ⟨rfl, wellFormed, _⟩
        exact absurd wellFormed characters
  | _ => simp [commentPrefixOf]

theorem settles_acceptable {value? : Field → Option Json} {settings : RenderSettings}
    (settles : Settles value? settings) : settings.Acceptable := by
  intro t set
  have taken := settles.commentPrefix
  rw [set] at taken
  cases found : value? .commentPrefix with
  | none =>
    rw [found] at taken
    cases taken
  | some value =>
    rw [found] at taken
    exact ((commentPrefixOf_ok_some_iff value t).mp taken).2

theorem toOptions_acceptable {settings : RenderSettings} (acceptable : settings.Acceptable) :
    settings.toOptions.commentPrefix.WellFormed ∧ settings.toOptions.commentPrefix ≠ [] := by
  rw [toOptions_commentPrefix]
  cases set : settings.commentPrefix with
  | none => cases settings.preset <;> decide
  | some t => exact acceptable t set

/-- What a field is written as, if it is written. -/
def written? (settings : RenderSettings) : Field → Option Json
  | .preset => some (.str settings.preset.name)
  | .switch flag => (settings.switches.get flag).map .bool
  | .commentPrefix => settings.commentPrefix.map .str

def switchMembers (settings : RenderSettings) (flags : List Flag) : Members :=
  (settings.setAmong flags).map fun (flag, value) => (switchKey flag, .bool value)

theorem get?_switchMembers (settings : RenderSettings) (flags : List Flag) (key : Text) :
    Entries.get? (settings.switchMembers flags) key =
      flags.findSome? fun flag =>
        if flag.fieldName = key then (settings.switches.get flag).map .bool else none := by
  induction flags with
  | nil => rfl
  | cons first rest ih =>
    cases value : settings.switches.get first with
    | none =>
      have skipped : settings.switchMembers (first :: rest) = settings.switchMembers rest := by
        simp [switchMembers, setAmong_unset value]
      simp [skipped, ih, value]
    | some b =>
      have written : settings.switchMembers (first :: rest) =
          (first.fieldName, .bool b) :: settings.switchMembers rest := by
        simp [switchMembers, setAmong_set value, switchKey]
      rw [written, Entries.get?, ih]
      by_cases same : first.fieldName = key
      · simp [same, value]
      · simp [same]

theorem get?_toMembers (settings : RenderSettings) (key : Text) :
    Entries.get? settings.toMembers key =
      ((if Text.ofString "preset" = key then some (.str settings.preset.name) else none).or
        (Flag.all.findSome? fun flag =>
          if flag.fieldName = key then (settings.switches.get flag).map .bool else none)).or
        (if Text.ofString "comment_prefix" = key then settings.commentPrefix.map .str
          else none) := by
  have parts : settings.toMembers =
      ([(Text.ofString "preset", .str settings.preset.name)] ++ settings.switchMembers Flag.all) ++
        (settings.commentPrefix.map fun t => (Text.ofString "comment_prefix", .str t)).toList := rfl
  rw [parts, Entries.get?_append, Entries.get?_append, get?_switchMembers]
  cases settings.commentPrefix <;> simp [Entries.get?]

theorem value?_toMembers (settings : RenderSettings) (field : Field) :
    field.value? (Entries.get? settings.toMembers) = settings.written? field := by
  have lookup : Entries.get? settings.toMembers = _ := funext (get?_toMembers settings)
  rw [lookup]
  obtain ⟨preset, ⟨originComments, comments, formatted, json, showEnvVariableValues⟩,
    commentPrefix⟩ := settings
  cases field with
  | preset => rfl
  | switch flag =>
    cases flag with
    | originComments => cases originComments <;> rfl
    | comments => cases comments <;> rfl
    | formatted => cases formatted <;> rfl
    | json => cases json <;> rfl
    | showEnvVariableValues => cases showEnvVariableValues <;> rfl
  | commentPrefix => cases commentPrefix <;> rfl

theorem settles_written {settings : RenderSettings} (acceptable : settings.Acceptable) :
    Settles settings.written? settings := by
  refine ⟨?_, ?_, ?_⟩
  · change presetOf (.str settings.preset.name) = _
    cases settings.preset <;> decide
  · intro flag
    change taken none switchOf ((settings.switches.get flag).map .bool) = _
    cases settings.switches.get flag <;> rfl
  · change taken none commentPrefixOf (settings.commentPrefix.map .str) = _
    cases set : settings.commentPrefix with
    | none => rfl
    | some t => exact (commentPrefixOf_ok_some_iff (.str t) t).mpr ⟨rfl, acceptable t set⟩

theorem setAmong_sublist (settings : RenderSettings) (flags : List Flag) :
    ((settings.setAmong flags).map Prod.fst).Sublist flags := by
  induction flags with
  | nil => exact List.Sublist.slnil
  | cons first rest ih =>
    cases value : settings.switches.get first with
    | none =>
      rw [setAmong_unset value]
      exact ih.cons first
    | some b =>
      rw [setAmong_set value]
      exact ih.cons_cons first

theorem keys_toMembers_nodup (settings : RenderSettings) :
    (Entries.keys settings.toMembers).Nodup := by
  have switches : (Entries.keys (settings.switchMembers Flag.all)).Sublist
      (Flag.all.map Flag.fieldName) := by
    have kept := (settings.setAmong_sublist Flag.all).map Flag.fieldName
    simpa [Entries.keys, switchMembers, switchKey, Function.comp_def] using kept
  have last : (Entries.keys (settings.commentPrefix.map fun t =>
      (Text.ofString "comment_prefix", Json.str t)).toList).Sublist
        [Text.ofString "comment_prefix"] := by
    cases settings.commentPrefix with
    | none => exact List.nil_sublist _
    | some t => exact List.Sublist.refl _
  have every : (Text.ofString "preset" :: (Flag.all.map Flag.fieldName ++
      [Text.ofString "comment_prefix"])).Nodup := by decide
  apply List.Nodup.sublist _ every
  have parts : Entries.keys settings.toMembers = Text.ofString "preset" ::
      (Entries.keys (settings.switchMembers Flag.all) ++
        Entries.keys (settings.commentPrefix.map fun t =>
          (Text.ofString "comment_prefix", Json.str t)).toList) := by
    simp [toMembers, Entries.keys, switchMembers, overrides, setAmong]
  rw [parts]
  exact (switches.append last).cons_cons _

theorem toMembers_distinct (settings : RenderSettings) :
    Json.DistinctMembers settings.toMembers := by
  rw [Json.distinctMembers_iff]
  intro entry member
  rcases List.mem_cons.mp member with rfl | others
  · trivial
  · rcases List.mem_append.mp others with switch | last
    · obtain ⟨_, _, rfl⟩ := List.mem_map.mp switch
      trivial
    · obtain ⟨t, _, rfl⟩ := Option.map_eq_some_iff.mp (Option.mem_toList.mp last)
      trivial

end RenderSettings

theorem Config.build_acceptable {environment : Environment} {members : Members} {config : Config}
    (built : Config.build environment members = .ok config) : config.render.Acceptable := by
  obtain ⟨render, _, taken⟩ := (Config.build_ok_iff ..).mp built
  have settings := ((Config.ofValues_ok_iff ..).mp taken).1
  exact RenderSettings.settles_acceptable ((Config.renderOf_ok_iff ..).mp settings).2

end HoconRender
