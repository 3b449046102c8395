import HoconRender.Proofs.Json.Overlay
import HoconRender.Proofs.Outcome

/-
Settings field by field. Reading succeeds exactly when every field takes the value that is found
for it, and then each field holds what it took. No field looks into an object, so a value's outline
is all that counts. Options take a set switch over the preset's, and likewise the comment prefix.
-/
namespace HoconRender

def Field.value? (field : Field) (lookup : Text → Option Json) : Option Json :=
  field.keys.findSome? lookup

theorem Field.value?_of_first {field : Field} {lookup : Text → Option Json} {key : Text}
    {value : Json} (first : field.keys.head? = some key) (found : lookup key = some value) :
    field.value? lookup = some value := by
  unfold Field.value?
  cases keys : field.keys with
  | nil => simp [keys] at first
  | cons head rest =>
    have same : head = key := by simpa [keys] using first
    rw [same, List.findSome?_cons, found]

theorem Field.find?_value (field : Field) (members : Members) :
    (field.find? members).map Prod.snd = field.value? (Entries.get? members) := by
  unfold Field.find? Field.value?
  rw [List.map_findSome?]
  congr 1
  funext key
  simp [Function.comp_def]

namespace RenderSettings

/-- What a field takes from the value that is found for it, if there is one. -/
def taken {α : Type} (default : α) (check : Json → Except Complaint α) :
    Option Json → Except Complaint α
  | none => .ok default
  | some value => check value

/-- Settings whose every field holds what it takes from its value. -/
structure Settles (value? : Field → Option Json) (settings : RenderSettings) : Prop where
  preset : taken .defaults presetOf (value? .preset) = .ok settings.preset
  switch : ∀ flag, taken none switchOf (value? (.switch flag)) = .ok (settings.switches.get flag)
  commentPrefix : taken none commentPrefixOf (value? .commentPrefix) = .ok settings.commentPrefix

theorem settles_unique {value? : Field → Option Json} {first second : RenderSettings}
    (left : Settles value? first) (right : Settles value? second) : first = second := by
  have preset : first.preset = second.preset := by
    have same := left.preset.symm.trans right.preset
    injection same
  have switches : first.switches = second.switches := by
    apply Flags.ext_get
    intro flag
    have same := (left.switch flag).symm.trans (right.switch flag)
    injection same
  have commentPrefix : first.commentPrefix = second.commentPrefix := by
    have same := left.commentPrefix.symm.trans right.commentPrefix
    injection same
  cases first; cases second
  simp_all

theorem settles_unset_iff (settings : RenderSettings) :
    Settles (fun _ => none) settings ↔ settings = .unset := by
  have unset : Settles (fun _ => none) .unset := ⟨rfl, fun flag => by cases flag <;> rfl, rfl⟩
  constructor
  · intro settles
    exact settles_unique settles unset
  · intro same
    subst settings
    exact unset

theorem readField_ok_iff {α : Type} (members : Members) (field : Field) (default : α)
    (check : Json → Except Complaint α) (a : α) :
    readField members field default check = .ok a ↔
      taken default check (field.value? (Entries.get? members)) = .ok a := by
  rw [← Field.find?_value]
  unfold readField
  cases field.find? members with
  | none => simp [taken]
  | some found => exact Outcome.mapError_ok_iff

theorem faultsOf_nil_iff {α : Type} (read : Except FieldFault α) :
    faultsOf read = [] ↔ ∃ a, read = .ok a := by
  cases read with
  | ok a => simp [faultsOf]
  | error fault => simp [faultsOf]

theorem ofMembers_ok_iff (members : Members) (settings : RenderSettings) :
    ofMembers members = .ok settings ↔
      Settles (fun field => field.value? (Entries.get? members)) settings := by
  have preset := readField_ok_iff members .preset .defaults presetOf
  have switch (flag : Flag) := readField_ok_iff members (.switch flag) none switchOf
  have commentPrefix := readField_ok_iff members .commentPrefix none commentPrefixOf
  unfold ofMembers
  dsimp only
  constructor
  · intro read
    split at read
    · rename_i p c readPreset readPrefix
      split at read
      · rename_i noFaults
        cases read
        refine ⟨(preset p).mp readPreset, ?_, (commentPrefix c).mp readPrefix⟩
        intro flag
        have none := List.isEmpty_iff.mp noFaults
        simp only [List.append_eq_nil_iff, List.flatMap_eq_nil_iff] at none
        obtain ⟨value, readSwitch⟩ := (faultsOf_nil_iff _).mp (none.1.2 flag (Flag.mem_all flag))
        rw [Flags.get_ofFn, readSwitch]
        exact (switch flag value).mp readSwitch
      · cases read
    · cases read
  · intro settles
    have readPreset := (preset _).mpr settles.preset
    have readSwitch (flag : Flag) := (switch flag _).mpr (settles.switch flag)
    have readPrefix := (commentPrefix _).mpr settles.commentPrefix
    have noFaults : (Flag.all.flatMap fun flag =>
        faultsOf (readField members (.switch flag) none switchOf)) = [] := by
      rw [List.flatMap_eq_nil_iff]
      intro flag _
      rw [readSwitch flag]
      rfl
    have switches : settings.switches = .ofFn fun flag =>
        (readField members (.switch flag) none switchOf).toOption.join := by
      apply Flags.ext_get
      intro flag
      rw [Flags.get_ofFn, readSwitch flag]
      rfl
    rw [readPreset, readPrefix, noFaults, ← switches]
    rfl

theorem presetOf_outline (value : Json) : presetOf value.outline = presetOf value := by
  cases value <;> rfl

theorem boolOf_outline (value : Json) : boolOf value.outline = boolOf value := by
  cases value <;> rfl

theorem switchOf_outline (value : Json) : switchOf value.outline = switchOf value := by
  cases value <;> rfl

theorem commentPrefixOf_outline (value : Json) :
    commentPrefixOf value.outline = commentPrefixOf value := by
  cases value <;> rfl

theorem taken_same {α : Type} {check : Json → Except Complaint α} {first second : Option Json}
    (outlined : ∀ value, check value.outline = check value)
    (same : first.map Json.outline = second.map Json.outline) (default : α) :
    taken default check first = taken default check second := by
  have known (found : Option Json) :
      taken default check (found.map Json.outline) = taken default check found := by
    cases found with
    | none => rfl
    | some value => exact outlined value
  rw [← known first, ← known second, same]

theorem settles_same {first second : Field → Option Json} {settings : RenderSettings}
    (same : ∀ field, (first field).map Json.outline = (second field).map Json.outline) :
    Settles first settings ↔ Settles second settings := by
  have preset := taken_same presetOf_outline (same .preset) Preset.defaults
  have switch (flag : Flag) := taken_same switchOf_outline (same (.switch flag)) none
  have commentPrefix := taken_same commentPrefixOf_outline (same .commentPrefix) none
  constructor
  · intro settles
    exact ⟨preset ▸ settles.preset, fun flag => switch flag ▸ settles.switch flag,
      commentPrefix ▸ settles.commentPrefix⟩
  · intro settles
    exact ⟨preset ▸ settles.preset, fun flag => switch flag ▸ settles.switch flag,
      commentPrefix ▸ settles.commentPrefix⟩

def setAmong (settings : RenderSettings) (flags : List Flag) : List (Flag × Bool) :=
  flags.filterMap fun flag => (settings.switches.get flag).map fun value => (flag, value)

theorem setAmong_unset {settings : RenderSettings} {flag : Flag}
    (unset : settings.switches.get flag = none) (rest : List Flag) :
    settings.setAmong (flag :: rest) = settings.setAmong rest := by
  simp [setAmong, unset]

theorem setAmong_set {settings : RenderSettings} {flag : Flag} {value : Bool}
    (set : settings.switches.get flag = some value) (rest : List Flag) :
    settings.setAmong (flag :: rest) = (flag, value) :: settings.setAmong rest := by
  simp [setAmong, set]

theorem get_foldl_set (settings : RenderSettings) {flags : List Flag} (once : flags.Nodup)
    (options : RenderOptions) (flag : Flag) :
    ((settings.setAmong flags).foldl (fun options (flag, value) => options.set flag value)
      options).get flag =
      if flag ∈ flags then (settings.switches.get flag).getD (options.get flag)
      else options.get flag := by
  induction flags generalizing options with
  | nil => rfl
  | cons first rest ih =>
    obtain ⟨apart, later⟩ := List.nodup_cons.mp once
    cases value : settings.switches.get first with
    | none =>
      rw [setAmong_unset value, ih later]
      by_cases same : flag = first
      · subst flag
        simp [apart, value]
      · simp [same]
    | some b =>
      rw [setAmong_set value, List.foldl_cons, ih later]
      by_cases same : flag = first
      · subst flag
        simp [apart, value, RenderOptions.get_set]
      · simp [same, RenderOptions.get_set]

theorem commentPrefix_foldl_set (changes : List (Flag × Bool)) (options : RenderOptions) :
    (changes.foldl (fun options (flag, value) => options.set flag value)
      options).commentPrefix = options.commentPrefix := by
  induction changes generalizing options with
  | nil => rfl
  | cons change rest ih => exact ih (options.set change.1 change.2)

theorem toOptions_get (settings : RenderSettings) (flag : Flag) :
    settings.toOptions.get flag =
      (settings.switches.get flag).getD (settings.preset.options.get flag) := by
  have folded := get_foldl_set settings (by decide : Flag.all.Nodup) settings.preset.options flag
  rw [if_pos (Flag.mem_all flag)] at folded
  rw [← folded]
  unfold toOptions
  cases settings.commentPrefix with
  | none => rfl
  | some t => rfl

theorem toOptions_commentPrefix (settings : RenderSettings) :
    settings.toOptions.commentPrefix =
      settings.commentPrefix.getD settings.preset.options.commentPrefix := by
  unfold toOptions
  cases settings.commentPrefix with
  | none => exact commentPrefix_foldl_set settings.overrides settings.preset.options
  | some t => rfl

end RenderSettings

namespace Config

theorem renderOf_ok_iff (value : Option Json) (settings : RenderSettings) :
    renderOf value = .ok settings ↔
      (∀ found, value = some found → found.isObject = true) ∧
      RenderSettings.Settles (fun field => field.value? (Entries.get? (Json.held value)))
        settings := by
  cases value with
  | none =>
    have nothing : (fun field : Field => field.value? (Entries.get? (Json.held none))) =
        fun _ => none := by
      funext field
      simp [Field.value?, Json.held, Entries.get?]
    rw [nothing, RenderSettings.settles_unset_iff]
    constructor
    · intro read
      cases read
      simp
    · rintro ⟨_, rfl⟩
      rfl
  | some found =>
    cases found with
    | obj members =>
      have read : renderOf (some (.obj members)) = .ok settings ↔
          RenderSettings.ofMembers members = .ok settings := Outcome.mapError_ok_iff
      rw [read, RenderSettings.ofMembers_ok_iff]
      constructor
      · intro settles
        exact ⟨fun found same => by cases same; rfl, settles⟩
      · intro both
        exact both.2
    | _ => simp [renderOf, Json.isObject]

theorem debugOf_ok_iff (value : Option Json) (debug : Bool) :
    debugOf value = .ok debug ↔
      RenderSettings.taken false RenderSettings.boolOf value = .ok debug := by
  cases value with
  | none => simp [debugOf, RenderSettings.taken]
  | some found => exact Outcome.mapError_ok_iff

theorem ofValues_ok_iff (render debug : Option Json) (config : Config) :
    ofValues render debug = .ok config ↔
      renderOf render = .ok config.render ∧ debugOf debug = .ok config.debug := by
  obtain ⟨settings, debugging⟩ := config
  unfold ofValues
  cases renderOf render <;> cases debugOf debug <;> simp

theorem build_ok_iff (environment : Environment) (members : Members) (config : Config) :
    build environment members = .ok config ↔
      ∃ render, environment.render? = .ok render ∧
        ofValues (layered render (member? members "render"))
          (layered environment.debug? (member? members "debug")) = .ok config := by
  unfold build
  cases environment.render? with
  | error fault => cases fault <;> simp
  | ok render => simp [Outcome.mapError_ok_iff]

end Config
end HoconRender
