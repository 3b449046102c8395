import HoconRender.Proofs.Loading.Precedence

/-
The two spellings of the JSON switch. Layers are laid over one another key by key, so both spellings
survive when different layers use different ones, and the first spelling is read in whatever layer
it stands. The highest layer that names the switch is overtaken when it uses the second spelling and
a layer below it uses the first.
-/
namespace HoconRender

def firstSpelling : Text := "json"

def switchIn? (members : Members) : Option Json :=
  (Entries.get? members firstSpelling).or (Entries.get? members secondSpelling)

/-- The value in the highest layer that names the switch under either spelling. -/
def highestSwitch? (layers : List Members) : Option Json := layers.findSome? switchIn?

def switchBySpelling? (layers : List Members) : Option Json :=
  (layers.findSome? fun members => Entries.get? members firstSpelling).or
    (layers.findSome? fun members => Entries.get? members secondSpelling)

/-- The highest layer that names the switch has the second spelling only, with the value that is
lost, and below it the first spelling is found with the value that is taken. -/
inductive Overtaken : (layers : List Members) → (lost won : Json) → Prop where
  | here {members : Members} {below : List Members} {lost won : Json}
      (missing : Entries.get? members firstSpelling = none)
      (second : Entries.get? members secondSpelling = some lost)
      (first : below.findSome? (fun members => Entries.get? members firstSpelling) = some won) :
      Overtaken (members :: below) lost won
  | under {members : Members} {below : List Members} {lost won : Json}
      (unnamed : switchIn? members = none) (later : Overtaken below lost won) :
      Overtaken (members :: below) lost won

theorem switchIn?_eq_none_iff (members : Members) :
    switchIn? members = none ↔
      Entries.get? members firstSpelling = none ∧ Entries.get? members secondSpelling = none := by
  unfold switchIn?
  exact Option.or_eq_none_iff

theorem highestSwitch?_unnamed {members : Members} (unnamed : switchIn? members = none)
    (below : List Members) : highestSwitch? (members :: below) = highestSwitch? below := by
  simp [highestSwitch?, unnamed]

theorem switchBySpelling?_unnamed {members : Members} (unnamed : switchIn? members = none)
    (below : List Members) : switchBySpelling? (members :: below) = switchBySpelling? below := by
  obtain ⟨first, second⟩ := (switchIn?_eq_none_iff members).mp unnamed
  simp [switchBySpelling?, first, second]

theorem overtaken_values {layers : List Members} {lost won : Json}
    (overtaken : Overtaken layers lost won) :
    highestSwitch? layers = some lost ∧ switchBySpelling? layers = some won := by
  induction overtaken with
  | @here members _ lost _ missing second first =>
    have named : switchIn? members = some lost := by simp [switchIn?, missing, second]
    constructor
    · simp [highestSwitch?, named]
    · simp [switchBySpelling?, missing, first]
  | @under _ below _ _ unnamed _ ih =>
    rw [highestSwitch?_unnamed unnamed, switchBySpelling?_unnamed unnamed]
    exact ih

theorem switchBySpelling?_eq_or_overtaken (layers : List Members) :
    switchBySpelling? layers = highestSwitch? layers ∨ ∃ lost won, Overtaken layers lost won := by
  induction layers with
  | nil => exact Or.inl rfl
  | cons members below ih =>
    cases named : switchIn? members with
    | none =>
      rw [highestSwitch?_unnamed named, switchBySpelling?_unnamed named]
      rcases ih with same | ⟨lost, won, overtaken⟩
      · exact Or.inl same
      · exact Or.inr ⟨lost, won, Overtaken.under named overtaken⟩
    | some value =>
      have highest : highestSwitch? (members :: below) = some value := by
        simp [highestSwitch?, named]
      rw [highest]
      unfold switchIn? at named
      cases first : Entries.get? members firstSpelling with
      | some own =>
        rw [first, Option.some_or] at named
        left
        simp [switchBySpelling?, first, named]
      | none =>
        rw [first, Option.none_or] at named
        cases lower : below.findSome? fun members => Entries.get? members firstSpelling with
        | some won => exact Or.inr ⟨value, won, Overtaken.here first named lower⟩
        | none =>
          left
          simp [switchBySpelling?, first, lower, named]

def jsonOver (preset : Preset) (value : Option Json) : Option Bool :=
  match RenderSettings.taken none RenderSettings.switchOf value with
  | .ok choice => some (choice.getD (preset.options.get .json))
  | .error _ => none

namespace Layers

def sections (layers : Layers) : List Members :=
  (layers.given "render").filterMap (·.map Json.members) ++ [Json.held layers.render]

variable {world : World} {request : Request} {layers : Layers}

theorem stack_eq_sections
    (objects : ∀ value, some value ∈ layers.given "render" → value.isObject = true) :
    layers.stack = layers.sections := by
  unfold stack sections
  congr 1
  generalize layers.given "render" = values at objects
  induction values with
  | nil => rfl
  | cons value below ih =>
    have lower := ih fun value member => objects value (List.mem_cons_of_mem _ member)
    cases value with
    | none => simpa [Json.inSight] using lower
    | some value =>
      obtain ⟨members, rfl⟩ := (Json.isObject_iff value).mp (objects value (by simp))
      simpa [Json.inSight, Json.members] using lower

theorem value?_json (layers : Layers) :
    Field.value? (.switch .json) layers.value? = switchBySpelling? layers.stack := by
  unfold Field.value? switchBySpelling? value?
  change List.findSome? _ [firstSpelling, secondSpelling] = _
  rw [List.findSome?_cons, List.findSome?_singleton]
  cases layers.stack.findSome? fun members => Entries.get? members firstSpelling with
  | none => rfl
  | some value => rfl

/-- The JSON switch of a load is read from the first spelling in the highest layer that has it, or
else from the second. So it is the highest naming layer's exactly when no layer overtakes that one
with a value that comes to something else. -/
theorem json_switch_found_by_spelling (read : layers.Of world request)
    (exactly : layers.SpellExactly "render") {config : Config}
    (loaded : (load world request).result = .ok config) :
    jsonOver config.render.preset (switchBySpelling? layers.stack) =
      some (config.toOptions.get .json) ∧
    (jsonOver config.render.preset (highestSwitch? layers.stack) =
        some (config.toOptions.get .json) ↔
      ∀ lost won, Overtaken layers.stack lost won →
        jsonOver config.render.preset (some lost) = jsonOver config.render.preset (some won)) ∧
    ((∀ value, some value ∈ layers.given "render" → value.isObject = true) →
      layers.stack = layers.sections) := by
  have built := (load_ok_iff_values read config).mp loaded
  have settles := ((renderOf_ok_iff_stack read exactly config.render).mp
    ((Config.ofValues_ok_iff ..).mp built).1).2
  have switch := settles.switch .json
  rw [value?_json] at switch
  have found : jsonOver config.render.preset (switchBySpelling? layers.stack) =
      some (config.toOptions.get .json) := by
    unfold jsonOver
    rw [switch]
    exact congrArg some (RenderSettings.toOptions_get config.render .json).symm
  refine ⟨found, ?_, stack_eq_sections⟩
  constructor
  · intro highest lost won overtaken
    obtain ⟨named, spelled⟩ := overtaken_values overtaken
    rw [← named, ← spelled, highest, found]
  · intro harmless
    rcases switchBySpelling?_eq_or_overtaken layers.stack with same | ⟨lost, won, overtaken⟩
    · rw [← same]
      exact found
    · obtain ⟨named, spelled⟩ := overtaken_values overtaken
      rw [named, harmless lost won overtaken, ← spelled]
      exact found

def mixedWorld : World := .withFiles
  [(["home", ".hoconkit", "config.json"], "\x7b\"render\":\x7b\"json\":true\x7d\x7d")] []

def mixedRequest : Request :=
  ⟨none, none, [(Text.ofString "render", .obj [(Text.ofString "json_syntax", .bool false)])]⟩

def mixedLayers : Layers :=
  ⟨mixedRequest.overrides, [],
    [(Text.ofString "render", .obj [(Text.ofString "json", .bool true)])], none, none⟩

theorem mixedLayers_of : mixedLayers.Of mixedWorld mixedRequest where
  overrides := rfl
  distinct := by
    simp [mixedRequest, Json.Distinct, Json.DistinctMembers, Entries.keys]
  chosen := (readChosenFile_ok_iff ..).mp (by decide +kernel)
  user := (readUserFile_ok_iff ..).mp (by decide +kernel)
  render := by decide +kernel
  debug := by decide +kernel

theorem override_overtaken :
    highestSwitch? mixedLayers.sections = some (.bool false) ∧
      ∃ config, (load mixedWorld mixedRequest).result = .ok config ∧
        config.toOptions.get .json = true ∧
        jsonOver config.render.preset (switchBySpelling? mixedLayers.stack) = some true := by
  let config : Config := ⟨⟨.defaults, ⟨none, none, none, some true, none⟩, none⟩, false⟩
  have loaded : (load mixedWorld mixedRequest).result = .ok config := by decide +kernel
  have decided := json_switch_found_by_spelling mixedLayers_of
    (by unfold SpellExactly; decide +kernel) loaded
  exact ⟨by decide +kernel, config, loaded, rfl, decided.1⟩

end Layers
end HoconRender
