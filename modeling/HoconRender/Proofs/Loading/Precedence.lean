import HoconRender.Proofs.Loading.Layers

/-
Precedence of the layers of a load. Every setting is decided by the highest layer in sight that has
its key, and null is a value like any other: it decides for the preset's value. What no layer has
is left to the preset, and what cannot be taken makes the load fail by invalid settings.
-/
namespace HoconRender

def Field.key : Field → Text
  | .preset => "preset"
  | .switch flag => flag.fieldName
  | .commentPrefix => "comment_prefix"

def secondSpelling : Text := "json_syntax"

theorem Field.value?_of_one_spelling {lookup : Text → Option Json}
    (single : lookup secondSpelling = none) (field : Field) :
    field.value? lookup = lookup field.key := by
  cases field with
  | preset => simp [Field.value?, Field.keys, Field.key]
  | commentPrefix => simp [Field.value?, Field.keys, Field.key]
  | switch flag =>
    cases flag with
    | json =>
      have none : lookup (Text.ofString "json_syntax") = .none := single
      cases first : lookup (Text.ofString "json") <;>
        simp [Field.value?, Field.keys, Field.key, Flag.fieldName, first, none]
    | _ => simp [Field.value?, Field.keys, Field.key]

namespace Layers

structure Describes (layers : Layers) (config : Config) : Prop where
  object : ∀ value, layers.highest? "render" layers.render = some value → value.isObject = true
  render : RenderSettings.Settles (fun field => layers.value? field.key) config.render
  debug : RenderSettings.taken false RenderSettings.boolOf
    (layers.highest? "debug" layers.debug) = .ok config.debug

def OneSpelling (layers : Layers) : Prop :=
  ∀ members ∈ layers.stack, secondSpelling ∉ Entries.keys members

variable {world : World} {request : Request} {layers : Layers}

theorem value?_second_spelling (single : layers.OneSpelling) :
    layers.value? secondSpelling = none := by
  unfold value?
  rw [List.findSome?_eq_none_iff]
  intro members member
  exact (Entries.get?_eq_none_iff members secondSpelling).mpr (single members member)

theorem load_ok_iff_describes (read : layers.Of world request)
    (render : layers.SpellExactly "render") (debug : layers.SpellExactly "debug")
    (single : layers.OneSpelling) (config : Config) :
    (load world request).result = .ok config ↔ layers.Describes config := by
  have keys : (fun field : Field => field.value? layers.value?) =
      fun field => layers.value? field.key := by
    funext field
    exact Field.value?_of_one_spelling (value?_second_spelling single) field
  rw [load_ok_iff_values read, Config.ofValues_ok_iff, renderOf_ok_iff_stack read render,
    debugOf_ok_iff_highest read debug, keys]
  constructor
  · rintro ⟨⟨object, settings⟩, debugging⟩
    exact ⟨object, settings, debugging⟩
  · intro describes
    exact ⟨⟨describes.object, describes.render⟩, describes.debug⟩

/-- A load yields the configuration that the highest layers in sight decide, and the options that
come of it; where they decide none, it fails by invalid settings. -/
theorem load_takes_highest_layers (read : layers.Of world request)
    (render : layers.SpellExactly "render") (debug : layers.SpellExactly "debug")
    (single : layers.OneSpelling) :
    (∀ config, (load world request).result = .ok config ↔ layers.Describes config) ∧
    ((∀ config, ¬ layers.Describes config) →
      ∃ faults, (load world request).result = .error (.configuration (.invalidSettings faults))) ∧
    (∀ config, (load world request).result = .ok config →
      (∀ flag, ∃ choice,
        RenderSettings.taken none RenderSettings.switchOf (layers.value? flag.fieldName) =
          .ok choice ∧
        config.toOptions.get flag = choice.getD (config.render.preset.options.get flag)) ∧
      ∃ choice,
        RenderSettings.taken none RenderSettings.commentPrefixOf
          (layers.value? "comment_prefix") = .ok choice ∧
        config.toOptions.commentPrefix =
          choice.getD config.render.preset.options.commentPrefix) := by
  have decided := load_ok_iff_describes read render debug single
  refine ⟨decided, ?_, ?_⟩
  · intro undecided
    apply load_refused read
    intro config loaded
    exact undecided config ((decided config).mp loaded)
  · intro config loaded
    have describes := (decided config).mp loaded
    refine ⟨?_, config.render.commentPrefix, describes.render.commentPrefix,
      RenderSettings.toOptions_commentPrefix config.render⟩
    intro flag
    exact ⟨config.render.switches.get flag, describes.render.switch flag,
      RenderSettings.toOptions_get config.render flag⟩

def fourLayerWorld : World := .withFiles
  [(["home", ".hoconkit", "config.json"],
      "\x7b\"render\":\x7b\"preset\":\"concise\",\"comments\":true,\"formatted\":true\x7d\x7d"),
    (["project", ".hoconkit.json"],
      "\x7b\"render\":\x7b\"comments\":null,\"comment_prefix\":\"//\"\x7d\x7d")]
  [("HOCONKIT_RENDER__COMMENT_PREFIX", ";"), ("HOCONKIT_RENDER__ORIGIN_COMMENTS", "yes"),
    ("HOCONKIT_DEBUG", "on")]

def fourLayerRequest : Request :=
  ⟨none, none, [(Text.ofString "render", .obj [(Text.ofString "json", .bool false)])]⟩

def fourLayers : Layers :=
  ⟨fourLayerRequest.overrides,
    [(Text.ofString "render", .obj [(Text.ofString "comments", .null),
      (Text.ofString "comment_prefix", .str (Text.ofString "//"))])],
    [(Text.ofString "render", .obj [(Text.ofString "preset", .str (Text.ofString "concise")),
      (Text.ofString "comments", .bool true), (Text.ofString "formatted", .bool true)])],
    some (.obj [(Text.ofString "comment_prefix", .str (Text.ofString ";")),
      (Text.ofString "origin_comments", .str (Text.ofString "yes"))]),
    some (.str (Text.ofString "on"))⟩

def fourLayerConfig : Config :=
  ⟨⟨.concise, ⟨some true, none, some true, some false, none⟩, some (Text.ofString "//")⟩, true⟩

theorem fourLayers_of : fourLayers.Of fourLayerWorld fourLayerRequest where
  overrides := rfl
  distinct := by
    simp [fourLayerRequest, Json.Distinct, Json.DistinctMembers, Entries.keys]
  chosen := (readChosenFile_ok_iff ..).mp (by decide +kernel)
  user := (readUserFile_ok_iff ..).mp (by decide +kernel)
  render := by decide +kernel
  debug := by decide +kernel

theorem four_layers_describe :
    (load fourLayerWorld fourLayerRequest).result = .ok fourLayerConfig ∧
      fourLayers.Describes fourLayerConfig := by
  have loaded : (load fourLayerWorld fourLayerRequest).result = .ok fourLayerConfig :=
    (load_ok_iff_values fourLayers_of fourLayerConfig).mpr (by decide)
  have decided := load_takes_highest_layers fourLayers_of
    (by unfold SpellExactly; decide) (by unfold SpellExactly; decide)
    (by unfold OneSpelling; decide)
  exact ⟨loaded, (decided.1 fourLayerConfig).mp loaded⟩

/-- The value under a key in the highest layer whose render settings are an object that has it,
whatever the layers above it hold. -/
def firstHolding? (layers : Layers) (key : Text) : Option Json :=
  (layers.given "render" ++ [layers.render]).findSome? fun value =>
    Entries.get? (Json.held value) key

def hidingWorld : World := .withFiles
  [(["home", ".hoconkit", "config.json"], "\x7b\"render\":\x7b\"comments\":false\x7d\x7d"),
    (["project", ".hoconkit.json"], "\x7b\"render\":5\x7d")] []

def hidingRequest : Request :=
  ⟨none, none, [(Text.ofString "render", .obj [(Text.ofString "formatted", .bool true)])]⟩

def hidingLayers : Layers :=
  ⟨hidingRequest.overrides, [(Text.ofString "render", .int 5)],
    [(Text.ofString "render", .obj [(Text.ofString "comments", .bool false)])], none, none⟩

theorem hidingLayers_of : hidingLayers.Of hidingWorld hidingRequest where
  overrides := rfl
  distinct := by
    simp [hidingRequest, Json.Distinct, Json.DistinctMembers, Entries.keys]
  chosen := (readChosenFile_ok_iff ..).mp (by decide +kernel)
  user := (readUserFile_ok_iff ..).mp (by decide +kernel)
  render := by decide +kernel
  debug := by decide +kernel

theorem hidden_layer_not_taken :
    hidingLayers.Of hidingWorld hidingRequest ∧ hidingLayers.SpellExactly "render" ∧
      hidingLayers.SpellExactly "debug" ∧ hidingLayers.OneSpelling ∧
      hidingLayers.firstHolding? "comments" = some (.bool false) ∧
      ∃ config, (load hidingWorld hidingRequest).result = .ok config ∧
        config.toOptions.get .comments = true := by
  have exactRender : hidingLayers.SpellExactly "render" := by unfold SpellExactly; decide
  have exactDebug : hidingLayers.SpellExactly "debug" := by unfold SpellExactly; decide
  have single : hidingLayers.OneSpelling := by unfold OneSpelling; decide
  refine ⟨hidingLayers_of, exactRender, exactDebug, single, by decide,
    ⟨⟨.defaults, ⟨none, none, some true, none, none⟩, none⟩, false⟩, ?_, by decide⟩
  exact (load_ok_iff_values hidingLayers_of _).mpr (by decide)

end Layers
end HoconRender
