import HoconRender.Proofs.Loading.Reading
import HoconRender.Proofs.Settings.Fields

/-
The layers of a load: overrides, the chosen file, the user file and the environment, from the
highest to the lowest. A load succeeds exactly with the configuration whose every setting is taken
from the value of the highest layer in sight that has a key for it.
-/
namespace HoconRender

structure Layers where
  overrides : Members
  chosen : Members
  user : Members
  render : Option Json
  debug : Option Json

namespace Layers

structure Of (world : World) (request : Request) (layers : Layers) : Prop where
  overrides : layers.overrides = request.overrides
  distinct : (Json.obj request.overrides).Distinct
  chosen : ChosenLayer world request layers.chosen
  user : UserLayer world layers.user
  render : world.environment.render? = .ok layers.render
  debug : world.environment.debug? = layers.debug

def objects (layers : Layers) : List Members := [layers.overrides, layers.chosen, layers.user]

def given (layers : Layers) (name : Text) : List (Option Json) :=
  layers.objects.map fun members => Entries.get? members name

def SpellExactly (layers : Layers) (name : Text) : Prop :=
  ∀ members ∈ layers.objects, ∀ key ∈ Entries.keys members, key.lower = name → key = name

/-- The value of the highest layer that has a name. -/
def highest? (layers : Layers) (name : Text) (environment : Option Json) : Option Json :=
  ((layers.given name).findSome? id).or environment

/-- The render settings in sight. A given value that is not an object hides the given ones below
it, and never the environment. -/
def stack (layers : Layers) : List Members :=
  Json.inSight (layers.given "render") ++ [Json.held layers.render]

def value? (layers : Layers) (key : Text) : Option Json :=
  layers.stack.findSome? fun members => Entries.get? members key

variable {world : World} {request : Request} {layers : Layers}

theorem of_load {config : Config} (loaded : (load world request).result = .ok config)
    (distinct : (Json.obj request.overrides).Distinct) : ∃ layers, Of world request layers := by
  obtain ⟨user, chosen, below, above, built⟩ := load_ok_parts loaded
  obtain ⟨render, read, _⟩ := (Config.build_ok_iff ..).mp built
  exact ⟨⟨request.overrides, chosen, user, render, world.environment.debug?⟩, rfl, distinct, above,
    below, read, rfl⟩

theorem objects_distinct (read : layers.Of world request) :
    ∀ members ∈ layers.objects, (Json.obj members).Distinct := by
  intro members member
  simp only [objects, List.mem_cons, List.not_mem_nil, or_false] at member
  rcases member with top | middle | bottom
  · subst members
    rw [read.overrides]
    exact read.distinct
  · subst members
    exact chosenLayer_distinct read.chosen
  · subst members
    exact userLayer_distinct read.user

theorem given_distinct (read : layers.Of world request) (name : Text) :
    ∀ members, some (Json.obj members) ∈ layers.given name → (Entries.keys members).Nodup := by
  intro members member
  obtain ⟨object, present, found⟩ := List.mem_map.mp member
  exact Json.distinct_keys (Json.distinct_get? (objects_distinct read object present) found)

theorem get?_gathered (read : layers.Of world request) (name : Text) :
    Entries.get? (gathered layers.user layers.chosen layers.overrides) name =
      Json.combined (layers.given name) := by
  have distinct (members : Members) (member : members ∈ layers.objects) :=
    Json.distinct_keys (objects_distinct read members member)
  unfold gathered
  rw [Json.get?_merge (distinct _ (by simp [objects])),
    Json.get?_merge (distinct _ (by simp [objects])),
    Json.get?_merge (distinct _ (by simp [objects]))]
  rfl

theorem mem_keys_gathered {user chosen overrides : Members} {key : Text}
    (member : key ∈ Entries.keys (gathered user chosen overrides)) :
    ∃ members ∈ [overrides, chosen, user], key ∈ Entries.keys members := by
  rcases Json.mem_keys_merge member with lower | top
  · rcases Json.mem_keys_merge lower with lower | middle
    · rcases Json.mem_keys_merge lower with none | bottom
      · simp [Entries.keys] at none
      · exact ⟨user, by simp, bottom⟩
    · exact ⟨chosen, by simp, middle⟩
  · exact ⟨overrides, by simp, top⟩

theorem member?_eq_get? {members : Members} {name : Text} (lower : name.lower = name)
    (exactly : ∀ key ∈ Entries.keys members, key.lower = name → key = name) :
    Config.member? members name = Entries.get? members name := by
  induction members with
  | nil => rfl
  | cons entry rest ih =>
    obtain ⟨key, value⟩ := entry
    have later := ih fun k member => exactly k (by simpa [Entries.keys] using Or.inr member)
    unfold Config.member? at later ⊢
    by_cases same : key = name
    · subst key
      simp [Entries.get?, lower]
    · have apart : key.lower ≠ name := by
        intro equal
        exact same (exactly key (by simp [Entries.keys]) equal)
      simp [Entries.get?, same, apart, later]

theorem member?_gathered (read : layers.Of world request) {name : Text}
    (lower : name.lower = name) (exactly : layers.SpellExactly name) :
    Config.member? (gathered layers.user layers.chosen layers.overrides) name =
      Json.combined (layers.given name) := by
  rw [member?_eq_get? lower, get?_gathered read]
  intro key member equal
  obtain ⟨members, present, inside⟩ := mem_keys_gathered member
  exact exactly members present key inside equal

theorem load_ok_iff_values (read : layers.Of world request) (config : Config) :
    (load world request).result = .ok config ↔
      Config.ofValues
        (Config.layered layers.render
          (Config.member? (gathered layers.user layers.chosen layers.overrides) "render"))
        (Config.layered layers.debug
          (Config.member? (gathered layers.user layers.chosen layers.overrides) "debug")) =
        .ok config := by
  rw [load_result read.user read.chosen, ← read.overrides, buildConfig, Outcome.mapError_ok_iff,
    Config.build, read.render, read.debug]
  exact Outcome.mapError_ok_iff

theorem load_refused (read : layers.Of world request)
    (refused : ∀ config, (load world request).result ≠ .ok config) :
    ∃ faults, (load world request).result =
      .error (.configuration (.invalidSettings faults)) := by
  have noValues (config : Config) := mt (load_ok_iff_values read config).mpr (refused config)
  rw [load_result read.user read.chosen, ← read.overrides, buildConfig, Config.build, read.render,
    read.debug]
  dsimp only
  cases built : Config.ofValues
      (Config.layered layers.render
        (Config.member? (gathered layers.user layers.chosen layers.overrides) "render"))
      (Config.layered layers.debug
        (Config.member? (gathered layers.user layers.chosen layers.overrides) "debug")) with
  | ok config => exact False.elim (noValues config built)
  | error faults => exact ⟨faults, rfl⟩

theorem objects_same {first second : Option Json}
    (same : first.map Json.outline = second.map Json.outline) :
    (∀ value, first = some value → value.isObject = true) ↔
      (∀ value, second = some value → value.isObject = true) := by
  cases first with
  | none =>
    have nothing : second = none := by simpa using same.symm
    simp [nothing]
  | some a =>
    cases second with
    | none => simp at same
    | some b =>
      have outlines : a.outline = b.outline := by simpa using same
      have kinds : a.isObject = b.isObject := by
        rw [← Json.isObject_outline a, outlines, Json.isObject_outline]
      simp [kinds]

theorem field_value?_same {first second : Text → Option Json}
    (same : ∀ key, (first key).map Json.outline = (second key).map Json.outline) (field : Field) :
    (field.value? first).map Json.outline = (field.value? second).map Json.outline := by
  unfold Field.value?
  rw [List.map_findSome?, List.map_findSome?]
  congr 1
  funext key
  exact same key

theorem highest?_outline (layers : Layers) (name : Text) (environment : Option Json) :
    (Config.layered environment (Json.combined (layers.given name))).map Json.outline =
      (layers.highest? name environment).map Json.outline := by
  rw [Json.outline_layered, Option.map_or, Json.outline_combined, ← Option.map_or]
  rfl

theorem renderOf_ok_iff_sight (read : layers.Of world request)
    (found : Config.member? (gathered layers.user layers.chosen layers.overrides) "render" =
      Json.combined (layers.given "render")) (settings : RenderSettings) :
    Config.renderOf (Config.layered layers.render
      (Config.member? (gathered layers.user layers.chosen layers.overrides) "render")) =
        .ok settings ↔
      (∀ value, layers.highest? "render" layers.render = some value → value.isObject = true) ∧
      RenderSettings.Settles (fun field => field.value? layers.value?) settings := by
  rw [found, Config.renderOf_ok_iff,
    objects_same (highest?_outline layers "render" layers.render)]
  apply and_congr_right
  intro object
  apply RenderSettings.settles_same
  intro field
  apply field_value?_same
  intro key
  exact Json.get?_held_whole (given_distinct read "render")
    ((objects_same (highest?_outline layers "render" layers.render)).mpr object) key

theorem renderOf_ok_iff_stack (read : layers.Of world request)
    (exactly : layers.SpellExactly "render") (settings : RenderSettings) :
    Config.renderOf (Config.layered layers.render
      (Config.member? (gathered layers.user layers.chosen layers.overrides) "render")) =
        .ok settings ↔
      (∀ value, layers.highest? "render" layers.render = some value → value.isObject = true) ∧
      RenderSettings.Settles (fun field => field.value? layers.value?) settings :=
  renderOf_ok_iff_sight read (member?_gathered read (by decide) exactly) settings

theorem debugOf_ok_iff_highest (read : layers.Of world request)
    (exactly : layers.SpellExactly "debug") (debug : Bool) :
    Config.debugOf (Config.layered layers.debug
      (Config.member? (gathered layers.user layers.chosen layers.overrides) "debug")) =
        .ok debug ↔
      RenderSettings.taken false RenderSettings.boolOf (layers.highest? "debug" layers.debug) =
        .ok debug := by
  rw [member?_gathered read (by decide) exactly, Config.debugOf_ok_iff,
    RenderSettings.taken_same RenderSettings.boolOf_outline
      (highest?_outline layers "debug" layers.debug)]

end Layers
end HoconRender
