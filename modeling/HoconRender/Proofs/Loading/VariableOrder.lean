import HoconRender.Proofs.Environment.Reordered
import HoconRender.Proofs.Loading.NamedFile

/-
Loads under variables in another order. What the environment gives is the same but for the order of
keys and for what lies deeper than a setting, and no layer above brings that back.
-/
namespace HoconRender

namespace Config

theorem renderOf_same {first second : Option Json} (same : Json.SameFields first second)
    (settings : RenderSettings) : renderOf first = .ok settings ↔ renderOf second = .ok settings := by
  rw [renderOf_ok_iff, renderOf_ok_iff, Layers.objects_same same.whole]
  exact and_congr_right fun _ => RenderSettings.settles_same fun field =>
    Layers.field_value?_same same.member field

theorem build_reordered {first second : Environment} (reordered : first.Reordered second)
    (members : Members) (config : Config) :
    build first members = .ok config ↔ build second members = .ok config := by
  rw [build_ok_iff, build_ok_iff, reordered.debug?]
  rcases reordered.render? with ⟨fault, failsFirst, failsSecond⟩ |
    ⟨below, below', readFirst, readSecond, same⟩
  · simp [failsFirst, failsSecond]
  · have render := renderOf_same (same.layered (member? members "render"))
    simp only [readFirst, readSecond, Except.ok.injEq, exists_eq_left', ofValues_ok_iff, render]

end Config

def World.under (world : World) (environment : Environment) : World :=
  { world with environment := environment }

theorem home?_reordered {first second : Environment} (reordered : first.Reordered second)
    (world : World) : (world.under second).home? = (world.under first).home? := by
  have home := Entries.get?_perm reordered.perm reordered.once World.homeVariable
  unfold World.home? World.under
  dsimp only
  rw [home]

/-- The order in which variables were set does not matter: at every path the single settings come
out the same, and a load succeeds under both orders with one configuration, or under neither. -/
theorem variables_load_in_any_order (world : World) (first second : Environment)
    (reordered : first.Reordered second) :
    (∀ path, ((Json.obj first.lowered.nested).at? path).map Json.outline =
      ((Json.obj second.lowered.nested).at? path).map Json.outline) ∧
    ∀ request config, (load (world.under first) request).result = .ok config ↔
      (load (world.under second) request).result = .ok config := by
  refine ⟨reordered.nested_at?, fun request config => ?_⟩
  have user : readUserFile (world.under second) = readUserFile (world.under first) :=
    readUserFile_agree (home?_reordered reordered world) fun _ _ => rfl
  have chosen : readChosenFile (world.under second) request =
      readChosenFile (world.under first) request := rfl
  rw [load_result_bind, load_result_bind, user, chosen]
  simp only [Outcome.bind_ok_iff]
  refine exists_congr fun below => and_congr_right fun _ => exists_congr fun above =>
    and_congr_right fun _ => ?_
  exact (Outcome.mapError_ok_iff.trans (Config.build_reordered reordered _ config)).trans
    Outcome.mapError_ok_iff.symm

section Sample

def crossedVariables : Environment :=
  [(World.homeVariable, "/home"), ("HOCONKIT_RENDER__PRESET__DEEPER", "no"),
    ("HOCONKIT_RENDER__PRESET", "concise"),
    ("HOCONKIT_RENDER", "\x7b\"Preset\": \"defaults\", \"json\": false\x7d"),
    ("hoconkit_render__comments", "no"), ("HOCONKIT_DEBUG", "1")]

def crossedBackwards : Environment := crossedVariables.reverse

theorem crossedVariables_reordered : crossedVariables.Reordered crossedBackwards :=
  ⟨crossedVariables.reverse_perm.symm, by decide, by decide⟩

theorem crossed_variables_load :
    (load (plainWorld.under crossedBackwards) .plain).result =
      .ok ⟨⟨.concise, ((Flags.ofFn fun _ => none).set .comments (some false)).set .json
        (some false), none⟩, true⟩ ∧
    ((Json.obj crossedBackwards.lowered.nested).at? ["preset"]).map Json.outline =
      some (.str "concise") := by
  have same := variables_load_in_any_order plainWorld crossedVariables crossedBackwards
    crossedVariables_reordered
  exact ⟨(same.2 .plain _).mp (by decide +kernel),
    (same.1 ["preset"]).symm.trans (by decide +kernel)⟩

end Sample

end HoconRender
