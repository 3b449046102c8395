import HoconRender.Proofs.Loading.BareWorld
import HoconRender.Proofs.Session.Slot

/-
Configurations written as members and loaded again where nothing else speaks. However one was
obtained, its comment prefix can be taken again, and so it comes back with every field, the unset
ones still unset.
-/
namespace HoconRender

namespace Session

variable {session : Session} {installed : Installed}

def Acceptable (session : Session) : Prop :=
  ∀ installed, session.slot = some installed → installed.config.render.Acceptable

theorem loaded_acceptable {request : Request}
    (answered : (session.load request).2.result = .ok installed) :
    installed.config.render.Acceptable := by
  rw [load_answer] at answered
  obtain ⟨config, loaded, rfl⟩ := Outcome.map_ok_iff.mp answered
  exact load_acceptable loaded

theorem asked_acceptable (acceptable : session.Acceptable)
    (answered : session.getConfig.2.result = .ok installed) :
    installed.config.render.Acceptable := by
  cases slot : session.slot with
  | some held =>
    rw [getConfig_filled slot] at answered
    cases answered
    exact acceptable installed slot
  | none =>
    rw [getConfig_empty slot] at answered
    exact loaded_acceptable answered

theorem acceptable_step (acceptable : session.Acceptable) (event : Event) :
    (session.step event).1.Acceptable := by
  intro installed filled
  cases event with
  | change change => exact acceptable installed filled
  | load request =>
    rw [leavesSlot_keeps session (.load request) rfl] at filled
    exact acceptable installed filled
  | getConfig =>
    change session.getConfig.1.slot = some installed at filled
    cases slot : session.slot with
    | some held =>
      rw [getConfig_filled slot] at filled
      exact acceptable installed filled
    | none =>
      rw [getConfig_empty slot] at filled
      dsimp only at filled
      cases answered : (session.load .plain).2.result with
      | ok loaded =>
        rw [answered] at filled
        cases filled
        exact loaded_acceptable answered
      | error failure =>
        rw [answered] at filled
        cases filled
  | setConfig members =>
    change (session.setConfig members).1.slot = some installed at filled
    unfold setConfig at filled
    cases built : Config.build session.world.environment members with
    | ok config =>
      rw [built] at filled
      cases filled
      exact Config.build_acceptable built
    | error fault =>
      rw [built] at filled
      exact acceptable installed filled
  | resetConfig => cases filled
  | parse line => exact acceptable installed filled
  | run line => exact acceptable installed filled

theorem acceptable_steps (events : List Event) (acceptable : session.Acceptable) :
    (session.steps events).1.Acceptable := by
  induction events generalizing session with
  | nil => exact acceptable
  | cons event rest ih => exact ih (acceptable_step acceptable event)

end Session

/-- Configurations that a program can come by: loaded, asked for in a session, or built from
values. -/
inductive Obtained : Config → Prop where
  | loaded {world : World} {request : Request} {config : Config}
      (loaded : (load world request).result = .ok config) : Obtained config
  | asked {world : World} {events : List Event} {installed : Installed}
      (answered : (Session.reached world events).getConfig.2.result = .ok installed) :
      Obtained installed.config
  | built {environment : Environment} {members : Members} {config : Config}
      (built : Config.build environment members = .ok config) : Obtained config

theorem obtained_acceptable {config : Config} (obtained : Obtained config) :
    config.render.Acceptable := by
  cases obtained with
  | loaded loaded => exact load_acceptable loaded
  | @asked world events installed answered =>
    have start : (Session.start world).Acceptable := by
      intro held filled
      cases filled
    exact Session.asked_acceptable (Session.acceptable_steps events start) answered
  | built built => exact Config.build_acceptable built

namespace Config

theorem ofArguments_toMembers (config : Config) :
    Request.ofArguments none none config.toMembers = .ok ⟨none, none, config.toMembers⟩ := by rfl

theorem toMembers_distinct (config : Config) : (Json.obj config.toMembers).Distinct := by
  have render : (Json.obj config.render.toMembers).Distinct :=
    ⟨config.render.keys_toMembers_nodup, config.render.toMembers_distinct⟩
  have names : (Entries.keys config.toMembers).Nodup := by
    change [Text.ofString "render", Text.ofString "debug"].Nodup
    decide
  exact ⟨names, render, trivial, trivial⟩

end Config

namespace Layers

variable {config : Config}

theorem spellExactly_of_toMembers {name : Text} :
    (ofOverrides config.toMembers).SpellExactly name := by
  intro members member key inside lower
  simp only [objects, ofOverrides, List.mem_cons, List.not_mem_nil, or_false, or_self] at member
  rcases member with rfl | rfl
  · have lowered : ∀ key ∈ [Text.ofString "render", Text.ofString "debug"], key.lower = key := by
      decide
    exact (lowered key inside).symm.trans lower
  · simp [Entries.keys] at inside

theorem value?_of_toMembers :
    (ofOverrides config.toMembers).value? = Entries.get? config.render.toMembers := by
  funext key
  have stack : (ofOverrides config.toMembers).stack = [config.render.toMembers, []] := rfl
  unfold value?
  rw [stack, List.findSome?_cons]
  cases Entries.get? config.render.toMembers key <;> rfl

end Layers

/-- Where no variable is the program's own and no settings file is there, a load with the members
of a configuration gives this configuration. -/
theorem exported_config_reloads {config : Config} (obtained : Obtained config) {world : World}
    (silent : world.environment.Silent) (fileless : world.Fileless) :
    ∃ request, Request.ofArguments none none config.toMembers = .ok request ∧
      (load world request).result = .ok config := by
  refine ⟨⟨none, none, config.toMembers⟩, config.ofArguments_toMembers, ?_⟩
  have read := Layers.ofOverrides_of silent fileless config.toMembers_distinct
  apply (Layers.load_ok_iff_values read config).mpr
  apply (Config.ofValues_ok_iff ..).mpr
  constructor
  · apply (Layers.renderOf_ok_iff_stack read Layers.spellExactly_of_toMembers config.render).mpr
    constructor
    · intro value highest
      cases highest
      rfl
    · rw [Layers.value?_of_toMembers]
      have written := RenderSettings.settles_written (obtained_acceptable obtained)
      have values : (fun field : Field => field.value? (Entries.get? config.render.toMembers)) =
          config.render.written? := funext config.render.value?_toMembers
      rw [values]
      exact written
  · exact (Layers.debugOf_ok_iff_highest read Layers.spellExactly_of_toMembers config.debug).mpr rfl

def partialMembers : Members :=
  [(Text.ofString "render", .obj [(Text.ofString "json_syntax", .int 0),
      (Text.ofString "comment_prefix", .str [0x2603])]),
    (Text.ofString "debug", .str (Text.ofString "on"))]

def partialEvents : List Event :=
  [.change (.set (Text.ofString "HOCONKIT_RENDER__COMMENTS") (Text.ofString "off")),
    .setConfig partialMembers]

def partialConfig : Config :=
  ⟨⟨.defaults, ⟨none, some false, none, some false, none⟩, some [0x2603]⟩, true⟩

theorem partial_config_reloads :
    ∃ request, Request.ofArguments none none partialConfig.toMembers = .ok request ∧
      (load (.withFiles [] []) request).result = .ok partialConfig := by
  have asked : (Session.reached (.withFiles [] []) partialEvents).getConfig.2.result =
      .ok ⟨0, partialConfig⟩ := by decide +kernel
  have silent : (World.withFiles [] []).environment.Silent := by
    unfold Environment.Silent
    decide +kernel
  have fileless : (World.withFiles [] []).Fileless :=
    ⟨⟨.ofText (Text.ofString "/home"), by decide +kernel, by decide +kernel⟩,
      ⟨.ofText (Text.ofString "/project"), by decide +kernel, by decide +kernel⟩⟩
  exact exported_config_reloads (.asked asked) silent fileless

theorem homeless_reload_fails :
    Obtained .unset ∧ plainWorld.homeless.environment.Silent ∧
    (∀ entry ∈ plainWorld.homeless.files, entry.2 = .directory) ∧
    (load plainWorld.homeless ⟨none, none, Config.unset.toMembers⟩).result = .error .noHome := by
  have loaded : (load plainWorld .plain).result = .ok .unset := by decide +kernel
  refine ⟨.loaded loaded, ?_, by decide +kernel, by decide +kernel⟩
  unfold Environment.Silent
  decide +kernel

end HoconRender
