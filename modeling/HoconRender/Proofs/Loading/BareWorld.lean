import HoconRender.Proofs.Loading.Layers

/-
Worlds in which nothing but the overrides speaks: no variable is the program's own, and neither
settings file is there. Then the overrides are the only layer.
-/
namespace HoconRender

namespace Text

theorem dropHead?_append (first second t : Text) :
    dropHead? (first ++ second) t = (dropHead? first t).bind (dropHead? second) := by
  induction first generalizing t with
  | nil => simp [dropHead?]
  | cons h rest ih =>
    cases t with
    | nil => rfl
    | cons c t =>
      by_cases same : h = c
      · simp [dropHead?, same, ih]
      · simp [dropHead?, same]

end Text

namespace Environment

def ownStart : Text := "hoconkit_"

def Silent (environment : Environment) : Prop :=
  ∀ name ∈ Entries.keys environment, Text.startsWith name.lower ownStart = false

variable {environment : Environment}

theorem lowered_silent (silent : environment.Silent) :
    ∀ name ∈ Entries.keys environment.lowered, Text.startsWith name ownStart = false := by
  intro name member
  obtain ⟨entry, present, rfl⟩ := List.mem_map.mp member
  obtain ⟨⟨other, value⟩, given, same⟩ := List.mem_map.mp (Entries.mem_ofList present)
  cases same
  exact silent other (List.mem_map_of_mem given)

theorem get?_lowered_silent (silent : environment.Silent) {name : Text}
    (own : Text.startsWith name ownStart = true) :
    Entries.get? environment.lowered name = none := by
  apply (Entries.get?_eq_none_iff ..).mpr
  intro member
  have other := lowered_silent silent name member
  rw [own] at other
  cases other

theorem nested_of_no_start {entries : Environment}
    (foreign : ∀ name ∈ Entries.keys entries, Text.dropHead? nestedStart name = none) :
    entries.nested = [] := by
  induction entries with
  | nil => rfl
  | cons entry rest ih =>
    obtain ⟨name, value⟩ := entry
    obtain ⟨first, others⟩ := List.forall_mem_cons.mp foreign
    have later := ih others
    unfold nested at later ⊢
    rw [List.foldl_cons]
    dsimp only
    rw [first]
    exact later

theorem nested_lowered_silent (silent : environment.Silent) : environment.lowered.nested = [] := by
  apply nested_of_no_start
  intro name member
  have foreign := lowered_silent silent name member
  have start : nestedStart = ownStart ++ Text.ofString "render__" := by decide
  have none : Text.dropHead? ownStart name = .none := by
    simpa [Text.startsWith] using foreign
  rw [start, Text.dropHead?_append, none]
  rfl

theorem render?_silent (silent : environment.Silent) : environment.render? = .ok none := by
  unfold render?
  dsimp only
  rw [get?_lowered_silent silent (by decide), nested_lowered_silent silent]
  rfl

theorem debug?_silent (silent : environment.Silent) : environment.debug? = none := by
  unfold debug?
  rw [get?_lowered_silent silent (by decide)]
  rfl

end Environment

/-- Neither the user file nor the project file of the current directory is there. -/
structure World.Fileless (world : World) : Prop where
  user : ∃ home, world.home? = some home ∧ world.target (World.userFileIn home) = .absent
  project : ∃ directory, world.currentDirectory? = some directory ∧
    world.target (World.projectFileIn directory) = .absent

namespace Layers

def ofOverrides (overrides : Members) : Layers := ⟨overrides, [], [], none, none⟩

variable {world : World} {overrides : Members}

theorem ofOverrides_of (silent : world.environment.Silent) (fileless : world.Fileless)
    (distinct : (Json.obj overrides).Distinct) :
    (ofOverrides overrides).Of world ⟨none, none, overrides⟩ := by
  obtain ⟨home, known, noUser⟩ := fileless.user
  obtain ⟨directory, current, noProject⟩ := fileless.project
  exact ⟨rfl, distinct, ChosenLayer.inCurrent rfl rfl current (Yields.absent noProject),
    UserLayer.inHome known (Yields.absent noUser), Environment.render?_silent silent,
    Environment.debug?_silent silent⟩

end Layers

end HoconRender
