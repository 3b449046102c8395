import HoconRender.Proofs.Environment.Reordered
import HoconRender.Proofs.Loading.LetterCase

/-
Loads that differ in debugging only. Truth values under its name may be replaced by others in every
layer: the load succeeds again, and the configuration is the same but for debugging.
-/
namespace HoconRender

section Replaced

variable {α β : Type} {accepts : α → Prop}

def Replaced (accepts : α → Prop) (first second : Option α) : Prop :=
  second = first ∨ ∃ old new, first = some old ∧ second = some new ∧ accepts new

theorem Replaced.or {first second below under : Option α} (above : Replaced accepts first second)
    (behind : Replaced accepts below under) :
    Replaced accepts (first.or below) (second.or under) := by
  rcases above with same | ⟨old, new, rfl, rfl, accepted⟩
  · subst second
    cases first with
    | none => exact behind
    | some value => exact Or.inl rfl
  · exact Or.inr ⟨old, new, rfl, rfl, accepted⟩

theorem Replaced.map {accepted : β → Prop} {first second : Option α} (f : α → β)
    (carries : ∀ value, accepts value → accepted (f value))
    (replaced : Replaced accepts first second) :
    Replaced accepted (first.map f) (second.map f) := by
  rcases replaced with same | ⟨old, new, rfl, rfl, accepts⟩
  · exact Or.inl (congrArg _ same)
  · exact Or.inr ⟨f old, f new, rfl, rfl, carries new accepts⟩

end Replaced

namespace Entries

/-- The same keys in the same order, and the same values but for acceptable new ones under some
keys. -/
inductive Rewritten {κ α : Type} (named : κ → Prop) (accepts : α → Prop) :
    Entries κ α → Entries κ α → Prop where
  | nil : Rewritten named accepts [] []
  | kept (entry : κ × α) {first second : Entries κ α}
      (rest : Rewritten named accepts first second) :
      Rewritten named accepts (entry :: first) (entry :: second)
  | written {key : κ} (under : named key) (old : α) {new : α} (accepted : accepts new)
      {first second : Entries κ α} (rest : Rewritten named accepts first second) :
      Rewritten named accepts ((key, old) :: first) ((key, new) :: second)

namespace Rewritten

variable {κ ι α : Type} {named : κ → Prop} {accepts : α → Prop} {first second : Entries κ α}

theorem keys_eq (rewritten : Rewritten named accepts first second) : keys second = keys first := by
  induction rewritten with
  | nil => rfl
  | kept entry rest ih => exact congrArg (entry.1 :: ·) ih
  | written under old accepted rest ih => exact congrArg (_ :: ·) ih

theorem filter_eq (keep : κ → Bool) (apart : ∀ key, named key → keep key = false)
    (rewritten : Rewritten named accepts first second) :
    second.filter (fun entry => keep entry.1) = first.filter fun entry => keep entry.1 := by
  induction rewritten with
  | nil => rfl
  | kept entry rest ih => rw [List.filter_cons, List.filter_cons, ih]
  | written under old accepted rest ih => simpa [apart _ under] using ih

theorem rekey {renamed : ι → Prop} (f : κ → ι) (carries : ∀ key, named key → renamed (f key))
    (rewritten : Rewritten named accepts first second) :
    Rewritten renamed accepts (first.map fun entry => (f entry.1, entry.2))
      (second.map fun entry => (f entry.1, entry.2)) := by
  induction rewritten with
  | nil => exact .nil
  | kept entry rest ih => exact .kept _ ih
  | written under old accepted rest ih => exact .written (carries _ under) old accepted ih

theorem append {third fourth : Entries κ α} (front : Rewritten named accepts first second)
    (behind : Rewritten named accepts third fourth) :
    Rewritten named accepts (first ++ third) (second ++ fourth) := by
  induction front with
  | nil => exact behind
  | kept entry rest ih => exact .kept entry ih
  | written under old accepted rest ih => exact .written under old accepted ih

theorem reverse (rewritten : Rewritten named accepts first second) :
    Rewritten named accepts first.reverse second.reverse := by
  induction rewritten with
  | nil => exact .nil
  | kept entry rest ih =>
    rw [List.reverse_cons, List.reverse_cons]
    exact ih.append (.kept entry .nil)
  | written under old accepted rest ih =>
    rw [List.reverse_cons, List.reverse_cons]
    exact ih.append (.written under old accepted .nil)

variable [BEq κ] [LawfulBEq κ]

theorem get?_replaced (rewritten : Rewritten named accepts first second) (key : κ) :
    Replaced accepts (get? first key) (get? second key) := by
  induction rewritten with
  | nil => exact Or.inl rfl
  | kept entry rest ih =>
    obtain ⟨k, value⟩ := entry
    by_cases same : k = key
    · exact Or.inl (by simp [get?, same])
    · simpa [get?, same] using ih
  | @written k under old new accepted _ _ rest ih =>
    by_cases same : k = key
    · exact Or.inr ⟨old, new, by simp [get?, same], by simp [get?, same], accepted⟩
    · simpa [get?, same] using ih

theorem get?_other (rewritten : Rewritten named accepts first second) {key : κ}
    (apart : ¬ named key) : get? second key = get? first key := by
  induction rewritten with
  | nil => rfl
  | kept entry rest ih =>
    obtain ⟨k, value⟩ := entry
    by_cases same : k = key
    · simp [get?, same]
    · simpa [get?, same] using ih
  | @written k under old new accepted _ _ rest ih =>
    have other : k ≠ key := by
      rintro rfl
      exact apart under
    simpa [get?, other] using ih

end Rewritten
end Entries

def Json.Truth (value : Json) : Prop := ∃ b, RenderSettings.boolOf value = .ok b

def Redebugged : Members → Members → Prop :=
  Entries.Rewritten (fun key => key.lower = Text.ofString "debug") Json.Truth

namespace Environment

def Redebugged : Environment → Environment → Prop :=
  Entries.Rewritten (fun name => name.lower = debugVariable) fun t => (Json.str t).Truth

variable {first second : Environment} (changed : first.Redebugged second)
include changed

theorem Redebugged.lowerNames :
    Entries.Rewritten (fun name => name = debugVariable) (fun t => (Json.str t).Truth)
      first.lowerNames second.lowerNames :=
  Entries.Rewritten.rekey Text.lower (fun _ under => under) changed

theorem Redebugged.lowered_others :
    second.lowered.filter (fun entry => entry.1 != debugVariable) =
      first.lowered.filter fun entry => entry.1 != debugVariable := by
  have names : second.lowerNames.filter (fun entry => entry.1 != debugVariable) =
      first.lowerNames.filter fun entry => entry.1 != debugVariable :=
    changed.lowerNames.filter_eq (· != debugVariable) fun name under => by simp [under]
  exact (Entries.filter_ofList second.lowerNames (· != debugVariable)).trans
    ((congrArg Entries.ofList names).trans
      (Entries.filter_ofList first.lowerNames (· != debugVariable)).symm)

theorem Redebugged.get?_lowered {name : Text} (other : name ≠ debugVariable) :
    Entries.get? second.lowered name = Entries.get? first.lowered name := by
  have here := Entries.get?_filter first.lowered (· != debugVariable) name
  have there := Entries.get?_filter second.lowered (· != debugVariable) name
  rw [if_pos (bne_iff_ne.mpr other)] at here there
  rw [← here, ← there]
  exact congrArg (Entries.get? · name) changed.lowered_others

theorem Redebugged.nested : second.lowered.nested = first.lowered.nested := by
  have kept {name rest : Text} (nested : Text.dropHead? nestedStart name = some rest) :
      (name != debugVariable) = true := by
    rw [bne_iff_ne]
    rintro rfl
    cases nested
  rw [nested_eq_assignAll, nested_eq_assignAll, ← written_filter second.lowered kept,
    ← written_filter first.lowered kept]
  exact congrArg (fun others => assignAll (written others) []) changed.lowered_others

theorem Redebugged.render? : second.render? = first.render? := by
  unfold Environment.render?
  dsimp only
  rw [changed.get?_lowered (by decide), changed.nested]

theorem Redebugged.debug? : Replaced Json.Truth first.debug? second.debug? := by
  have last (environment : Environment) :
      Entries.get? environment.lowered debugVariable =
        Entries.get? environment.lowerNames.reverse debugVariable :=
    Entries.get?_ofList environment.lowerNames debugVariable
  unfold Environment.debug?
  rw [last first, last second]
  exact (changed.lowerNames.reverse.get?_replaced debugVariable).map Json.str fun _ truth => truth

end Environment

/-- The same worlds to a load, but for truth values under the name of debugging in the files that it
reads and in the variables. -/
structure World.Redebugged (before after : World) (request : Request) : Prop where
  user : ∀ members, UserLayer before members →
    ∃ others, UserLayer after others ∧ HoconRender.Redebugged members others
  chosen : ∀ members, ChosenLayer before request members →
    ∃ others, ChosenLayer after request others ∧ HoconRender.Redebugged members others
  environment : before.environment.Redebugged after.environment

namespace Layers

variable {before after : World} {request : Request} {layers others : Layers}

structure Redebugged (layers others : Layers) : Prop where
  overrides : others.overrides = layers.overrides
  chosen : HoconRender.Redebugged layers.chosen others.chosen
  user : HoconRender.Redebugged layers.user others.user
  render : others.render = layers.render
  debug : Replaced Json.Truth layers.debug others.debug

theorem redebugged_of (read : layers.Of before request)
    (changed : before.Redebugged after request) :
    ∃ others : Layers, others.Of after request ∧ layers.Redebugged others := by
  obtain ⟨user, userAfter, sameUser⟩ := changed.user layers.user read.user
  obtain ⟨chosen, chosenAfter, sameChosen⟩ := changed.chosen layers.chosen read.chosen
  refine ⟨⟨layers.overrides, chosen, user, layers.render, after.environment.debug?⟩,
    ⟨read.overrides, read.distinct, chosenAfter, userAfter, ?_, rfl⟩,
    ⟨rfl, sameChosen, sameUser, rfl, ?_⟩⟩
  · exact changed.environment.render?.trans read.render
  · exact read.debug ▸ changed.environment.debug?

variable (changed : layers.Redebugged others)
include changed

theorem Redebugged.readSpelling? (name : Text) :
    others.readSpelling? name = layers.readSpelling? name := by
  unfold Layers.readSpelling? fileSpelling?
  rw [changed.overrides, changed.chosen.keys_eq, changed.user.keys_eq]

theorem Redebugged.given {key : Text} (other : key.lower ≠ Text.ofString "debug") :
    others.given key = layers.given key := by
  unfold Layers.given objects
  simp only [List.map_cons, List.map_nil]
  rw [changed.overrides, changed.chosen.get?_other other, changed.user.get?_other other]

omit changed in
theorem highest?_eq_or (layers : Layers) (name : Text) (environment : Option Json) :
    layers.highest? name environment =
      (Entries.get? layers.overrides name).or ((Entries.get? layers.chosen name).or
        ((Entries.get? layers.user name).or environment)) := by
  unfold Layers.highest? Layers.given objects
  simp only [List.map_cons, List.map_nil]
  cases Entries.get? layers.overrides name <;> cases Entries.get? layers.chosen name <;>
    cases Entries.get? layers.user name <;> rfl

theorem Redebugged.highest? (key : Text) :
    Replaced Json.Truth (layers.highest? key layers.debug) (others.highest? key others.debug) := by
  rw [highest?_eq_or, highest?_eq_or, changed.overrides]
  exact Replaced.or (Or.inl rfl) ((changed.chosen.get?_replaced key).or
    ((changed.user.get?_replaced key).or changed.debug))

end Layers

theorem taken_replaced {first second : Option Json} (replaced : Replaced Json.Truth first second)
    {b : Bool} (taken : RenderSettings.taken false RenderSettings.boolOf first = .ok b) :
    ∃ other, RenderSettings.taken false RenderSettings.boolOf second = .ok other := by
  rcases replaced with rfl | ⟨_, new, _, rfl, other, truth⟩
  · exact ⟨b, taken⟩
  · exact ⟨other, truth⟩

namespace Layers

variable {world : World} {request : Request} {layers : Layers}

theorem debugOf_ok_iff_read (read : layers.Of world request) (debug : Bool) :
    Config.debugOf (Config.layered layers.debug
      (Config.member? (gathered layers.user layers.chosen layers.overrides) "debug")) =
        .ok debug ↔
      RenderSettings.taken false RenderSettings.boolOf
        ((layers.readSpelling? "debug").elim layers.debug
          fun key => layers.highest? key layers.debug) = .ok debug := by
  rw [Config.debugOf_ok_iff, member?_read read]
  cases layers.readSpelling? "debug" with
  | none => rfl
  | some key =>
    exact iff_of_eq (congrArg (· = Except.ok debug) (RenderSettings.taken_same
      RenderSettings.boolOf_outline (highest?_outline layers key layers.debug) false))

end Layers

/-- Where debugging was given other truth values, a load that succeeds still does, with the same
configuration but for debugging. -/
theorem load_redebugged {before after : World} {request : Request} {config : Config}
    (distinct : (Json.obj request.overrides).Distinct)
    (changed : before.Redebugged after request)
    (loaded : (load before request).result = .ok config) :
    ∃ debug, (load after request).result = .ok { config with debug := debug } := by
  obtain ⟨layers, read⟩ := Layers.of_load loaded distinct
  obtain ⟨others, readAgain, changed⟩ := Layers.redebugged_of read changed
  rw [Layers.load_ok_iff_values read, Config.ofValues_ok_iff, Layers.debugOf_ok_iff_read read]
    at loaded
  have render : Config.member? (gathered others.user others.chosen others.overrides) "render" =
      Config.member? (gathered layers.user layers.chosen layers.overrides) "render" := by
    rw [Layers.member?_read readAgain, Layers.member?_read read, changed.readSpelling?]
    cases spelled : layers.readSpelling? "render" with
    | none => rfl
    | some key =>
      have other : key.lower ≠ Text.ofString "debug" := by
        rw [Layers.readSpelling?_lower spelled]
        decide
      exact congrArg Json.combined (changed.given other)
  have debug : ∃ debug, RenderSettings.taken false RenderSettings.boolOf
      ((others.readSpelling? "debug").elim others.debug
        fun key => others.highest? key others.debug) = .ok debug := by
    refine taken_replaced ?_ loaded.2
    rw [changed.readSpelling?]
    cases layers.readSpelling? "debug" with
    | none => exact changed.debug
    | some key => exact changed.highest? key
  obtain ⟨debug, taken⟩ := debug
  refine ⟨debug, (Layers.load_ok_iff_values readAgain _).mpr ?_⟩
  rw [Config.ofValues_ok_iff, Layers.debugOf_ok_iff_read readAgain, render, changed.render]
  exact ⟨loaded.1, taken⟩

end HoconRender
