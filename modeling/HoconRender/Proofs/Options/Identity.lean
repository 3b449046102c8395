import HoconRender.Proofs.Json.Keys
import HoconRender.Proofs.Options.LastWrite
import Mathlib.Data.List.Dedup

/-
Objects along a derivation. A step that sets a field hands back its receiver exactly if the field
has what the step writes already, and a new object otherwise, whatever objects there are. So a run
has as many objects as it has changes, and the one that it starts from.
-/
namespace HoconRender

theorem Json.alike_self (value : Json) : value.alike value = true := by
  unfold alike
  cases Key.ofJson? value with
  | none => exact beq_self_eq_true value
  | some key => exact key.same_self

theorem Json.alike_str (t u : Text) : (Json.str t).alike (.str u) = (t == u) := by
  by_cases same : t = u
  · rw [same, alike_self, beq_self_eq_true]
  · simp [alike, Key.ofJson?, Key.same, Key.number?, Key.bare, same]

namespace RawOptions

theorem alike_iff (a b : RawOptions) : a.alike b = true ↔
    (∀ flag, (a.get flag).alike (b.get flag) = true) ∧ a.commentPrefix = b.commentPrefix := by
  unfold alike
  rw [Bool.and_eq_true, List.all_eq_true, beq_iff_eq]
  constructor
  · rintro ⟨flags, commentPrefix⟩
    exact ⟨fun flag => flags flag (Flag.mem_all flag), commentPrefix⟩
  · rintro ⟨flags, commentPrefix⟩
    exact ⟨fun flag _ => flags flag, commentPrefix⟩

theorem alike_self (options : RawOptions) : options.alike options = true :=
  (alike_iff options options).mpr ⟨fun flag => (options.get flag).alike_self, rfl⟩

theorem get_set (options : RawOptions) (chosen flag : Flag) (value : Bool) :
    (options.set chosen value).get flag =
      if flag = chosen then .bool value else options.get flag :=
  Flags.get_set options.flags chosen flag (.bool value)

def part (options : RawOptions) : Part → Json
  | .flag flag => options.get flag
  | .commentPrefix => .str options.commentPrefix

theorem alike_set (options : RawOptions) (chosen : Flag) (value : Bool) :
    options.alike (options.set chosen value) = (options.get chosen).alike (.bool value) := by
  rw [Bool.eq_iff_iff, alike_iff]
  constructor
  · rintro ⟨flags, _⟩
    have same := flags chosen
    rwa [get_set, if_pos rfl] at same
  · intro same
    refine ⟨fun flag => ?_, rfl⟩
    rw [get_set]
    split
    · rename_i equal
      rwa [equal]
    · exact (options.get flag).alike_self

theorem alike_prefixed (options : RawOptions) (t : Text) :
    options.alike { options with commentPrefix := t } =
      (Json.str options.commentPrefix).alike (.str t) := by
  rw [Bool.eq_iff_iff, alike_iff, Json.alike_str, beq_iff_eq]
  constructor
  · exact fun both => both.2
  · exact fun same => ⟨fun flag => (options.get flag).alike_self, same⟩

theorem withCommentPrefix_eq (receiver : RawOptions) (t : Text) :
    receiver.withCommentPrefix t =
      if (receiver.part .commentPrefix).alike (.str t) then .receiver
      else .fresh { receiver with commentPrefix := t } := by
  unfold withCommentPrefix part
  rw [Json.alike_str, BEq.comm]

namespace Step

def isSetter : Step → Bool
  | .flag _ _ => true
  | .namedFlag _ _ => true
  | .commentPrefix _ => true
  | _ => false

theorem written?_eq_some_iff (step : Step) (part : Part) (value : Json) :
    step.written? part = some value ↔ step.part? = some part ∧ step.value? = some value := by
  unfold written?
  split
  · rename_i on
    simp [on]
  · rename_i off
    simp [off]

/-- A setter fails on every receiver, or it writes a value to a field of each. It compares that
field alone with the value, which is how the options made compare as a whole. -/
theorem run_setter {step : Step} (setter : step.isSetter = true) :
    ((∀ part, step.written? part = none) ∧
      ∀ receiver, ∃ fault, step.run receiver = .error fault) ∨
    ∃ part value, step.written? part = some value ∧ ∀ receiver, ∃ made,
      step.run receiver =
        .ok (if (receiver.part part).alike value then .receiver else .fresh made) ∧
      made.part part = value ∧ receiver.alike made = (receiver.part part).alike value := by
  have writes (chosen : Flag) (value : Bool) (receiver : RawOptions) :
      (receiver.set chosen value).part (.flag chosen) = .bool value := by
    change (receiver.set chosen value).get chosen = _
    rw [get_set, if_pos rfl]
  cases step with
  | flag chosen value =>
    refine Or.inr ⟨.flag chosen, .bool value.truthy, by simp [written?, part?, value?],
      fun receiver => ⟨_, rfl, writes .., alike_set ..⟩⟩
  | namedFlag name value =>
    cases named : RenderOptions.flagNamed name with
    | ok chosen =>
      refine Or.inr ⟨.flag chosen, .bool value.truthy, ?_, fun receiver =>
        ⟨receiver.set chosen value.truthy, ?_, writes .., alike_set ..⟩⟩
      · simp [written?, part?, value?, named, Except.toOption]
      · simp only [run, named]
        rfl
    | error fault =>
      refine Or.inl ⟨fun part => ?_, fun receiver => ⟨.refused fault, by simp [run, named]⟩⟩
      simp [written?, part?, named, Except.toOption]
  | commentPrefix value =>
    cases value with
    | str t =>
      exact Or.inr ⟨.commentPrefix, .str t, rfl, fun receiver =>
        ⟨_, congrArg Except.ok (withCommentPrefix_eq receiver t), rfl, alike_prefixed receiver t⟩⟩
    | _ => exact Or.inl ⟨fun part => ite_self none, fun receiver => ⟨_, rfl⟩⟩
  | _ => cases setter

section Setter

variable {step : Step} (setter : step.isSetter = true) (receiver : RawOptions)

include setter

theorem setter_cases :
    (step.after receiver = receiver ∧ ∀ made, step.run receiver ≠ .ok (.fresh made)) ∨
    (receiver.alike (step.after receiver) = false ∧
      step.run receiver = .ok (.fresh (step.after receiver))) := by
  unfold after
  rcases run_setter setter with ⟨_, failing⟩ | ⟨part, value, _, runs⟩
  · obtain ⟨fault, failed⟩ := failing receiver
    rw [failed]
    exact Or.inl ⟨rfl, by simp⟩
  · obtain ⟨made, done, _, whole⟩ := runs receiver
    rw [done]
    cases same : (receiver.part part).alike value with
    | true => exact Or.inl (by simp [Product.value])
    | false => exact Or.inr (by simp [Product.value, whole, same])

variable {part : Part} {value : Json} (written : step.written? part = some value)

include written

theorem setter_field :
    receiver.alike (step.after receiver) = (receiver.part part).alike value ∧
      ((step.after receiver).part part).alike value = true := by
  rcases run_setter setter with ⟨nothing, _⟩ | ⟨own, held, also, runs⟩
  · cases written.symm.trans (nothing part)
  · have here := (written?_eq_some_iff ..).mp written
    have there := (written?_eq_some_iff ..).mp also
    obtain rfl := Option.some.inj (there.1.symm.trans here.1)
    obtain rfl := Option.some.inj (there.2.symm.trans here.2)
    obtain ⟨made, done, writes, whole⟩ := runs receiver
    unfold after
    rw [done]
    cases same : (receiver.part own).alike held with
    | true => simp [Product.value, same, alike_self]
    | false => simp [Product.value, same, whole, writes, Json.alike_self]

omit written in
theorem setter_settled :
    (step.after receiver).alike (step.after (step.after receiver)) = true := by
  rcases run_setter setter with ⟨_, failing⟩ | ⟨part, value, written, _⟩
  · obtain ⟨fault, failed⟩ := failing receiver
    have kept : step.after receiver = receiver := by
      unfold after
      rw [failed]
    rw [kept, kept]
    exact receiver.alike_self
  · rw [(setter_field setter _ written).1]
    exact (setter_field setter receiver written).2

end Setter

end Step

namespace Derivation

/-- Identities number the objects of a run in the order in which they are made. -/
structure Numbered (run : Derivation) : Prop where
  below : ∀ state ∈ run.states, state.identity < run.objects
  used : ∀ identity < run.objects, ∃ state ∈ run.states, state.identity = identity
  single : ∀ a ∈ run.states, ∀ b ∈ run.states, a.identity = b.identity → a = b

def changes (run : Derivation) : List (Nat × Step) → Nat
  | [] => 0
  | (n, step) :: rest =>
    let receiver := (run.receiver n).options
    (if receiver.alike (step.after receiver) then 0 else 1) + (run.apply n step).changes rest

variable {run : Derivation} {n : Nat} {receiver : Instance}

theorem receiver_of_state (there : run.states[n]? = some receiver) : run.receiver n = receiver := by
  unfold Derivation.receiver
  rw [there]
  rfl

theorem apply_setter (run : Derivation) (n : Nat) {step : Step} (setter : step.isSetter = true) :
    (step.after (run.receiver n).options = (run.receiver n).options ∧
      run.apply n step = ⟨run.states ++ [run.receiver n], run.objects⟩) ∨
    ((run.receiver n).options.alike (step.after (run.receiver n).options) = false ∧
      run.apply n step = ⟨run.states ++ [⟨run.objects, step.after (run.receiver n).options⟩],
        run.objects + 1⟩) := by
  unfold apply
  dsimp only
  rcases Step.setter_cases setter (run.receiver n).options with ⟨same, kept⟩ | ⟨differs, made⟩
  · refine Or.inl ⟨same, ?_⟩
    split
    · rename_i options done
      exact absurd done (kept options)
    · rfl
  · rw [made]
    exact Or.inr ⟨differs, rfl⟩

theorem numbered_start (options : RawOptions) : Numbered (start options) := by
  refine ⟨?_, ?_, ?_⟩
  · simp [start]
  · simp [start]
  · simp [start]

theorem Numbered.again (numbered : Numbered run) {state : Instance} (member : state ∈ run.states) :
    Numbered ⟨run.states ++ [state], run.objects⟩ := by
  have old (other : Instance) : other ∈ run.states ++ [state] ↔ other ∈ run.states := by
    simp only [List.mem_append, List.mem_singleton, or_iff_left_iff_imp]
    rintro rfl
    exact member
  refine ⟨?_, ?_, ?_⟩
  · simpa only [old] using numbered.below
  · simpa only [old] using numbered.used
  · simpa only [old] using numbered.single

theorem Numbered.made (numbered : Numbered run) (options : RawOptions) :
    Numbered ⟨run.states ++ [⟨run.objects, options⟩], run.objects + 1⟩ := by
  have old {a : Instance} (member : a ∈ run.states) : a.identity ≠ run.objects :=
    Nat.ne_of_lt (numbered.below a member)
  refine ⟨fun state member => ?_, fun identity inside => ?_, fun a left b right same => ?_⟩
  · rcases List.mem_append.mp member with before | last
    · exact Nat.lt_succ_of_lt (numbered.below state before)
    · rw [List.mem_singleton.mp last]
      exact Nat.lt_succ_self run.objects
  · rcases Nat.lt_succ_iff_lt_or_eq.mp inside with before | rfl
    · obtain ⟨state, member, known⟩ := numbered.used identity before
      exact ⟨state, List.mem_append_left _ member, known⟩
    · exact ⟨_, List.mem_append_right _ List.mem_cons_self, rfl⟩
  · -- No old object has the new identity, so only objects of one kind can share theirs.
    rcases List.mem_append.mp left with leftOld | leftNew <;>
      rcases List.mem_append.mp right with rightOld | rightNew
    · exact numbered.single a leftOld b rightOld same
    · rw [List.mem_singleton.mp rightNew] at same
      exact absurd same (old leftOld)
    · rw [List.mem_singleton.mp leftNew] at same
      exact absurd same.symm (old rightOld)
    · rw [List.mem_singleton.mp leftNew, List.mem_singleton.mp rightNew]

theorem numbered_apply (numbered : Numbered run) (inside : n < run.states.length) {step : Step}
    (setter : step.isSetter = true) : Numbered (run.apply n step) := by
  have there := receiver_of_state (List.getElem?_eq_getElem inside)
  rcases apply_setter run n setter with ⟨_, applied⟩ | ⟨_, applied⟩
  · rw [applied, there]
    exact numbered.again (List.getElem_mem inside)
  · rw [applied]
    exact numbered.made _

theorem length_apply (run : Derivation) (n : Nat) (step : Step) :
    (run.apply n step).states.length = run.states.length + 1 := by
  unfold apply
  dsimp only
  split <;> simp

theorem numbered_follow {plan : List (Nat × Step)} (numbered : Numbered run)
    (ordered : InOrder run.states.length plan)
    (setters : ∀ entry ∈ plan, entry.2.isSetter = true) : Numbered (run.follow plan) := by
  induction plan generalizing run with
  | nil => exact numbered
  | cons entry rest ih =>
    obtain ⟨first, later⟩ := List.forall_mem_cons.mp setters
    apply ih (numbered_apply numbered ordered.1 first)
    · rw [length_apply]
      exact ordered.2
    · exact later

theorem objects_follow {plan : List (Nat × Step)}
    (setters : ∀ entry ∈ plan, entry.2.isSetter = true) (run : Derivation) :
    (run.follow plan).objects = run.objects + run.changes plan := by
  induction plan generalizing run with
  | nil => rfl
  | cons entry rest ih =>
    obtain ⟨n, step⟩ := entry
    obtain ⟨first, later⟩ := List.forall_mem_cons.mp setters
    rw [follow, changes, ih later]
    rcases apply_setter run n first with ⟨same, applied⟩ | ⟨differs, applied⟩
    · simp [same, applied, alike_self]
    · simp [differs, applied, Nat.add_assoc]

theorem Numbered.distinct (numbered : Numbered run) :
    (run.states.map Instance.identity).dedup.length = run.objects := by
  have perm : (run.states.map Instance.identity).dedup.Perm (List.range run.objects) := by
    apply (List.perm_ext_iff_of_nodup (List.nodup_dedup _) List.nodup_range).mpr
    intro identity
    rw [List.mem_dedup, List.mem_map, List.mem_range]
    constructor
    · rintro ⟨state, member, rfl⟩
      exact numbered.below state member
    · exact numbered.used identity
  rw [perm.length_eq, List.length_range]

structure HandsBack (run : Derivation) (step : Step) (receiver result : Instance) : Prop where
  value : result.options = step.after receiver.options
  itself : result.identity = receiver.identity ↔ receiver.options.alike result.options = true
  /-- What is compared is the field that the step is on, with the truth of a flag's argument. -/
  field : ∀ part value, step.written? part = some value →
    (result.identity = receiver.identity ↔ (receiver.options.part part).alike value = true)
  fresh : result.identity = receiver.identity ∨
    ∀ state ∈ run.states, state.identity ≠ result.identity

structure IdentityTells (start : RawOptions) (plan : List (Nat × Step)) (run : Derivation) :
    Prop where
  objects : ∀ a ∈ run.states, ∀ b ∈ run.states, a.identity = b.identity → a = b
  steps : ∀ (n : Nat) (receiver : Instance), run.states[n]? = some receiver →
    ∀ step : Step, step.isSetter = true → ∃ result : Instance,
      (run.apply n step).states = run.states ++ [result] ∧ HandsBack run step receiver result ∧
      ((run.apply n step).apply run.states.length step).states = run.states ++ [result, result]
  count : (run.states.map Instance.identity).dedup.length =
    1 + (Derivation.start start).changes plan

theorem HandsBack.of_itself {step : Step} (setter : step.isSetter = true) {result : Instance}
    (value : result.options = step.after receiver.options)
    (itself : result.identity = receiver.identity ↔
      receiver.options.alike result.options = true)
    (fresh : result.identity = receiver.identity ∨
      ∀ state ∈ run.states, state.identity ≠ result.identity) :
    HandsBack run step receiver result := by
  refine ⟨value, itself, fun part held written => ?_, fresh⟩
  rw [itself, value, (Step.setter_field setter receiver.options written).1]

theorem handsBack_apply (numbered : Numbered run) (there : run.states[n]? = some receiver)
    {step : Step} (setter : step.isSetter = true) : ∃ result : Instance,
      (run.apply n step).states = run.states ++ [result] ∧ HandsBack run step receiver result := by
  have old : receiver.identity < run.objects :=
    numbered.below receiver (List.mem_of_getElem? there)
  have cases := apply_setter run n setter
  rw [receiver_of_state there] at cases
  rcases cases with ⟨same, applied⟩ | ⟨differs, applied⟩
  · refine ⟨receiver, by rw [applied], .of_itself setter same.symm ?_ (Or.inl rfl)⟩
    simp [alike_self]
  · refine ⟨_, by rw [applied], .of_itself setter rfl ?_ (Or.inr fun state member => ?_)⟩
    · simp [differs, Nat.ne_of_gt old]
    · exact Nat.ne_of_lt (numbered.below state member)

theorem apply_again {step : Step} (setter : step.isSetter = true) {result : Instance}
    (states : (run.apply n step).states = run.states ++ [result])
    (value : result.options = step.after receiver.options) :
    ((run.apply n step).apply run.states.length step).states =
      run.states ++ [result, result] := by
  have last : (run.apply n step).states[run.states.length]? = some result := by
    rw [states]
    simp
  have cases := apply_setter (run.apply n step) run.states.length setter
  rw [receiver_of_state last] at cases
  rcases cases with ⟨_, applied⟩ | ⟨differs, _⟩
  · rw [applied, states]
    simp
  · rw [value, Step.setter_settled setter receiver.options] at differs
    cases differs

/-- A setter hands back its receiver exactly if nothing changes, and otherwise a new object; so a
run of setters has one object more than it has changes. -/
theorem identity_tells_change (start : RawOptions) {plan : List (Nat × Step)}
    (ordered : InOrder 1 plan) (setters : ∀ entry ∈ plan, entry.2.isSetter = true) :
    IdentityTells start plan ((Derivation.start start).follow plan) := by
  have numbered := numbered_follow (numbered_start start) ordered setters
  refine ⟨numbered.single, fun n receiver there step setter => ?_, ?_⟩
  · obtain ⟨result, states, handed⟩ := handsBack_apply numbered there setter
    exact ⟨result, states, handed, apply_again setter states handed.value⟩
  · rw [numbered.distinct, objects_follow setters]
    rfl

def togglingPlan : List (Nat × Step) := [
  (0, .flag .comments (.int 0)),
  (1, .flag .comments (.arr [])),
  (0, .namedFlag (.str (Text.ofString "formatted")) (.str (Text.ofString "no"))),
  (0, .commentPrefix .null),
  (1, .commentPrefix (.str (Text.ofString "//"))),
  (1, .flag .comments (.bool true))]

theorem toggling_identities_tell :
    IdentityTells (ofOptions Preset.defaults.options) togglingPlan
      ((Derivation.start (ofOptions Preset.defaults.options)).follow togglingPlan) ∧
    ((Derivation.start (ofOptions Preset.defaults.options)).follow togglingPlan).states.map
      Instance.identity = [0, 1, 1, 0, 0, 2, 3] := by
  refine ⟨identity_tells_change (ofOptions Preset.defaults.options) ?_ ?_, by decide⟩
  · simp [togglingPlan, InOrder]
  · simp [togglingPlan, Step.isSetter]

end Derivation
end RawOptions
end HoconRender
