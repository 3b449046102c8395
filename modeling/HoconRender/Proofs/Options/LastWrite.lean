import HoconRender.Options.Derivation
import HoconRender.Proofs.Outcome

/-
Derivations over branching runs, from options whose flags are truth values. A step writes one field
or none, so every field of a state is told by the path that leads to it: it holds what the last
step that wrote it wrote. A refused step writes nothing, and no step touches the states before it.
-/
namespace HoconRender

theorem Flag.ofName?_eq_some_iff (name : Text) (flag : Flag) :
    Flag.ofName? name = some flag ↔ name = flag.displayName ∨ name = flag.fieldName := by
  constructor
  · intro found
    have named := List.find?_some found
    rcases (Bool.or_eq_true ..).mp named with display | field
    · exact Or.inl (eq_of_beq display).symm
    · exact Or.inr (eq_of_beq field).symm
  · rintro (rfl | rfl)
    · exact Flag.ofName?_displayName flag
    · exact Flag.ofName?_fieldName flag

inductive Part where
  | flag (flag : Flag)
  | commentPrefix
deriving DecidableEq

namespace RenderOptions

theorem flagOf_text_ok_iff (name : Text) (flag : Flag) :
    flagOf (.text name) = .ok flag ↔ name = flag.displayName ∨ name = flag.fieldName := by
  rw [← Flag.ofName?_eq_some_iff]
  cases found : Flag.ofName? name <;> simp [flagOf, found]

theorem flagNamed_ok_iff (name : Json) (flag : Flag) :
    flagNamed name = .ok flag ↔ name = .str flag.displayName ∨ name = .str flag.fieldName := by
  cases name with
  | str text =>
    rw [Json.str.injEq, Json.str.injEq]
    exact flagOf_text_ok_iff text flag
  | _ => simp [flagNamed, flagOf, Key.ofJson?]

def part (options : RenderOptions) : Part → Json
  | .flag flag => .bool (options.get flag)
  | .commentPrefix => .str options.commentPrefix

theorem ext_parts {a b : RenderOptions} (same : ∀ part, a.part part = b.part part) : a = b := by
  apply ext_fields
  · intro flag
    exact Json.bool.inj (same (.flag flag))
  · exact Json.str.inj (same .commentPrefix)

theorem part_set (options : RenderOptions) (chosen : Flag) (value : Bool) (part : Part) :
    (options.set chosen value).part part =
      if part = .flag chosen then .bool value else options.part part := by
  cases part with
  | flag flag =>
    simp only [part, get_set, Part.flag.injEq]
    split <;> rfl
  | commentPrefix => rfl

end RenderOptions

namespace RawOptions

theorem bool_of_alike {x y : Bool} (alike : (Json.bool x).alike (.bool y) = true) : x = y := by
  revert alike
  cases x <;> cases y <;> decide

theorem withFlag_ofOptions (options : RenderOptions) (chosen : Flag) (value : Json) :
    ((ofOptions options).withFlag chosen value).value (ofOptions options) =
      ofOptions (options.set chosen value.truthy) := by
  unfold withFlag
  split
  · rename_i alike
    rw [get_ofOptions] at alike
    rw [← bool_of_alike alike, RenderOptions.set_get]
    rfl
  · exact set_ofOptions options chosen value.truthy

theorem withCommentPrefix_ofOptions (options : RenderOptions) (t : Text) :
    ((ofOptions options).withCommentPrefix t).value (ofOptions options) =
      ofOptions { options with commentPrefix := t } := by
  unfold withCommentPrefix
  split
  · rename_i same
    rw [eq_of_beq same]
    rfl
  · rfl

namespace Step

def part? : Step → Option Part
  | .flag chosen _ => some (.flag chosen)
  | .namedFlag name _ => (RenderOptions.flagNamed name).toOption.map .flag
  | .commentPrefix _ => some .commentPrefix
  | _ => none

def Refused : Step → Prop
  | .flag _ _ => False
  | .namedFlag name _ => ∀ flag : Flag, name ≠ .str flag.displayName ∧ name ≠ .str flag.fieldName
  | .commentPrefix value => ∀ t, value ≠ .str t
  | .roundTrip => False
  | .assign _ => True
  | .delete _ => True

def value? : Step → Option Json
  | .flag _ value => some (.bool value.truthy)
  | .namedFlag _ value => some (.bool value.truthy)
  | .commentPrefix (.str t) => some (.str t)
  | _ => none

def written? (step : Step) (part : Part) : Option Json :=
  if step.part? = some part then step.value? else none

def write (step : Step) (options : RenderOptions) : RenderOptions :=
  match step with
  | .flag chosen value => options.set chosen value.truthy
  | .namedFlag name value =>
    match RenderOptions.flagNamed name with
    | .ok chosen => options.set chosen value.truthy
    | .error _ => options
  | .commentPrefix (.str t) => { options with commentPrefix := t }
  | _ => options

theorem write_part (step : Step) (options : RenderOptions) (part : Part) :
    (step.write options).part part = (step.written? part).getD (options.part part) := by
  cases step with
  | flag chosen value =>
    by_cases same : part = .flag chosen
    · simp [write, written?, part?, value?, RenderOptions.part_set, same]
    · simp [write, written?, part?, RenderOptions.part_set, same, Ne.symm same]
  | namedFlag name value =>
    cases named : RenderOptions.flagNamed name with
    | ok chosen =>
      by_cases same : part = .flag chosen
      · simp [write, written?, part?, value?, RenderOptions.part_set, same, named, Except.toOption]
      · simp [write, written?, part?, RenderOptions.part_set, same, Ne.symm same, named,
          Except.toOption]
    | error rejection => simp [write, written?, part?, named, Except.toOption]
  | commentPrefix value =>
    cases part with
    | flag flag => cases value <;> rfl
    | commentPrefix => cases value <;> rfl
  | _ => rfl

theorem namedFlag_refused_iff (name value : Json) :
    (namedFlag name value).Refused ↔ ∀ flag, RenderOptions.flagNamed name ≠ .ok flag := by
  constructor
  · intro refused flag named
    rcases (RenderOptions.flagNamed_ok_iff name flag).mp named with display | field
    · exact (refused flag).1 display
    · exact (refused flag).2 field
  · intro unnamed flag
    have other := mt (RenderOptions.flagNamed_ok_iff name flag).mpr (unnamed flag)
    exact not_or.mp other

/-- A step on such options is refused and writes nothing, or succeeds with what it writes. -/
theorem run_ofOptions (step : Step) (options : RenderOptions) :
    (step.Refused ∧ step.write options = options ∧
      ∃ fault, step.run (ofOptions options) = .error fault) ∨
    (¬ step.Refused ∧ ∃ product, step.run (ofOptions options) = .ok product ∧
      product.value (ofOptions options) = ofOptions (step.write options)) := by
  cases step with
  | flag chosen value =>
    exact Or.inr ⟨not_false, _, rfl, withFlag_ofOptions options chosen value⟩
  | namedFlag name value =>
    rw [namedFlag_refused_iff]
    cases named : RenderOptions.flagNamed name with
    | ok chosen =>
      refine Or.inr ⟨fun refused => refused chosen rfl,
        (ofOptions options).withFlag chosen value, by simp [run, named], ?_⟩
      simp only [write, named]
      exact withFlag_ofOptions options chosen value
    | error fault =>
      exact Or.inl ⟨by simp, by simp [write, named], .refused fault, by simp [run, named]⟩
  | commentPrefix value =>
    cases value with
    | str t =>
      exact Or.inr ⟨fun refused => refused t rfl, _, rfl, withCommentPrefix_ofOptions options t⟩
    | _ => exact Or.inl ⟨by simp [Refused], rfl, _, rfl⟩
  | roundTrip =>
    have mapping : (ofOptions options).toMapping = options.toMapping := by
      unfold toMapping RenderOptions.toMapping
      rw [toMembers_ofOptions]
    refine Or.inr ⟨not_false, .fresh (ofOptions options), ?_, rfl⟩
    simp only [run, mapping, RenderOptions.ofMapping_toMapping]
  | assign field => cases field <;> exact Or.inl ⟨trivial, rfl, _, rfl⟩
  | delete field => cases field <;> exact Or.inl ⟨trivial, rfl, _, rfl⟩

theorem written?_isSome_iff (step : Step) (part : Part) :
    (step.written? part).isSome = true ↔ step.part? = some part ∧ ¬ step.Refused := by
  unfold written?
  by_cases on : step.part? = some part
  · have written : step.value?.isSome = true ↔ ¬ step.Refused := by
      cases step with
      | namedFlag name value =>
        rw [namedFlag_refused_iff]
        obtain ⟨chosen, named, _⟩ := Option.map_eq_some_iff.mp on
        cases known : RenderOptions.flagNamed name with
        | ok flag => simp [value?]
        | error rejection => simp [known, Except.toOption] at named
      | commentPrefix value => cases value <;> simp [value?, Refused]
      | flag chosen value => simp [value?, Refused]
      | _ => cases on
    simp [on, written]
  · simp [on]

def after (step : Step) (receiver : RawOptions) : RawOptions :=
  match step.run receiver with
  | .ok product => product.value receiver
  | .error _ => receiver

theorem after_ofOptions (step : Step) (options : RenderOptions) :
    step.after (ofOptions options) = ofOptions (step.write options) := by
  unfold after
  rcases step.run_ofOptions options with ⟨_, same, _, failed⟩ | ⟨_, _, done, value⟩
  · rw [failed, same]
  · rw [done]
    exact value

theorem refused_iff_fails (step : Step) (options : RenderOptions) :
    step.Refused ↔ ∃ fault, step.run (ofOptions options) = .error fault := by
  rcases step.run_ofOptions options with ⟨refused, _, failed⟩ | ⟨taken, _, done, _⟩
  · exact ⟨fun _ => failed, fun _ => refused⟩
  · constructor
    · intro refused
      exact absurd refused taken
    · rintro ⟨fault, failed⟩
      cases done.symm.trans failed

theorem write_commutes {first second : Step} (apart : first.part? ≠ second.part?)
    (options : RenderOptions) :
    second.write (first.write options) = first.write (second.write options) := by
  apply RenderOptions.ext_parts
  intro part
  rw [write_part, write_part, write_part, write_part]
  by_cases on : second.part? = some part
  · have other : first.written? part = none := by
      rw [written?, if_neg (on ▸ apart)]
    simp [other]
  · have other : second.written? part = none := by
      rw [written?, if_neg on]
    simp [other]

theorem write_absorbs {first second : Step} (same : first.part? = second.part?)
    (taken : ¬ second.Refused) (options : RenderOptions) :
    second.write (first.write options) = second.write options := by
  apply RenderOptions.ext_parts
  intro part
  rw [write_part, write_part, write_part]
  by_cases on : second.part? = some part
  · obtain ⟨value, written⟩ := Option.isSome_iff_exists.mp
      ((second.written?_isSome_iff part).mpr ⟨on, taken⟩)
    simp [written]
  · have other : first.written? part = none := by
      rw [written?, if_neg (same ▸ on)]
    simp [other]

end Step

def outcome (start : RenderOptions) (path : List Step) : RenderOptions :=
  path.foldr Step.write start

theorem outcome_part (start : RenderOptions) (path : List Step) (part : Part) :
    (outcome start path).part part =
      (path.findSome? fun step => step.written? part).getD (start.part part) := by
  induction path with
  | nil => rfl
  | cons step rest ih =>
    change (step.write (outcome start rest)).part part = _
    rw [Step.write_part, ih, List.findSome?_cons]
    cases step.written? part <;> rfl

namespace Derivation

def follow (run : Derivation) : List (Nat × Step) → Derivation
  | [] => run
  | (state, step) :: rest => (run.apply state step).follow rest

/-- For every state the steps that lead to it. -/
def paths (known : List (List Step)) : List (Nat × Step) → List (List Step)
  | [] => known
  | (state, step) :: rest => paths (known ++ [step :: (known[state]?).getD []]) rest

def InOrder (count : Nat) : List (Nat × Step) → Prop
  | [] => True
  | (state, _) :: rest => state < count ∧ InOrder (count + 1) rest

def Tells (start : RenderOptions) (run : Derivation) (known : List (List Step)) : Prop :=
  run.states.map Instance.options = known.map fun path => ofOptions (outcome start path)

theorem apply_ofOptions {run : Derivation} {n : Nat} {receiver : Instance}
    {options : RenderOptions} (there : run.states[n]? = some receiver)
    (holds : receiver.options = ofOptions options) (step : Step) :
    ∃ state : Instance, (run.apply n step).states = run.states ++ [state] ∧
      state.options = ofOptions (step.write options) ∧ (step.Refused → state = receiver) := by
  have known : run.receiver n = receiver := by
    unfold Derivation.receiver
    rw [there]
    rfl
  unfold apply
  dsimp only
  rw [known, holds]
  rcases step.run_ofOptions options with ⟨_, same, _, failed⟩ | ⟨taken, product, done, value⟩
  · rw [failed]
    exact ⟨receiver, rfl, by rw [same, holds], fun _ => rfl⟩
  · rw [done]
    cases product with
    | receiver => exact ⟨receiver, rfl, holds.trans value, fun _ => rfl⟩
    | fresh made => exact ⟨_, rfl, value, fun refused => absurd refused taken⟩

variable {start : RenderOptions} {run : Derivation} {known : List (List Step)}

theorem start_tells (start : RenderOptions) :
    Tells start (Derivation.start (ofOptions start)) [[]] := rfl

theorem tells_count (tells : Tells start run known) : run.states.length = known.length := by
  have lengths := congrArg List.length tells
  simpa using lengths

theorem tells_state (tells : Tells start run known) {n : Nat} {receiver : Instance}
    (there : run.states[n]? = some receiver) :
    ∃ path, known[n]? = some path ∧ receiver.options = ofOptions (outcome start path) := by
  have at_n := congrArg (fun states => states[n]?) tells
  simp only [List.getElem?_map, there, Option.map_some] at at_n
  obtain ⟨path, led, same⟩ := Option.map_eq_some_iff.mp at_n.symm
  exact ⟨path, led, same.symm⟩

theorem tells_apply (tells : Tells start run known) {n : Nat} (inside : n < run.states.length)
    (step : Step) :
    Tells start (run.apply n step) (known ++ [step :: (known[n]?).getD []]) := by
  have there := List.getElem?_eq_getElem inside
  obtain ⟨path, led, holds⟩ := tells_state tells there
  obtain ⟨state, states, options, _⟩ := apply_ofOptions there holds step
  unfold Tells at tells ⊢
  rw [states, List.map_append, List.map_append, tells, led]
  simp only [List.map_cons, List.map_nil, Option.getD_some, options]
  rfl

theorem tells_follow {plan : List (Nat × Step)} (tells : Tells start run known)
    (ordered : InOrder run.states.length plan) :
    Tells start (run.follow plan) (paths known plan) := by
  induction plan generalizing run known with
  | nil => exact tells
  | cons entry rest ih =>
    obtain ⟨n, step⟩ := entry
    have next := tells_apply tells ordered.1 step
    apply ih next
    have count := tells_count next
    rw [List.length_append, ← tells_count tells] at count
    rw [count]
    exact ordered.2

theorem length_paths (known : List (List Step)) (plan : List (Nat × Step)) :
    (paths known plan).length = known.length + plan.length := by
  induction plan generalizing known with
  | nil => rfl
  | cons entry rest ih =>
    obtain ⟨n, step⟩ := entry
    rw [paths, ih]
    simp only [List.length_append, List.length_cons, List.length_nil]
    omega

theorem states_prefix_apply (run : Derivation) (n : Nat) (step : Step) :
    run.states <+: (run.apply n step).states := by
  unfold apply
  dsimp only
  split <;> exact List.prefix_append _ _

theorem states_prefix_follow (run : Derivation) (plan : List (Nat × Step)) :
    run.states <+: (run.follow plan).states := by
  induction plan generalizing run with
  | nil => exact List.prefix_refl _
  | cons entry rest ih =>
    exact (states_prefix_apply run entry.1 entry.2).trans (ih (run.apply entry.1 entry.2))

structure LastWriteWins (start : RenderOptions) (plan : List (Nat × Step)) (run : Derivation) :
    Prop where
  count : run.states.length = plan.length + 1
  values : ∀ (n : Nat) (state : Instance), run.states[n]? = some state →
    ∃ (path : List Step) (options : RenderOptions), (paths [[]] plan)[n]? = some path ∧
      state.options = ofOptions options ∧ ∀ part,
        options.part part = (path.findSome? fun step => step.written? part).getD (start.part part)
  written : ∀ (step : Step) (part : Part),
    (step.written? part).isSome = true ↔ step.part? = some part ∧ ¬ step.Refused
  /-- A step on a state adds one state behind those that are there. It fails exactly if it is
  refused, and then the new state is its receiver. -/
  steps : ∀ (n : Nat) (receiver : Instance), run.states[n]? = some receiver → ∀ step : Step,
    (step.Refused ↔ ∃ fault, step.run receiver.options = .error fault) ∧
    ∃ state : Instance, (run.apply n step).states = run.states ++ [state] ∧
      state.options = step.after receiver.options ∧ (step.Refused → state = receiver)
  earlier : ∀ later, run.states <+: (run.follow later).states
  commute : ∀ receiver ∈ run.states, ∀ first second : Step, first.part? ≠ second.part? →
    second.after (first.after receiver.options) = first.after (second.after receiver.options)
  absorb : ∀ receiver ∈ run.states, ∀ first second : Step, first.part? = second.part? →
    ¬ second.Refused →
    second.after (first.after receiver.options) = second.after receiver.options

/-- Every field of a state holds what the last step that wrote it on the way there wrote, and no
step changes a state before it. -/
theorem last_write_wins (start : RenderOptions) {plan : List (Nat × Step)}
    (ordered : InOrder 1 plan) :
    LastWriteWins start plan ((Derivation.start (ofOptions start)).follow plan) := by
  have tells := tells_follow (start_tells start) ordered
  have plain (receiver : Instance)
      (member : receiver ∈ ((Derivation.start (ofOptions start)).follow plan).states) :
      ∃ options, receiver.options = ofOptions options := by
    obtain ⟨n, there⟩ := List.mem_iff_getElem?.mp member
    obtain ⟨path, _, holds⟩ := tells_state tells there
    exact ⟨outcome start path, holds⟩
  refine ⟨?_, ?_, Step.written?_isSome_iff, ?_, states_prefix_follow _, ?_, ?_⟩
  · rw [tells_count tells, length_paths]
    exact Nat.add_comm 1 plan.length
  · intro n state there
    obtain ⟨path, led, holds⟩ := tells_state tells there
    exact ⟨path, outcome start path, led, holds, outcome_part start path⟩
  · intro n receiver there step
    obtain ⟨path, _, holds⟩ := tells_state tells there
    obtain ⟨state, states, options, same⟩ := apply_ofOptions there holds step
    rw [holds]
    exact ⟨step.refused_iff_fails _, state, states, by rw [options, step.after_ofOptions], same⟩
  · intro receiver member first second apart
    obtain ⟨options, holds⟩ := plain receiver member
    simp only [holds, Step.after_ofOptions, Step.write_commutes apart]
  · intro receiver member first second same taken
    obtain ⟨options, holds⟩ := plain receiver member
    simp only [holds, Step.after_ofOptions, Step.write_absorbs same taken]

def branchingPlan : List (Nat × Step) := [
  (0, .flag .comments (.str (Text.ofString "no"))),
  (0, .commentPrefix (.int 5)),
  (1, .namedFlag (.str (Text.ofString "originComments")) (.arr [])),
  (1, .namedFlag (.str (Text.ofString "origin")) (.bool true)),
  (3, .roundTrip),
  (5, .commentPrefix (.str (Text.ofString "//"))),
  (6, .flag .comments .null)]

theorem branching_last_write_wins :
    LastWriteWins Preset.concise.options branchingPlan
      ((Derivation.start (ofOptions Preset.concise.options)).follow branchingPlan) ∧
    ((Derivation.start (ofOptions Preset.concise.options)).follow branchingPlan).states[7]?.map
      Instance.options =
        some (ofOptions ⟨⟨false, false, false, true, true⟩, Text.ofString "//"⟩) := by
  refine ⟨last_write_wins Preset.concise.options ?_, by decide⟩
  simp [branchingPlan, InOrder]

end Derivation
end RawOptions
end HoconRender
