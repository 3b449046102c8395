import HoconRender.Proofs.CommandLine.Descent

/-
What an accepted line sets its switches to. Each holds what the last word says that is one of its
two spellings, or an abbreviation of one; a switch that no word names stays unset.
-/
namespace HoconRender.CommandLine

section LastGiven

variable {α β σ : Type} {given : α → Option β} {items : List α}

def lastGiven? (given : α → Option β) (items : List α) : Option β :=
  (items.filterMap given).getLast?

theorem lastGiven?_cons (given : α → Option β) (item : α) (rest : List α) :
    lastGiven? given (item :: rest) = (lastGiven? given rest).or (given item) := by
  unfold lastGiven?
  cases found : given item with
  | none => simp [found]
  | some value =>
    cases later : (rest.filterMap given).getLast? <;> simp [found, List.getLast?_cons, later]

theorem lastGiven?_eq_none (nothing : ∀ item ∈ items, given item = none) :
    lastGiven? given items = none := by
  simpa [lastGiven?] using nothing

theorem lastGiven?_map {γ : Type} (given : α → Option β) (f : β → γ) (items : List α) :
    lastGiven? (fun item => (given item).map f) items = (lastGiven? given items).map f := by
  unfold lastGiven?
  rw [← List.getLast?_map, List.map_filterMap]

theorem lastGiven?_mem {value : β} (last : lastGiven? given items = some value) :
    ∃ item ∈ items, given item = some value :=
  List.mem_filterMap.mp (List.mem_of_getLast? last)

/-- A field that every step either writes or leaves holds what the last step wrote. -/
theorem read_foldl {step : σ → α → σ} (read : σ → Option β)
    (steps : ∀ state item, read (step state item) = (given item).or (read state))
    (items : List α) (start : σ) :
    read (items.foldl step start) = (lastGiven? given items).or (read start) := by
  induction items generalizing start with
  | nil => rfl
  | cons item rest ih =>
    rw [List.foldl_cons, ih, steps, lastGiven?_cons, Option.or_assoc]

end LastGiven

def Effect.toggle? (flag : Flag) : Effect → Option Bool
  | .flag other value => if other = flag then some value else none
  | _ => none

def Word.toggle? (flag : Flag) (word : Word) : Option Bool :=
  match word.kind with
  | .known spelling _ => spelling.effect.toggle? flag
  | _ => none

theorem toggle_spelling {command : Command} {spelling : Spelling}
    (member : spelling ∈ command.spellings) {flag : Flag} {value : Bool}
    (toggles : spelling.effect.toggle? flag = some value) :
    spelling.name.startsWith separatorText = true ∧ spelling.name.length ≠ 2 := by
  have table : ∀ spelling ∈ command.spellings, ∀ flag ∈ Flag.all,
      (spelling.effect.toggle? flag).isSome = true →
      spelling.name.startsWith separatorText = true ∧ spelling.name.length ≠ 2 := by
    cases command <;> decide
  exact table spelling member flag (Flag.mem_all flag) (by simp [toggles])

theorem cluster_toggle {command : Command} {spelling : Spelling}
    (member : spelling ∈ command.spellings) {letters : Text} {found : List Effect}
    (read : cluster command.spellings spelling letters = .ok found) (flag : Flag) :
    ∀ effect ∈ found, effect.toggle? flag = none := by
  have own (short : ¬ spelling.name.startsWith separatorText = true) :
      spelling.effect.toggle? flag = none := by
    cases toggles : spelling.effect.toggle? flag with
    | none => rfl
    | some value => exact absurd (toggle_spelling member toggles).1 short
  induction letters generalizing spelling found with
  | nil => cases read
  | cons letter rest ih =>
    unfold cluster at read
    split at read
    · cases read
    rename_i short
    split at read
    · cases read
    rename_i next listed
    have inside := findSpelling_mem listed
    have name : next.name = [hyphen, letter] := by simpa using List.find?_some listed
    have unset : next.effect.toggle? flag = none := by
      cases toggles : next.effect.toggle? flag with
      | none => rfl
      | some value => exact absurd (by simp [name]) (toggle_spelling inside toggles).2
    split at read
    · cases read
      simp [own short, unset]
    · obtain ⟨more, later, rfl⟩ := Outcome.map_ok_iff.mp read
      exact List.forall_mem_cons.mpr ⟨own short, ih inside later fun _ => unset⟩

theorem effects_toggle {command : Command} {spelling : Spelling}
    (member : spelling ∈ command.spellings) {value : Option Text} {found : List Effect}
    (read : effects command.spellings spelling value = .ok found) (flag : Flag) :
    lastGiven? (Effect.toggle? flag) found = spelling.effect.toggle? flag := by
  cases value with
  | none =>
    cases read
    exact lastGiven?_cons ..
  | some letters =>
    have unset := cluster_toggle member read flag
    obtain ⟨more, rfl⟩ := cluster_head read
    rw [lastGiven?_eq_none unset, unset _ (List.mem_cons_self ..)]

theorem toggle?_of_takesValue {effect : Effect} (takes : effect.takesValue = true) (flag : Flag) :
    effect.toggle? flag = none := by
  cases effect with
  | flag other value => cases takes
  | _ => rfl

namespace Arguments

variable {command : Command} {start found : Arguments}

theorem supply_flags (arguments : Arguments) (value : Supplied) (effect : Effect) :
    (arguments.supply value effect).flags = arguments.flags := by
  cases effect <;> rfl

theorem accept_ok {spelling : Spelling} {text : Text}
    (taken : accept command spelling text start = .ok found) :
    found = start.supply (.text text) spelling.effect := by
  unfold accept at taken
  dsimp only at taken
  split at taken
  · cases taken
    rfl
  · cases taken

theorem acceptAssigned_ok {spelling : Spelling} {text : Text}
    (taken : acceptAssigned command spelling text start = .ok found) :
    ∃ value, found = start.supply value spelling.effect := by
  unfold acceptAssigned at taken
  split at taken
  · cases taken
    exact ⟨_, rfl⟩
  · exact ⟨_, accept_ok taken⟩

theorem perform_flags {effects : List Effect} (performed : perform command effects start = .ok found)
    (flag : Flag) :
    found.flags.get flag =
      (lastGiven? (Effect.toggle? flag) effects).or (start.flags.get flag) := by
  induction effects generalizing start with
  | nil =>
    cases performed
    rfl
  | cons effect rest ih =>
    rw [lastGiven?_cons, Option.or_assoc]
    cases effect with
    | help => cases performed
    | version => cases performed
    | verbose =>
      have later : perform command rest { start with verbose := true } = .ok found := performed
      have settled := ih later
      exact settled
    | flag other value =>
      rw [ih performed, Flags.get_set]
      by_cases same : other = flag
      · subst other
        simp [Effect.toggle?]
      · simp [Effect.toggle?, same, Ne.symm same]
    | _ => exact ih performed

theorem leaveOver_ok {word : Text} {read : Except Stop (Arguments × List Text)}
    {found : Arguments} {left : List Text} (taken : leaveOver word read = .ok (found, left)) :
    ∃ rest, read = .ok (found, rest) := by
  unfold leaveOver at taken
  split at taken
  · cases taken
    exact ⟨_, rfl⟩
  · cases taken

/-- A switch holds what the last word says that is about it. -/
theorem ofWords_flags {line : List Word} (stems : ∀ word ∈ line, Stems command.spellings word)
    {left : List Text} (read : ofWords command line start = .ok (found, left)) (flag : Flag) :
    found.flags.get flag =
      (lastGiven? (Word.toggle? flag) line).or (start.flags.get flag) := by
  induction line, start using ofWords.induct generalizing found left with
  | case1 start =>
    cases read
    rfl
  | case2 text rest start ih =>
    obtain ⟨_, behind⟩ := leaveOver_ok read
    rw [lastGiven?_cons]
    simpa [Word.toggle?] using ih (List.forall_mem_cons.mp stems).2 behind
  | case3 text rest start ih =>
    obtain ⟨_, behind⟩ := leaveOver_ok read
    rw [lastGiven?_cons]
    simpa [Word.toggle?] using ih (List.forall_mem_cons.mp stems).2 behind
  | case4 text rest start ih =>
    obtain ⟨_, behind⟩ := leaveOver_ok read
    rw [lastGiven?_cons]
    simpa [Word.toggle?] using ih (List.forall_mem_cons.mp stems).2 behind
  | case5 name spelling start takes value rest ih =>
    unfold ofWords at read
    rw [if_pos takes] at read
    obtain ⟨next, taken, read⟩ := Outcome.bind_ok_iff.mp read
    obtain ⟨supplied, rfl⟩ := acceptAssigned_ok taken
    rw [lastGiven?_cons, ih _ (List.forall_mem_cons.mp stems).2 read, supply_flags, Option.or_assoc]
    simp [Word.toggle?, toggle?_of_takesValue takes]
  | case6 name spelling start takes value rest ih =>
    unfold ofWords at read
    rw [if_pos takes] at read
    obtain ⟨next, taken, read⟩ := Outcome.bind_ok_iff.mp read
    obtain rfl := accept_ok taken
    have behind := (List.forall_mem_cons.mp (List.forall_mem_cons.mp stems).2).2
    rw [lastGiven?_cons, lastGiven?_cons, ih _ behind read, supply_flags, Option.or_assoc,
      Option.or_assoc]
    simp [Word.toggle?, toggle?_of_takesValue takes]
  | case7 name spelling rest start takes noValue =>
    unfold ofWords at read
    rw [if_pos takes] at read
    split at read
    · rename_i same
      cases same
    · exact absurd rfl (noValue _ _)
    · cases read
  | case8 name spelling value rest start takes ih =>
    obtain ⟨own, behind⟩ := List.forall_mem_cons.mp stems
    unfold ofWords at read
    rw [if_neg takes] at read
    obtain ⟨listed, meant, read⟩ := Outcome.bind_ok_iff.mp read
    obtain ⟨next, performed, read⟩ := Outcome.bind_ok_iff.mp read
    rw [lastGiven?_cons, ih _ behind read, perform_flags performed, Option.or_assoc]
    congr 2
    exact effects_toggle (stems_known own) (usage_ok_iff.mp meant) flag

end Arguments

theorem parse_inspect_flags {line : List Text} {arguments : Arguments}
    (accepted : parse line = .ok (.inspect arguments)) :
    ∃ rest found, line = inspectLine rest ∧ words Command.inspect.spellings rest = .ok found ∧
      ∀ flag, arguments.flags.get flag = lastGiven? (Word.toggle? flag) found := by
  obtain ⟨rest, rfl, read⟩ := parse_inspect_words accepted
  obtain ⟨found, told, read⟩ := Outcome.bind_ok_iff.mp read
  have told := usage_ok_iff.mp told
  refine ⟨rest, found, rfl, told, ?_⟩
  intro flag
  have unset : Arguments.unset.flags.get flag = none := by cases flag <;> rfl
  rw [Arguments.ofWords_flags (words_ok_stems told).2 read, unset, Option.or_none]

end HoconRender.CommandLine
