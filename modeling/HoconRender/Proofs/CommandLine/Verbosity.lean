import HoconRender.Proofs.CommandLine.Canonical
import HoconRender.Proofs.CommandLine.Inspection
import HoconRender.Proofs.Loading.Debugging
import HoconRender.Proofs.Loading.ShownOptions
import HoconRender.Proofs.Text.Lines

/-
What a run that shows options changes when it is asked for remarks and for the whole log, or when
debugging is turned on or off in its settings: lines that are remarks come or go, and the log shows
more or less. What is shown, how the run ends and what it warns of stay as they are.
-/
namespace HoconRender.CommandLine

section Remarks

def magnifyingGlass : Nat := 0x1F50D

def isRemark (line : Text) : Bool := line.startsWith [magnifyingGlass, 0x20]

/-- An output without the lines that are remarks. -/
def withoutRemarks (output : Text) : Text :=
  Text.join [Text.newline] ((Text.splitAt Text.newline output).filter fun line => !isRemark line)

theorem withoutRemarks_remark (verbose : Bool) {message : Text} (single : Text.newline ∉ message)
    (rest : Text) : withoutRemarks (remark verbose message ++ rest) = withoutRemarks rest := by
  cases verbose with
  | false => rfl
  | true =>
    have clean : Text.newline ∉ magnifyingGlass :: 0x20 :: message := by
      simp [Text.newline, magnifyingGlass] at single ⊢
      exact single
    have split : Text.splitAt Text.newline (remark true message ++ rest) =
        (magnifyingGlass :: 0x20 :: message) :: Text.splitAt Text.newline rest := by
      rw [← Text.splitAt_marked clean rest]
      simp [remark, Text.line, magnifyingGlass, Text.ofString]
    unfold withoutRemarks
    rw [split, List.filter_cons_of_neg]
    simp [isRemark, Text.startsWith, Text.dropHead?]

theorem withoutRemarks_remarks (verbose : Bool) (config : Config) (rest : Text) :
    withoutRemarks (remarks verbose config ++ rest) = withoutRemarks rest := by
  have preset : Text.newline ∉ Text.ofString "Preset: " ++ config.render.preset.name := by
    cases config.render.preset <;> decide
  have commentPrefix : Text.newline ∉
      Text.ofString "Comment prefix: " ++ config.toOptions.commentPrefix.quoted := by
    have label : Text.newline ∉ Text.ofString "Comment prefix: " := by decide
    simp [label, Text.newline_not_quoted]
  unfold remarks
  dsimp only
  rw [List.append_assoc, List.append_assoc, withoutRemarks_remark verbose preset,
    withoutRemarks_remark verbose commentPrefix]
  split
  · exact withoutRemarks_remark verbose (by decide) rest
  · rfl

theorem withoutRemarks_clean {t : Text} (clean : magnifyingGlass ∉ t) : withoutRemarks t = t := by
  have plain : ∀ line ∈ Text.splitAt Text.newline t, (!isRemark line) = true := by
    intro line member
    cases line with
    | nil => rfl
    | cons c line =>
      have other : magnifyingGlass ≠ c := by
        rintro rfl
        exact clean (Text.mem_of_mem_splitAt member List.mem_cons_self)
      simp [isRemark, Text.startsWith, Text.dropHead?, other]
  unfold withoutRemarks
  rw [List.filter_eq_self.mpr plain, Text.join_splitAt]

theorem summary_portable (options : RenderOptions) : options.summary.Portable := by
  have names : ∀ flag : Flag, flag.displayName.Portable := by
    intro flag
    cases flag <;> decide
  have listed : Text.Portable (Text.join (Text.ofString ",")
      (options.enabled.map Flag.displayName)) := by
    apply Text.portable_join (by decide)
    intro name member
    obtain ⟨flag, _, rfl⟩ := List.mem_map.mp member
    exact names flag
  exact Text.portable_append (Text.portable_append (by decide) listed) (by decide)

theorem optionsText_portable (json : Bool) {options : RenderOptions}
    (characters : options.commentPrefix.WellFormed) : (optionsText json options).Portable := by
  cases json with
  | false => exact Text.portable_append (summary_portable options) (by decide)
  | true =>
    exact Text.portable_append
      (Json.indented_portable (RenderOptions.toMembers_plain characters 0) 0) (by decide)

theorem withoutRemarks_showConfig (arguments : Arguments) {config : Config}
    (acceptable : config.render.Acceptable) :
    withoutRemarks (showConfig arguments config) =
      optionsText arguments.wantsJson config.toOptions := by
  have portable := optionsText_portable arguments.wantsJson
    (RenderSettings.toOptions_acceptable acceptable).1
  unfold showConfig
  rw [withoutRemarks_remarks]
  exact withoutRemarks_clean fun member =>
    absurd (portable magnifyingGlass member) (by decide)

end Remarks

section Log

def recorded (world : World) (arguments : Arguments) : List LogRecord :=
  overridesRecord arguments.overrides :: (load world arguments.request).log ++
    match (load world arguments.request).result with
    | .ok config => [resolvingRecord config]
    | .error (.configuration error) => [failureRecord error]
    | .error _ => []

def notable (log : List LogRecord) : List LogRecord :=
  log.filter fun record => record.level ≠ .debug

theorem logText_notable (log : List LogRecord) :
    logText false log = logText false (notable log) := by
  unfold logText notable
  induction log with
  | nil => rfl
  | cons record rest ih =>
    rw [List.flatMap_cons, List.filter_cons, ih]
    by_cases debug : record.level = .debug
    · simp [recordLine, debug]
    · simp [debug]

variable {world : World} {line : List Text} {arguments : Arguments}

theorem inspect_log (world : World) (arguments : Arguments) :
    (inspect world arguments).log =
      overridesRecord arguments.overrides :: (load world arguments.request).log ++
        ((load world arguments.request).result.toOption.map resolvingRecord).toList := by
  change ((Traced.note (overridesRecord arguments.overrides)).bind fun _ =>
    (load world arguments.request).bind fun config =>
      (Traced.note (resolvingRecord config)).bind fun _ =>
        .ok (showConfig arguments config)).log = _
  unfold Traced.bind
  cases (load world arguments.request).result <;> simp [Traced.note, Traced.ok, Except.toOption]

theorem run_errors (accepted : parse line = .ok (.inspect arguments)) :
    (run world line).errors = logText arguments.verbose (recorded world arguments) := by
  rw [run_inspect accepted]
  unfold Run.ofTraced recorded
  rw [inspect_result, inspect_log]
  cases (load world arguments.request).result with
  | ok config => rfl
  | error failure =>
    cases failure with
    | configuration error => simp [Except.map, Except.toOption]
    | _ => rfl

theorem run_output_failed (accepted : parse line = .ok (.inspect arguments))
    (failed : (run world line).ending ≠ .exit 0) : (run world line).output = [] := by
  rw [run_inspect accepted] at failed ⊢
  unfold Run.ofTraced at failed ⊢
  cases shown : (inspect world arguments).result with
  | ok output =>
    rw [shown] at failed
    exact absurd rfl failed
  | error failure => cases failure <;> rfl

end Log

namespace Arguments

variable {command : Command} {start found : Arguments}

/-- The same arguments with remarks and the whole log asked for. -/
def louder (arguments : Arguments) : Arguments := { arguments with verbose := true }

theorem supply_louder (arguments : Arguments) (value : Supplied) (effect : Effect) :
    arguments.louder.supply value effect = (arguments.supply value effect).louder := by
  cases effect <;> rfl

theorem accept_louder {spelling : Spelling} {text : Text}
    (taken : accept command spelling text start = .ok found) :
    accept command spelling text start.louder = .ok found.louder := by
  unfold accept at taken ⊢
  dsimp only at taken ⊢
  split at taken
  · rename_i listed
    cases taken
    rw [if_pos listed, supply_louder]
  · cases taken

theorem acceptAssigned_louder {spelling : Spelling} {text : Text}
    (taken : acceptAssigned command spelling text start = .ok found) :
    acceptAssigned command spelling text start.louder = .ok found.louder := by
  unfold acceptAssigned at taken ⊢
  split at taken
  · rename_i nothing
    cases taken
    rw [if_pos nothing, supply_louder]
  · rename_i something
    rw [if_neg something]
    exact accept_louder taken

theorem perform_louder {effects : List Effect}
    (performed : perform command effects start = .ok found) :
    perform command effects start.louder = .ok found.louder := by
  induction effects generalizing start with
  | nil =>
    cases performed
    rfl
  | cons effect rest ih =>
    cases effect with
    | help => cases performed
    | version => cases performed
    | _ => exact ih performed

theorem leaveOver_ne_nil (word : Text) (read : Except Stop (Arguments × List Text)) :
    leaveOver word read ≠ .ok (found, []) := by
  unfold leaveOver
  split <;> simp

theorem ofWords_louder {line : List Word} (read : ofWords command line start = .ok (found, [])) :
    ofWords command line start.louder = .ok (found.louder, []) := by
  induction line, start using ofWords.induct generalizing found with
  | case1 start =>
    cases read
    rfl
  | case2 text rest start ih => exact absurd read (leaveOver_ne_nil _ _)
  | case3 text rest start ih => exact absurd read (leaveOver_ne_nil _ _)
  | case4 text rest start ih => exact absurd read (leaveOver_ne_nil _ _)
  | case5 name spelling start takes value rest ih =>
    unfold ofWords at read ⊢
    rw [if_pos takes] at read ⊢
    obtain ⟨next, taken, read⟩ := Outcome.bind_ok_iff.mp read
    exact Outcome.bind_ok_iff.mpr ⟨next.louder, acceptAssigned_louder taken, ih next read⟩
  | case6 name spelling start takes value rest ih =>
    unfold ofWords at read ⊢
    rw [if_pos takes] at read ⊢
    obtain ⟨next, taken, read⟩ := Outcome.bind_ok_iff.mp read
    exact Outcome.bind_ok_iff.mpr ⟨next.louder, accept_louder taken, ih next read⟩
  | case7 name spelling rest start takes noValue =>
    unfold ofWords at read
    rw [if_pos takes] at read
    split at read
    · rename_i same
      cases same
    · exact absurd rfl (noValue _ _)
    · cases read
  | case8 name spelling value rest start takes ih =>
    unfold ofWords at read ⊢
    rw [if_neg takes] at read ⊢
    obtain ⟨listed, meant, read⟩ := Outcome.bind_ok_iff.mp read
    obtain ⟨next, performed, read⟩ := Outcome.bind_ok_iff.mp read
    refine Outcome.bind_ok_iff.mpr ⟨listed, meant, ?_⟩
    exact Outcome.bind_ok_iff.mpr ⟨next.louder, perform_louder performed, ih next read⟩

theorem read_louder {rest : List Text} (taken : read .inspect rest = .ok (found, [])) :
    read .inspect (Item.verboseName false :: rest) = .ok (found.louder, []) := by
  obtain ⟨told, words, taken⟩ := Outcome.bind_ok_iff.mp taken
  have item : (Item.verbose false).Canonical := trivial
  have longer := words_item item rest
  rw [usage_ok_iff.mp words] at longer
  refine Outcome.bind_ok_iff.mpr ⟨_, usage_ok_iff.mpr longer, ?_⟩
  rw [ofWords_item item]
  exact ofWords_louder taken

end Arguments

theorem parse_louder {rest : List Text} {arguments : Arguments}
    (accepted : parse (inspectLine rest) = .ok (.inspect arguments)) :
    parse (inspectLine (Item.verboseName false :: rest)) = .ok (.inspect arguments.louder) := by
  have front {command : Command} (above : command = .root ∨ command = .group)
      (told : ∃ found, words command.spellings rest = .ok found) :
      ∃ found, words command.spellings (Item.verboseName false :: rest) = .ok found := by
    obtain ⟨found, told⟩ := told
    have item : (Item.verbose false).Canonical := trivial
    obtain ⟨kind, own⟩ := wordKind_above above item _ List.mem_cons_self
    exact ⟨_, by rw [words_cons (by decide) own, told]; rfl⟩
  obtain ⟨root, group, read⟩ := parse_inspectLine_iff.mp accepted
  exact parse_inspectLine_iff.mpr ⟨front (Or.inl rfl) root, front (Or.inr rfl) group,
    Arguments.read_louder read⟩

/-- How a run differs from a louder one with the same records: remarks are left out, and records for
debugging are not logged. -/
structure Amplified (log : List LogRecord) (quiet loud : Run) : Prop where
  ending : loud.ending = quiet.ending
  shown : quiet.ending = .exit 0 → withoutRemarks loud.output = withoutRemarks quiet.output
  nothing : quiet.ending ≠ .exit 0 → quiet.output = [] ∧ loud.output = []
  brief : quiet.errors = logText false (notable log)
  whole : loud.errors = logText true log

theorem run_amplified (world : World) {rest : List Text} {arguments : Arguments}
    (accepted : parse (inspectLine rest) = .ok (.inspect arguments))
    (quiet : arguments.verbose = false) :
    Amplified (recorded world arguments) (run world (inspectLine rest))
      (run world (inspectLine (Item.verboseName false :: rest))) := by
  have louder := parse_louder accepted
  have ending : (run world (inspectLine (Item.verboseName false :: rest))).ending =
      (run world (inspectLine rest)).ending := by
    rw [run_inspect_ending world accepted, run_inspect_ending world louder]
    rfl
  refine ⟨ending, fun ended => ?_, fun failed => ?_, ?_, run_errors louder⟩
  · obtain ⟨config, loaded⟩ := loaded_of_exit accepted ended
    have acceptable := load_acceptable loaded
    rw [(run_shows accepted loaded).2, (run_shows louder loaded).2,
      withoutRemarks_showConfig _ acceptable, withoutRemarks_showConfig _ acceptable]
    rfl
  · exact ⟨run_output_failed accepted failed, run_output_failed louder (ending ▸ failed)⟩
  · rw [run_errors accepted, quiet, logText_notable]

theorem run_redebugged {before after : World} {line : List Text} {arguments : Arguments}
    (accepted : parse line = .ok (.inspect arguments))
    (changed : before.Redebugged after arguments.request)
    (ended : (run before line).ending = .exit 0) :
    (run after line).ending = .exit 0 ∧
      withoutRemarks (run after line).output = withoutRemarks (run before line).output := by
  obtain ⟨config, loaded⟩ := loaded_of_exit accepted ended
  obtain ⟨debug, again⟩ := load_redebugged arguments.request_distinct changed loaded
  refine ⟨(run_shows accepted again).1, ?_⟩
  rw [(run_shows accepted loaded).2, (run_shows accepted again).2,
    withoutRemarks_showConfig _ (load_acceptable loaded),
    withoutRemarks_showConfig _ (load_acceptable again)]
  rfl

theorem settled_quiet {items : List Item} (quiet : ∀ item ∈ items, item.verbose? = none) :
    (items.foldl Item.record .unset).verbose = false := by
  rw [settled_verbose, lastGiven?_eq_none quiet]
  rfl

/-- Lines in full words that do not ask for it are not verbose. Asking for it in front of the words
of any line that is not verbose changes its remarks and its log only, and so does other debugging
in the settings of a run that ends well, as far as its remarks go. -/
theorem verbosity_only_observes :
    (∀ items : List Item, (∀ item ∈ items, item.Canonical) →
      (∀ item ∈ items, item.verbose? = none) →
      ∃ arguments, parse (inspectLine (items.flatMap Item.texts)) = .ok (.inspect arguments) ∧
        arguments.verbose = false) ∧
    (∀ (world : World) (rest : List Text) (arguments : Arguments),
      parse (inspectLine rest) = .ok (.inspect arguments) → arguments.verbose = false →
      Amplified (recorded world arguments) (run world (inspectLine rest))
        (run world (inspectLine (Text.ofString "--verbose" :: rest)))) ∧
    ∀ (before after : World) (line : List Text) (arguments : Arguments),
      parse line = .ok (.inspect arguments) → before.Redebugged after arguments.request →
      (run before line).ending = .exit 0 →
      (run after line).ending = .exit 0 ∧
        withoutRemarks (run after line).output = withoutRemarks (run before line).output :=
  ⟨fun _ canonical quiet => ⟨_, parse_items canonical, settled_quiet quiet⟩,
    fun world _ _ accepted quiet => run_amplified world accepted quiet,
    fun _ _ _ _ accepted changed ended => run_redebugged accepted changed ended⟩

section Sample

def switchedWorld (debug : String) : World := .withFiles
  [(["project", ".hoconkit.json"], "\x7b\"Debug\": " ++ debug ++ "\x7d")] []

def uncommentedItems : List Item := [.toggle .comments false]

def uncommentedLine : List Text := inspectLine ["--no-comments"]

def uncommentedArguments : Arguments :=
  { Arguments.unset with flags := ⟨none, some false, none, none, none⟩ }

theorem switchedWorld_redebugged :
    (switchedWorld "true").Redebugged (switchedWorld "0") uncommentedArguments.request where
  user members layer := by
    have nothing : (readUserFile (switchedWorld "true")).result = .ok [] := by decide +kernel
    cases ((readUserFile_ok_iff ..).mpr layer).symm.trans nothing
    exact ⟨[], (readUserFile_ok_iff ..).mp (by decide +kernel), .nil⟩
  chosen members layer := by
    have on : (readChosenFile (switchedWorld "true") uncommentedArguments.request).result =
        .ok [(Text.ofString "Debug", .bool true)] := by decide +kernel
    cases ((readChosenFile_ok_iff ..).mpr layer).symm.trans on
    exact ⟨[(Text.ofString "Debug", .int 0)], (readChosenFile_ok_iff ..).mp (by decide +kernel),
      .written (by decide +kernel) _ ⟨false, rfl⟩ .nil⟩
  environment := .kept _ .nil

theorem uncommented_line_observed :
    (run (switchedWorld "true") uncommentedLine).ending = .exit 0 ∧
    withoutRemarks
        (run (switchedWorld "true") (inspectLine ["--verbose", "--no-comments"])).output =
      withoutRemarks (run (switchedWorld "true") uncommentedLine).output ∧
    withoutRemarks (run (switchedWorld "0") uncommentedLine).output =
      withoutRemarks (run (switchedWorld "true") uncommentedLine).output := by
  obtain ⟨canonicalLines, asked, debugged⟩ := verbosity_only_observes
  obtain ⟨arguments, accepted, quiet⟩ := canonicalLines uncommentedItems
    (by simp [uncommentedItems, Item.Canonical]) (by simp [uncommentedItems, Item.verbose?])
  have own : parse uncommentedLine = .ok (.inspect uncommentedArguments) := by decide +kernel
  cases own.symm.trans accepted
  have ended : (run (switchedWorld "true") uncommentedLine).ending = .exit 0 := by decide +kernel
  exact ⟨ended, (asked _ _ _ accepted quiet).shown ended,
    (debugged _ _ _ _ own switchedWorld_redebugged ended).2⟩

end Sample

end HoconRender.CommandLine
