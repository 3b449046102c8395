import HoconRender.Proofs.CommandLine.Overrides

/-
Failures that are no configuration errors. They come of files whose name, numbers or nesting exceed
a limit, of directories that are not known, of values that are no paths, and of an environment
nested too deep. A load fails so exactly where one of these is met before anything else fails, and
then so does the command that shows options; every other such command exits with 0 or 1. Overrides
are taken to be no deeper than a merge can go, as those of a command line are.
-/
namespace HoconRender

namespace Traced

variable {α β : Type}

def Escapes (traced : Traced α) (failure : LoadFailure) : Prop :=
  traced.result = .error failure ∧ ∀ error, failure ≠ .configuration error

def Contained (traced : Traced α) : Prop :=
  (∃ a, traced.result = .ok a) ∨ ∃ error, traced.result = .error (.configuration error)

theorem contained_iff (traced : Traced α) :
    traced.Contained ↔ ∀ failure, ¬ traced.Escapes failure := by
  unfold Contained Escapes
  cases traced.result with
  | ok a => simp
  | error failure => cases failure <;> simp

theorem escapes_bind (first : Traced α) (next : α → Traced β) (failure : LoadFailure) :
    (first >>= next).Escapes failure ↔
      first.Escapes failure ∨ ∃ a, first.result = .ok a ∧ (next a).Escapes failure := by
  unfold Escapes
  rw [result_bind]
  cases first.result with
  | ok a =>
    change (next a).result = _ ∧ _ ↔ _
    simp
  | error other =>
    change Except.error other = Except.error failure ∧ _ ↔ _
    simp

theorem escapes_fail (raised failure : LoadFailure) :
    (fail raised : Traced α).Escapes failure ↔
      raised = failure ∧ ∀ error, failure ≠ .configuration error := by
  simp [Escapes, fail]

theorem not_escapes_ok {traced : Traced α} {a : α} (result : traced.result = .ok a)
    (failure : LoadFailure) : ¬ traced.Escapes failure := by
  intro escapes
  rw [escapes.1] at result
  cases result

theorem not_escapes_configuration (error : ConfigurationError) (failure : LoadFailure) :
    ¬ (fail (.configuration error) : Traced α).Escapes failure := by
  rw [escapes_fail]
  rintro ⟨rfl, uncontained⟩
  exact uncontained error rfl

end Traced

inductive Breaks (world : World) (path : Path) : LoadFailure → Prop where
  | nameTooLong (leads : world.target path = .tooLong) :
      Breaks world path (.nameTooLong path.text)
  | tooManyDigits {node : Node} {location : Location} {count : Nat}
      (leads : world.target path = .node node location)
      (holds : Content.ofNode path node = .tooManyDigits count) :
      Breaks world path (.tooManyDigits count)
  | tooDeep {node : Node} {location : Location}
      (leads : world.target path = .node node location)
      (holds : Content.ofNode path node = .tooDeep) : Breaks world path .tooDeep

inductive UserBreaks (world : World) : LoadFailure → Prop where
  | noHome (unknown : world.home? = none) : UserBreaks world .noHome
  | inHome {home : Path} {failure : LoadFailure} (known : world.home? = some home)
      (breaks : Breaks world (World.userFileIn home) failure) : UserBreaks world failure

inductive ChosenBreaks (world : World) (request : Request) : LoadFailure → Prop where
  | named {path : Path} {failure : LoadFailure} (named : request.configFile = some (.path path))
      (breaks : Breaks world path failure) : ChosenBreaks world request failure
  | namedNoPath {value : Json} (named : request.configFile = some (.notAPath value)) :
      ChosenBreaks world request (.notAPath value)
  | inDirectory {directory : Path} {failure : LoadFailure} (unnamed : request.configFile = none)
      (chosen : request.projectDirectory = some (.path directory))
      (breaks : Breaks world (World.projectFileIn directory) failure) :
      ChosenBreaks world request failure
  | directoryNoPath {value : Json} (unnamed : request.configFile = none)
      (chosen : request.projectDirectory = some (.notAPath value)) :
      ChosenBreaks world request (.notAPath value)
  | inCurrent {directory : Path} {failure : LoadFailure} (unnamed : request.configFile = none)
      (unchosen : request.projectDirectory = none)
      (known : world.currentDirectory? = some directory)
      (breaks : Breaks world (World.projectFileIn directory) failure) :
      ChosenBreaks world request failure
  | noDirectory (unnamed : request.configFile = none)
      (unchosen : request.projectDirectory = none) (unknown : world.currentDirectory? = none) :
      ChosenBreaks world request .noDirectory

/-- What breaks a load: its files in their order, and then the environment. -/
inductive LoadBreaks (world : World) (request : Request) : LoadFailure → Prop where
  | user {failure : LoadFailure} (breaks : UserBreaks world failure) :
      LoadBreaks world request failure
  | chosen {user : Members} {failure : LoadFailure} (below : UserLayer world user)
      (breaks : ChosenBreaks world request failure) : LoadBreaks world request failure
  | environment {user chosen : Members} (below : UserLayer world user)
      (above : ChosenLayer world request chosen)
      (deep : world.environment.render? = .error .tooDeep) : LoadBreaks world request .tooDeep

theorem readMembersOf_escapes_iff (path : Path) (required : Bool) (content : Content)
    (failure : LoadFailure) :
    (readMembersOf path required content).Escapes failure ↔
      (∃ count, content = .tooManyDigits count ∧ failure = .tooManyDigits count) ∨
      (content = .tooDeep ∧ failure = .tooDeep) := by
  cases content with
  | value value =>
    cases value with
    | obj members =>
      have silent : ¬ (readMembersOf path required (.value (.obj members))).Escapes failure :=
        Traced.not_escapes_ok rfl failure
      simp [silent]
    | _ => simp [readMembersOf, Traced.not_escapes_configuration]
  | faulty fault =>
    cases required with
    | true => simp [readMembersOf, Traced.not_escapes_configuration]
    | false =>
      have silent : ¬ (readMembersOf path false (.faulty fault)).Escapes failure :=
        Traced.not_escapes_ok rfl failure
      simp [silent]
  | tooManyDigits count =>
    unfold readMembersOf
    rw [Traced.escapes_fail]
    constructor
    · rintro ⟨rfl, _⟩
      exact Or.inl ⟨count, rfl, rfl⟩
    · rintro (⟨_, same, rfl⟩ | ⟨same, _⟩)
      · cases same
        exact ⟨rfl, by simp⟩
      · cases same
  | tooDeep =>
    unfold readMembersOf
    rw [Traced.escapes_fail]
    constructor
    · rintro ⟨rfl, _⟩
      exact Or.inr ⟨rfl, rfl⟩
    · rintro (⟨_, same, _⟩ | ⟨_, rfl⟩)
      · cases same
      · exact ⟨rfl, by simp⟩

theorem readSettingsFile_escapes_iff (world : World) (path : Path) (required : Bool)
    (failure : LoadFailure) :
    (readSettingsFile world path required).Escapes failure ↔ Breaks world path failure := by
  unfold readSettingsFile
  constructor
  · intro escapes
    split at escapes
    · cases required with
      | true => exact False.elim (Traced.not_escapes_configuration _ failure escapes)
      | false => exact False.elim (Traced.not_escapes_ok rfl failure escapes)
    · rename_i leads
      obtain ⟨rfl, _⟩ := (Traced.escapes_fail ..).mp escapes
      exact Breaks.nameTooLong leads
    · rename_i node location leads
      rcases (readMembersOf_escapes_iff ..).mp escapes with ⟨count, holds, rfl⟩ | ⟨holds, rfl⟩
      · exact Breaks.tooManyDigits leads holds
      · exact Breaks.tooDeep leads holds
  · intro breaks
    cases breaks with
    | nameTooLong leads =>
      rw [leads]
      exact (Traced.escapes_fail ..).mpr ⟨rfl, by simp⟩
    | tooManyDigits leads holds =>
      rw [leads]
      exact (readMembersOf_escapes_iff ..).mpr (Or.inl ⟨_, holds, rfl⟩)
    | tooDeep leads holds =>
      rw [leads]
      exact (readMembersOf_escapes_iff ..).mpr (Or.inr ⟨holds, rfl⟩)

theorem readUserFile_escapes_iff (world : World) (failure : LoadFailure) :
    (readUserFile world).Escapes failure ↔ UserBreaks world failure := by
  unfold readUserFile
  constructor
  · intro escapes
    split at escapes
    · rename_i home known
      exact UserBreaks.inHome known ((readSettingsFile_escapes_iff ..).mp escapes)
    · rename_i unknown
      obtain ⟨rfl, _⟩ := (Traced.escapes_fail ..).mp escapes
      exact UserBreaks.noHome unknown
  · intro breaks
    cases breaks with
    | noHome unknown =>
      rw [unknown]
      exact (Traced.escapes_fail ..).mpr ⟨rfl, by simp⟩
    | inHome known breaks =>
      rw [known]
      exact (readSettingsFile_escapes_iff ..).mpr breaks

theorem readChosenFile_escapes_iff (world : World) (request : Request) (failure : LoadFailure) :
    (readChosenFile world request).Escapes failure ↔ ChosenBreaks world request failure := by
  constructor
  · intro escapes
    unfold readChosenFile at escapes
    split at escapes
    · rename_i path named
      exact ChosenBreaks.named named ((readSettingsFile_escapes_iff ..).mp escapes)
    · rename_i value named
      obtain ⟨rfl, _⟩ := (Traced.escapes_fail ..).mp escapes
      exact ChosenBreaks.namedNoPath named
    · rename_i unnamed
      unfold readProjectFile at escapes
      split at escapes
      · rename_i directory chosen
        exact ChosenBreaks.inDirectory unnamed chosen ((readSettingsFile_escapes_iff ..).mp escapes)
      · rename_i value chosen
        obtain ⟨rfl, _⟩ := (Traced.escapes_fail ..).mp escapes
        exact ChosenBreaks.directoryNoPath unnamed chosen
      · rename_i unchosen
        split at escapes
        · rename_i directory known
          exact ChosenBreaks.inCurrent unnamed unchosen known
            ((readSettingsFile_escapes_iff ..).mp escapes)
        · rename_i unknown
          obtain ⟨rfl, _⟩ := (Traced.escapes_fail ..).mp escapes
          exact ChosenBreaks.noDirectory unnamed unchosen unknown
  · intro breaks
    cases breaks with
    | named named breaks =>
      rw [readChosenFile_named named]
      exact (readSettingsFile_escapes_iff ..).mpr breaks
    | namedNoPath named =>
      unfold readChosenFile
      rw [named]
      exact (Traced.escapes_fail ..).mpr ⟨rfl, by simp⟩
    | inDirectory unnamed chosen breaks =>
      rw [readChosenFile_unnamed unnamed, chosen]
      exact (readSettingsFile_escapes_iff ..).mpr breaks
    | directoryNoPath unnamed chosen =>
      rw [readChosenFile_unnamed unnamed, chosen]
      exact (Traced.escapes_fail ..).mpr ⟨rfl, by simp⟩
    | inCurrent unnamed unchosen known breaks =>
      rw [readChosenFile_unnamed unnamed, unchosen, readProjectFile_current known]
      exact (readSettingsFile_escapes_iff ..).mpr breaks
    | noDirectory unnamed unchosen unknown =>
      rw [readChosenFile_unnamed unnamed, unchosen]
      unfold readProjectFile
      dsimp only
      rw [unknown]
      exact (Traced.escapes_fail ..).mpr ⟨rfl, by simp⟩

theorem build_tooDeep_iff (environment : Environment) (members : Members) :
    Config.build environment members = .error .tooDeep ↔
      environment.render? = .error .tooDeep := by
  unfold Config.build
  cases environment.render? with
  | error fault => cases fault <;> simp
  | ok render =>
    constructor
    · intro failed
      obtain ⟨faults, _, same⟩ := Outcome.mapError_error_iff.mp failed
      cases same
    · intro deep
      cases deep

theorem buildConfig_error_iff (environment : Environment) (members : Members)
    (failure : LoadFailure) :
    (buildConfig environment members = .error failure ∧
      ∀ error, failure ≠ .configuration error) ↔
      environment.render? = .error .tooDeep ∧ failure = .tooDeep := by
  unfold buildConfig
  rw [Outcome.mapError_error_iff]
  constructor
  · rintro ⟨⟨fault, built, rfl⟩, uncontained⟩
    cases fault with
    | invalid faults => exact False.elim (uncontained _ rfl)
    | environment => exact False.elim (uncontained _ rfl)
    | tooDeep => exact ⟨(build_tooDeep_iff environment members).mp built, rfl⟩
  · rintro ⟨deep, rfl⟩
    exact ⟨⟨.tooDeep, (build_tooDeep_iff environment members).mpr deep, rfl⟩, by simp⟩

theorem load_escapes_iff (world : World) (request : Request) (failure : LoadFailure) :
    (load world request).Escapes failure ↔ LoadBreaks world request failure := by
  unfold load
  rw [Traced.escapes_bind, readUserFile_escapes_iff]
  constructor
  · rintro (breaks | ⟨user, readUser, escapes⟩)
    · exact LoadBreaks.user breaks
    · have below := (readUserFile_ok_iff world user).mp readUser
      rw [Traced.escapes_bind, readChosenFile_escapes_iff] at escapes
      rcases escapes with breaks | ⟨chosen, readChosen, escapes⟩
      · exact LoadBreaks.chosen below breaks
      · have above := (readChosenFile_ok_iff world request chosen).mp readChosen
        obtain ⟨deep, rfl⟩ := (buildConfig_error_iff ..).mp escapes
        exact LoadBreaks.environment below above deep
  · intro breaks
    cases breaks with
    | user breaks => exact Or.inl breaks
    | @chosen user _ below breaks =>
      refine Or.inr ⟨user, (readUserFile_ok_iff world user).mpr below, ?_⟩
      rw [Traced.escapes_bind, readChosenFile_escapes_iff]
      exact Or.inl breaks
    | @environment user chosen below above deep =>
      refine Or.inr ⟨user, (readUserFile_ok_iff world user).mpr below, ?_⟩
      rw [Traced.escapes_bind]
      refine Or.inr ⟨chosen, (readChosenFile_ok_iff world request chosen).mpr above, ?_⟩
      exact (buildConfig_error_iff ..).mpr ⟨deep, rfl⟩

namespace CommandLine

theorem inspect_result (world : World) (arguments : Arguments) :
    (inspect world arguments).result =
      (load world arguments.request).result.map (showConfig arguments) := by
  unfold inspect
  rw [Traced.result_bind]
  change ((load world arguments.request) >>= _).result = _
  rw [Traced.result_bind]
  cases (load world arguments.request).result with
  | ok config => rfl
  | error failure => rfl

def endingOf : Except LoadFailure Config → Ending
  | .ok _ => .exit 0
  | .error (.configuration _) => .exit 1
  | .error failure => .uncaught failure

theorem run_inspect_ending (world : World) {line : List Text} {arguments : Arguments}
    (accepted : parse line = .ok (.inspect arguments)) :
    (run world line).ending = endingOf (load world arguments.request).result := by
  unfold run
  rw [accepted]
  dsimp only
  unfold Run.ofTraced
  rw [inspect_result]
  cases (load world arguments.request).result with
  | ok config => rfl
  | error failure => cases failure <;> rfl

theorem endingOf_uncaught_iff (traced : Traced Config) (failure : LoadFailure) :
    endingOf traced.result = .uncaught failure ↔ traced.Escapes failure := by
  unfold Traced.Escapes
  cases traced.result with
  | ok config => simp [endingOf]
  | error other =>
    cases other with
    | configuration error =>
      constructor
      · intro ending
        cases ending
      · rintro ⟨same, uncontained⟩
        cases same
        exact False.elim (uncontained error rfl)
    | _ =>
      constructor
      · intro ending
        cases ending
        exact ⟨rfl, by simp⟩
      · rintro ⟨same, _⟩
        cases same
        rfl

theorem endingOf_contained {traced : Traced Config} (contained : traced.Contained) :
    endingOf traced.result = .exit 0 ∨ endingOf traced.result = .exit 1 := by
  rcases contained with ⟨config, loaded⟩ | ⟨error, failed⟩
  · left
    rw [loaded]
    rfl
  · right
    rw [failed]
    rfl

end CommandLine

/-- A merge can go down into the overrides. -/
def Request.Shallow (request : Request) : Prop :=
  (Json.obj request.overrides).nesting ≤ Json.nestingLimit

theorem CommandLine.Arguments.request_shallow (arguments : Arguments) :
    arguments.request.Shallow := Nat.le_trans arguments.nesting_request (by decide)

/-- A load yields a configuration or a configuration error exactly where nothing breaks it, and
what leaves it otherwise is what broke it. A command that shows options ends likewise. -/
theorem contained_unless_broken (world : World) :
    (∀ request, request.Shallow →
      ((load world request).Contained ↔ ∀ failure, ¬ LoadBreaks world request failure)) ∧
    (∀ request, request.Shallow → ∀ failure,
      ((load world request).Escapes failure ↔ LoadBreaks world request failure)) ∧
    ∀ line arguments, CommandLine.parse line = .ok (.inspect arguments) →
      arguments.request.Shallow ∧
      (∀ failure, (CommandLine.run world line).ending = .uncaught failure ↔
        LoadBreaks world arguments.request failure) ∧
      ((∀ failure, ¬ LoadBreaks world arguments.request failure) →
        (CommandLine.run world line).ending = .exit 0 ∨
          (CommandLine.run world line).ending = .exit 1) := by
  have contained (request : Request) : (load world request).Contained ↔
      ∀ failure, ¬ LoadBreaks world request failure := by
    rw [Traced.contained_iff]
    exact forall_congr' fun failure => not_congr (load_escapes_iff world request failure)
  refine ⟨fun request _ => contained request, fun request _ => load_escapes_iff world request, ?_⟩
  intro line arguments accepted
  rw [CommandLine.run_inspect_ending world accepted]
  refine ⟨arguments.request_shallow, ?_, ?_⟩
  · intro failure
    rw [CommandLine.endingOf_uncaught_iff, load_escapes_iff]
  · intro unbroken
    exact CommandLine.endingOf_contained ((contained arguments.request).mpr unbroken)

def longName : Text := List.replicate 256 0x61

def longNameLine : List Text :=
  [Text.ofString "options", Text.ofString "show", Text.ofString "--config", longName]

def longNameArguments : CommandLine.Arguments :=
  { CommandLine.Arguments.unset with config := some (.text longName) }

/-- A file name of 256 letters ends the program by a failure of the file system. -/
theorem long_name_escapes :
    (CommandLine.run (.withFiles [] []) longNameLine).ending = .uncaught (.nameTooLong longName) ∧
      LoadBreaks (.withFiles [] []) longNameArguments.request (.nameTooLong longName) ∧
      ¬ (load (.withFiles [] []) longNameArguments.request).Contained := by
  have accepted : CommandLine.parse longNameLine = .ok (.inspect longNameArguments) := by
    decide +kernel
  have ending : (CommandLine.run (.withFiles [] []) longNameLine).ending =
      .uncaught (.nameTooLong longName) := by
    decide +kernel
  obtain ⟨contained, _, shown⟩ := contained_unless_broken (.withFiles [] [])
  obtain ⟨shallow, endings, _⟩ := shown longNameLine longNameArguments accepted
  have broken := (endings _).mp ending
  refine ⟨ending, broken, ?_⟩
  intro safe
  exact (contained longNameArguments.request shallow).mp safe _ broken

end HoconRender
