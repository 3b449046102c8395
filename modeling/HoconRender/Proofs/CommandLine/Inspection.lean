import HoconRender.Proofs.Loading.Containment

/-
The command that shows options, as a caller of the library. It asks for the load that its words
name and does nothing that can fail behind it: it prints what was resolved, or it prints nothing
and reports the error last.
-/
namespace HoconRender.CommandLine

/-- The named arguments that a command line hands to a load: its overrides, if there are any. -/
def Arguments.named (arguments : Arguments) : Members :=
  if arguments.overrides.isEmpty then []
  else [(Text.ofString "render", .obj arguments.overrides)]

theorem remarks_present_iff (verbose : Bool) (config : Config) :
    remarks verbose config ≠ [] ↔ verbose = true := by
  cases verbose with
  | false => simp [remarks, remark]
  | true => simp [remarks, remark, Text.line]

def failureLine (verbose : Bool) (error : ConfigurationError) : Text :=
  Text.line (Text.ofString "ERROR | "
    ++ (if verbose then Text.ofString "hoconkit.api.cli.main:main - " else [])
    ++ Text.ofString "Command failed: " ++ error.message)

theorem recordLine_failureRecord (verbose : Bool) (error : ConfigurationError) :
    recordLine verbose (failureRecord error) = failureLine verbose error := by
  cases verbose with
  | false => simp [recordLine, failureRecord, failureLine, levelName, Text.ofString]
  | true => simp [recordLine, failureRecord, failureLine, levelName, activityName, Text.ofString]

variable {world : World} {line : List Text} {arguments : Arguments}

theorem run_inspect (accepted : parse line = .ok (.inspect arguments)) :
    run world line = .ofTraced arguments.verbose (inspect world arguments) := by
  unfold run
  rw [accepted]

theorem run_shows (accepted : parse line = .ok (.inspect arguments)) {config : Config}
    (loaded : (load world arguments.request).result = .ok config) :
    (run world line).ending = .exit 0 ∧
      (run world line).output = showConfig arguments config := by
  have shown : (inspect world arguments).result = .ok (showConfig arguments config) := by
    rw [inspect_result, loaded]
    rfl
  rw [run_inspect accepted]
  unfold Run.ofTraced
  rw [shown]
  exact ⟨rfl, rfl⟩

theorem loaded_of_exit (accepted : parse line = .ok (.inspect arguments))
    (ended : (run world line).ending = .exit 0) :
    ∃ config, (load world arguments.request).result = .ok config := by
  cases loaded : (load world arguments.request).result with
  | ok config => exact ⟨config, rfl⟩
  | error failure =>
    rw [run_inspect accepted] at ended
    unfold Run.ofTraced at ended
    rw [inspect_result, loaded] at ended
    cases failure <;> cases ended

theorem run_reports (accepted : parse line = .ok (.inspect arguments))
    {error : ConfigurationError}
    (failed : (load world arguments.request).result = .error (.configuration error)) :
    (run world line).ending = .exit 1 ∧ (run world line).output = [] ∧
      ∃ before, (run world line).errors = before ++ failureLine arguments.verbose error := by
  have failure : (inspect world arguments).result = .error (.configuration error) := by
    rw [inspect_result, failed]
    rfl
  rw [run_inspect accepted]
  unfold Run.ofTraced
  rw [failure]
  refine ⟨rfl, rfl, logText arguments.verbose (inspect world arguments).log, ?_⟩
  rw [← recordLine_failureRecord]
  simp [logText]

def extraWorld : World := .withFiles
  [(["project", "extra.json"], "\x7b\"render\":\x7b\"json\":false\x7d,\"debug\":true\x7d")] []

end HoconRender.CommandLine
