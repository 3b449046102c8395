import HoconRender.Proofs.Loading.BrokenFiles

/-
A file named explicitly stands in for the project file. What it holds comes to the same as in a
project file, and what the project file holds does not matter beside it.
-/
namespace HoconRender

structure ConfigurationError.Alike (here there : Text) (first second : ConfigurationError) :
    Prop where
  firstKey : first.key = some here
  secondKey : second.key = some there
  reason : second.reason = first.reason
  value : second.value = first.value
  cause : second.cause? = first.cause?

inductive SameOutcome (here there : Text) :
    Except LoadFailure Config → Except LoadFailure Config → Prop where
  | same (outcome : Except LoadFailure Config) : SameOutcome here there outcome outcome
  | elsewhere {first second : ConfigurationError} (alike : first.Alike here there second) :
      SameOutcome here there (.error (.configuration first)) (.error (.configuration second))

namespace World

/-- The same bytes stand in a file of one world and in the project file of another, above one user
file and one environment. -/
structure OneFileTwice (first second : World) (file directory : Path) (bytes : List Nat) :
    Prop where
  environment : second.environment = first.environment
  home : second.home? = first.home?
  user : ∀ home, first.home? = some home →
    second.target (userFileIn home) = first.target (userFileIn home)
  named : ∃ place, first.target file = .node (.file bytes) place
  inProject : ∃ place, second.target (projectFileIn directory) = .node (.file bytes) place

/-- Worlds that are the same but for what stands in one place. -/
structure DifferAt (first second : World) (place : Location) : Prop where
  environment : second.environment = first.environment
  directory : second.directory = first.directory
  account : second.accountHome? = first.accountHome?
  elsewhere : ∀ other, other ≠ place → second.files.node? other = first.files.node? other

def Reaches (world : World) (path : Path) (place : Location) : Prop :=
  place ∈ world.files.reachedBy world.directory path

instance (world : World) (path : Path) (place : Location) : Decidable (world.Reaches path place) :=
  inferInstanceAs (Decidable (place ∈ world.files.reachedBy world.directory path))

def LeadsThrough (world : World) (path : Path) (place : Location) : Prop :=
  world.files.node? place = some .directory ∧ world.Reaches path place

instance (world : World) (path : Path) (place : Location) :
    Decidable (world.LeadsThrough path place) :=
  inferInstanceAs (Decidable (_ ∧ _))

/-- Nothing that a load with a named file looks up is in a place, or behind it. -/
structure Passes (world : World) (request : Request) (place : Location) : Prop where
  named : ∀ file, request.configFile = some (.path file) → ¬ world.Reaches file place
  user : ∀ home, world.home? = some home → ¬ world.LeadsThrough (userFileIn home) place

def projectPlaceIn (folder : Location) : Location := folder ++ [Text.ofString ".hoconkit.json"]

section Agreement

variable {first second : World} {place : Location}

theorem home?_agree (environment : second.environment = first.environment)
    (account : second.accountHome? = first.accountHome?) : second.home? = first.home? := by
  unfold home?
  rw [environment, account]

theorem DifferAt.target (differ : first.DifferAt second place) {path : Path}
    (inFirst : ¬ first.Reaches path place) (inSecond : ¬ second.Reaches path place) :
    second.target path = first.target path := by
  unfold Reaches at inFirst inSecond
  rw [differ.directory] at inSecond
  unfold World.target
  rw [differ.directory]
  apply Files.target_agree
  intro other reached
  apply differ.elsewhere
  rintro rfl
  exact reached.elim inFirst inSecond

theorem userFile_not_reaches {world : World} {home : Path} {folder : Location}
    (beyond : ¬ world.LeadsThrough (userFileIn home) (projectPlaceIn folder)) :
    ¬ world.Reaches (userFileIn home) (projectPlaceIn folder) := by
  intro reaches
  have noDirectory : world.files.node? (projectPlaceIn folder) ≠ some .directory :=
    fun directory => beyond ⟨directory, reaches⟩
  unfold Reaches Files.reachedBy at reaches
  rw [userFileIn_parts] at reaches
  have last := Files.last_of_mem_reached noDirectory reaches
  unfold projectPlaceIn at last
  rw [List.getLast?_concat] at last
  exact absurd last (by decide +kernel)

theorem differAt_put (world : World) (place : Location) (node : Node) :
    world.DifferAt { world with files := world.files.put place node } place := by
  refine ⟨rfl, rfl, rfl, fun other apart => ?_⟩
  unfold Files.node?
  rw [Entries.get?_put_other world.files node (Ne.symm apart)]

end Agreement
end World

section Agreement

variable {first second : World}

theorem readSettingsFile_agree {path : Path} {required : Bool}
    (same : second.target path = first.target path) :
    readSettingsFile second path required = readSettingsFile first path required := by
  unfold readSettingsFile
  rw [same]

theorem readUserFile_agree (homes : second.home? = first.home?)
    (same : ∀ home, first.home? = some home →
      second.target (World.userFileIn home) = first.target (World.userFileIn home)) :
    readUserFile second = readUserFile first := by
  unfold readUserFile
  rw [homes]
  cases known : first.home? with
  | none => rfl
  | some home => exact readSettingsFile_agree (same home known)

theorem readChosenFile_agree {request : Request} (given : request.configFile.isSome = true)
    (same : ∀ file, request.configFile = some (.path file) →
      second.target file = first.target file) :
    readChosenFile second request = readChosenFile first request := by
  unfold readChosenFile
  cases named : request.configFile with
  | none =>
    rw [named] at given
    cases given
  | some choice =>
    cases choice with
    | path file => exact readSettingsFile_agree (same file named)
    | notAPath value => rfl

end Agreement

theorem readSettingsFile_parsed {first second : World} {here there : Path} {bytes : List Nat}
    {inFirst inSecond : Location} {value : Json}
    (leadsHere : first.target here = .node (.file bytes) inFirst)
    (leadsThere : second.target there = .node (.file bytes) inSecond)
    (parsed : Content.ofBytes bytes = .value value) :
    (∃ members, (readSettingsFile first here true).result = .ok members ∧
      (readSettingsFile second there false).result = .ok members) ∨
    (readSettingsFile first here true).result =
        .error (.configuration (.notAnObject here.text value)) ∧
      (readSettingsFile second there false).result =
        .error (.configuration (.notAnObject there.text value)) := by
  have heldHere : Content.ofNode here (.file bytes) = .value value := parsed
  have heldThere : Content.ofNode there (.file bytes) = .value value := parsed
  unfold readSettingsFile
  rw [leadsHere, leadsThere]
  dsimp only
  rw [heldHere, heldThere]
  cases value with
  | obj members => exact Or.inl ⟨members, rfl, rfl⟩
  | _ => exact Or.inr ⟨rfl, rfl⟩

section Loads

variable {first second : World}

theorem load_one_file_twice {file directory : Path} {bytes : List Nat} {value : Json}
    (ignored : Option PathChoice) (overrides : Members)
    (twice : first.OneFileTwice second file directory bytes)
    (parsed : Content.ofBytes bytes = .value value) :
    SameOutcome file.text (World.projectFileIn directory).text
      (load first ⟨ignored, some (.path file), overrides⟩).result
      (load second ⟨some (.path directory), none, overrides⟩).result := by
  obtain ⟨inFirst, leadsHere⟩ := twice.named
  obtain ⟨inSecond, leadsThere⟩ := twice.inProject
  have named : readChosenFile first ⟨ignored, some (.path file), overrides⟩ =
      readSettingsFile first file true := rfl
  have inProject : readChosenFile second ⟨some (.path directory), none, overrides⟩ =
      readSettingsFile second (World.projectFileIn directory) false := rfl
  rw [load_result_bind first, load_result_bind second, named, inProject, twice.environment,
    readUserFile_agree twice.home twice.user]
  cases (readUserFile first).result with
  | error failure => exact SameOutcome.same _
  | ok user =>
    rcases readSettingsFile_parsed leadsHere leadsThere parsed with
      ⟨members, here, there⟩ | ⟨here, there⟩
    · rw [here, there]
      exact SameOutcome.same _
    · rw [here, there]
      exact SameOutcome.elsewhere ⟨rfl, rfl, rfl, rfl, rfl⟩

theorem load_passing_project_file {folder : Location} {request : Request}
    (given : request.configFile.isSome = true)
    (differ : first.DifferAt second (World.projectPlaceIn folder))
    (passesFirst : first.Passes request (World.projectPlaceIn folder))
    (passesSecond : second.Passes request (World.projectPlaceIn folder)) :
    load second request = load first request := by
  have homes := World.home?_agree differ.environment differ.account
  have user : readUserFile second = readUserFile first :=
    readUserFile_agree homes fun home known =>
      differ.target (World.userFile_not_reaches (passesFirst.user home known))
        (World.userFile_not_reaches (passesSecond.user home (homes.trans known)))
  have chosen : readChosenFile second request = readChosenFile first request :=
    readChosenFile_agree given fun file named =>
      differ.target (passesFirst.named file named) (passesSecond.named file named)
  unfold load
  rw [user, chosen, differ.environment]

end Loads

/-- A file that parses loads the same when it is named as when it is the project file, up to the
path in an error. With a file named, whatever stands in the place of a project file makes no
difference, unless that place is where the named file lies or where it or the user file is
reached through. -/
theorem named_file_replaces_project_file (first second : World) :
    (∀ file directory bytes value ignored overrides,
      first.OneFileTwice second file directory bytes →
      Content.ofBytes bytes = .value value →
      SameOutcome file.text (World.projectFileIn directory).text
        (load first ⟨ignored, some (.path file), overrides⟩).result
        (load second ⟨some (.path directory), none, overrides⟩).result) ∧
    ∀ folder request, request.configFile.isSome = true →
      first.DifferAt second (World.projectPlaceIn folder) →
      first.Passes request (World.projectPlaceIn folder) →
      second.Passes request (World.projectPlaceIn folder) →
      load second request = load first request := by
  constructor
  · intro file directory bytes value ignored overrides twice parsed
    exact load_one_file_twice ignored overrides twice parsed
  · intro folder request given differ passesFirst passesSecond
    exact load_passing_project_file given differ passesFirst passesSecond

section Sample

def oneLine : String := "\x7b\"render\": \x7b\"preset\": \"concise\"\x7d\x7d"

def extraFile : Path := .ofText (Text.ofString "/project/extra.json")

def extraWorld : World :=
  .withFiles [(["home", ".hoconkit", "config.json"], "\x7b\"debug\": true\x7d"),
    (["project", "extra.json"], oneLine)] []

def copiedWorld : World :=
  { extraWorld with
    files := extraWorld.files.put currentProjectPlace
      (.file (Text.encodeUtf8 (Text.ofString oneLine))) }

def extraFileNamed : Request := ⟨none, some (.path extraFile), []⟩

theorem copied_file_loads_alike :
    SameOutcome extraFile.text currentProjectFile.text
      (load extraWorld extraFileNamed).result
      (load copiedWorld ⟨some (.path (.ofText (Text.ofString "/project"))), none, []⟩).result ∧
    load copiedWorld extraFileNamed = load extraWorld extraFileNamed ∧
    (load extraWorld extraFileNamed).result =
      .ok ⟨⟨.concise, .ofFn fun _ => none, none⟩, true⟩ := by
  have twice : extraWorld.OneFileTwice copiedWorld extraFile (.ofText (Text.ofString "/project"))
      (Text.encodeUtf8 (Text.ofString oneLine)) := by
    refine ⟨rfl, World.home?_agree rfl rfl, fun home known => ?_,
      ⟨["project", "extra.json"], by decide +kernel⟩, ⟨currentProjectPlace, by decide +kernel⟩⟩
    have homed : extraWorld.home? = some (.ofText (Text.ofString "/home")) := by decide +kernel
    cases homed.symm.trans known
    decide +kernel
  have passes (world : World) (same : world.home? = some (.ofText (Text.ofString "/home")))
      (named : ¬ world.Reaches extraFile currentProjectPlace)
      (user : ¬ world.LeadsThrough homeUserFile currentProjectPlace) :
      world.Passes extraFileNamed currentProjectPlace := by
    refine ⟨fun file isNamed => ?_, fun home known => ?_⟩
    · cases isNamed
      exact named
    · cases same.symm.trans known
      exact user
  have interchangeable := (named_file_replaces_project_file extraWorld copiedWorld).1
    extraFile (.ofText (Text.ofString "/project")) _
    (.obj [("render", .obj [("preset", .str "concise")])]) none [] twice (by decide +kernel)
  have differ : extraWorld.DifferAt copiedWorld (World.projectPlaceIn ["project"]) :=
    World.differAt_put extraWorld currentProjectPlace _
  have apart := (named_file_replaces_project_file extraWorld copiedWorld).2 ["project"]
    extraFileNamed rfl differ
    (passes extraWorld (by decide +kernel) (by decide +kernel) (by decide +kernel))
    (passes copiedWorld (by decide +kernel) (by decide +kernel) (by decide +kernel))
  exact ⟨interchangeable, apart, by decide +kernel⟩

theorem named_project_file_matters :
    plainWorld.DifferAt { plainWorld with
      files := plainWorld.files.put currentProjectPlace (.file [0x7B, 0x7D]) }
      currentProjectPlace ∧
    (load { plainWorld with
      files := plainWorld.files.put currentProjectPlace (.file [0x7B, 0x7D]) }
      projectFileNamed).result ≠ (load plainWorld projectFileNamed).result :=
  ⟨World.differAt_put plainWorld currentProjectPlace _, by decide +kernel⟩

end Sample

end HoconRender
