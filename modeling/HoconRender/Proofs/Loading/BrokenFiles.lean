import HoconRender.Proofs.Files.Places
import HoconRender.Proofs.Loading.ShownOptions

/-
Settings files that are there and cannot be read. Where such a file is optional, the load comes to
the same as if it were not there, and only a warning tells the two apart. Where it is named, the
load fails, and the error says whether the file could not be read or is missing.
-/
namespace HoconRender

inductive Unreadable (path : Path) : Node → FileFault → Prop where
  | directory : Unreadable path .directory (.directory path.text)
  | notUtf8 {bytes : List Nat} {fault : Text.Utf8Fault}
      (decoded : Text.decodeUtf8 bytes = .error fault) :
      Unreadable path (.file bytes) (.notUtf8 fault)
  | malformed {bytes : List Nat} {text : Text} {problem : Json.Problem} {place : Json.Place}
      (decoded : Text.decodeUtf8 bytes = .ok text)
      (read : Json.read (Text.unixLines text) = .error (.malformed problem place)) :
      Unreadable path (.file bytes) (.malformed problem place)

theorem ofNode_faulty_iff (path : Path) (node : Node) (fault : FileFault) :
    Content.ofNode path node = .faulty fault ↔ Unreadable path node fault := by
  constructor
  · intro content
    cases node with
    | directory =>
      cases content
      exact Unreadable.directory
    | file bytes =>
      unfold Content.ofNode at content
      dsimp only at content
      unfold Content.ofBytes at content
      split at content
      · rename_i decoded
        cases content
        exact Unreadable.notUtf8 decoded
      · rename_i decoded
        split at content
        · cases content
        · rename_i read
          cases content
          exact Unreadable.malformed decoded read
        · cases content
        · cases content
  · intro unreadable
    cases unreadable with
    | directory => rfl
    | notUtf8 decoded =>
      unfold Content.ofNode
      dsimp only
      unfold Content.ofBytes
      rw [decoded]
    | malformed decoded read =>
      unfold Content.ofNode
      dsimp only
      unfold Content.ofBytes
      rw [decoded]
      dsimp only
      rw [read]

namespace World

def Broken (world : World) (path : Path) (place : Location) (fault : FileFault) : Prop :=
  ∃ node, world.target path = .node node place ∧ Unreadable path node fault

def without (world : World) (gone : List Location) : World :=
  { world with files := gone.foldl Files.remove world.files }

theorem userFileIn_parts (home : Path) :
    (userFileIn home).parts = (home.parts ++ [Text.ofString ".hoconkit"]) ++
      [Text.ofString "config.json"] := rfl

theorem projectFileIn_parts (directory : Path) :
    (projectFileIn directory).parts = directory.parts ++ [Text.ofString ".hoconkit.json"] := rfl

end World

def unreadableRecord (path : Path) (fault : FileFault) : LogRecord :=
  ⟨.warning, .readingFile, Text.ofString "Failed to load config file " ++ path.text
    ++ Text.ofString ": " ++ fault.message⟩

/-- What becomes of a settings file when locations are taken away, and the warnings that go with
it: the file may stay as it was, and an optional one that cannot be read may go. -/
inductive Clears (world : World) (gone : List Location) :
    (required : Bool) → Option Path → List LogRecord → Prop where
  | nowhere {required : Bool} : Clears world gone required none []
  | kept {required : Bool} {path : Path}
      (same : (world.without gone).target path = world.target path) :
      Clears world gone required (some path) []
  | lost {path : Path} {place : Location} {fault : FileFault}
      (broken : world.Broken path place fault) (member : place ∈ gone) :
      Clears world gone false (some path) [unreadableRecord path fault]

/-- Of all that a load looks up, nothing is lost but optional files that cannot be read. -/
structure LosesBroken (world : World) (gone : List Location) (request : Request)
    (userWarnings chosenWarnings : List LogRecord) : Prop where
  user : Clears world gone false (world.home?.map World.userFileIn) userWarnings
  chosen : Clears world gone request.configFile.isSome (chosenPath? world request) chosenWarnings
  directory : request.configFile = none → request.projectDirectory = none →
    (world.without gone).currentDirectory? = world.currentDirectory?

namespace Traced

variable {α β : Type}

def noting (records : List LogRecord) (traced : Traced α) : Traced α :=
  ⟨records ++ traced.log, traced.result⟩

theorem noting_bind (records : List LogRecord) (first : Traced α) (next : α → Traced β) :
    first.noting records >>= next = (first >>= next).noting records := by
  obtain ⟨log, result⟩ := first
  cases result with
  | ok a => exact congrArg (Traced.mk · (next a).result) (List.append_assoc records log _)
  | error failure => rfl

theorem bind_noting (records : List LogRecord) (first : Traced α) (next : α → Traced β) :
    (first >>= fun a => (next a).noting records).result = (first >>= next).result ∧
    ∃ front lost back,
      (first >>= next).log = front ++ back ∧
      (first >>= fun a => (next a).noting records).log = front ++ lost ++ back ∧
      (lost = records ∨ lost = [] ∧ ∀ a, first.result ≠ .ok a) := by
  obtain ⟨log, result⟩ := first
  cases result with
  | ok a =>
    exact ⟨rfl, log, records, (next a).log, rfl, (List.append_assoc ..).symm, Or.inl rfl⟩
  | error failure =>
    exact ⟨rfl, log, [], [], (List.append_nil log).symm, (List.append_nil _).symm ▸
      (List.append_nil log).symm, Or.inr ⟨rfl, by simp⟩⟩

end Traced

section Reading

variable {world : World} {path : Path}

theorem readSettingsFile_broken {place : Location} {fault : FileFault}
    (broken : world.Broken path place fault) (required : Bool) :
    readSettingsFile world path required = readMembersOf path required (.faulty fault) := by
  obtain ⟨node, leads, unreadable⟩ := broken
  unfold readSettingsFile
  rw [leads]
  dsimp only
  rw [(ofNode_faulty_iff ..).mpr unreadable]

theorem readSettingsFile_absent (absent : world.target path = .absent) (required : Bool) :
    readSettingsFile world path required =
      if required then .fail (.configuration (.missingFile path.text)) else .ok [] := by
  unfold readSettingsFile
  rw [absent]

end Reading

section Clearing

variable {world : World} {gone : List Location} {request : Request}
  {userWarnings chosenWarnings : List LogRecord}

theorem readSettingsFile_cleared {required : Bool} {path : Path} {warnings : List LogRecord}
    (named : required = false → ∃ front name, path.parts = front ++ [name] ∧ name ≠ Path.parent)
    (clears : Clears world gone required (some path) warnings) :
    readSettingsFile world path required =
      (readSettingsFile (world.without gone) path required).noting warnings := by
  cases clears with
  | kept same =>
    unfold readSettingsFile
    rw [same]
    rfl
  | lost broken member =>
    obtain ⟨front, name, parts, proper⟩ := named rfl
    have absent : (world.without gone).target path = .absent := by
      obtain ⟨node, leads, _⟩ := broken
      exact Files.target_removed parts proper leads member
    rw [readSettingsFile_broken broken, readSettingsFile_absent absent]
    rfl

theorem readUserFile_cleared
    (clears : Clears world gone false (world.home?.map World.userFileIn) userWarnings) :
    readUserFile world = (readUserFile (world.without gone)).noting userWarnings := by
  unfold readUserFile
  have home : (world.without gone).home? = world.home? := rfl
  rw [home]
  cases known : world.home? with
  | none =>
    rw [known] at clears
    cases clears
    rfl
  | some home =>
    rw [known] at clears
    exact readSettingsFile_cleared
      (fun _ => ⟨_, _, World.userFileIn_parts home, by decide⟩) clears

theorem readProjectFile_cleared {directory : Path} {warnings : List LogRecord}
    (clears : Clears world gone false (some (World.projectFileIn directory)) warnings) :
    readSettingsFile world (World.projectFileIn directory) false =
      (readSettingsFile (world.without gone) (World.projectFileIn directory) false).noting
        warnings :=
  readSettingsFile_cleared (fun _ => ⟨_, _, World.projectFileIn_parts directory, by decide⟩) clears

theorem readChosenFile_cleared
    (clears : Clears world gone request.configFile.isSome (chosenPath? world request)
      chosenWarnings)
    (current : request.configFile = none → request.projectDirectory = none →
      (world.without gone).currentDirectory? = world.currentDirectory?) :
    readChosenFile world request =
      (readChosenFile (world.without gone) request).noting chosenWarnings := by
  unfold chosenPath? at clears
  unfold readChosenFile
  cases named : request.configFile with
  | some choice =>
    cases choice with
    | path path =>
      rw [named] at clears
      exact readSettingsFile_cleared (by simp) clears
    | notAPath value =>
      rw [named] at clears
      cases clears
      rfl
  | none =>
    have current := current named
    unfold readProjectFile
    cases chosen : request.projectDirectory with
    | some choice =>
      cases choice with
      | path directory =>
        rw [named, chosen] at clears
        exact readProjectFile_cleared clears
      | notAPath value =>
        rw [named, chosen] at clears
        cases clears
        rfl
    | none =>
      have same := current chosen
      rw [named, chosen] at clears
      dsimp only at clears ⊢
      rw [same]
      cases known : world.currentDirectory? with
      | none =>
        rw [known] at clears
        cases clears
        rfl
      | some directory =>
        rw [known] at clears
        exact readProjectFile_cleared clears

theorem load_cleared (loses : LosesBroken world gone request userWarnings chosenWarnings) :
    load world request =
      (readUserFile (world.without gone) >>= fun user =>
        ((readChosenFile (world.without gone) request) >>= fun chosen =>
          ⟨[], buildConfig world.environment (gathered user chosen request.overrides)⟩).noting
            chosenWarnings).noting userWarnings := by
  unfold load
  rw [readUserFile_cleared loses.user, readChosenFile_cleared loses.chosen loses.directory,
    Traced.noting_bind]
  simp only [Traced.noting_bind]
  rfl

end Clearing

theorem load_named_fails {world : World} {request : Request} {path : Path} {user : Members}
    {failure : LoadFailure} (named : request.configFile = some (.path path))
    (below : UserLayer world user)
    (fails : (readSettingsFile world path true).result = .error failure) :
    (load world request).result = .error failure := by
  rw [load_result_bind, (readUserFile_ok_iff world user).mpr below, readChosenFile_named named, fails]
  rfl

/-- Optional files that cannot be read count as absent, but for one warning each. A named file that
cannot be read fails the load with what made it unreadable, and one that is absent without a
cause. -/
theorem broken_file_counts_as_absent (world : World) (request : Request) :
    (∀ gone userWarnings chosenWarnings,
      LosesBroken world gone request userWarnings chosenWarnings →
      (load (world.without gone) request).result = (load world request).result ∧
      ∃ front lost back,
        (load (world.without gone) request).log = front ++ back ∧
        (load world request).log = userWarnings ++ (front ++ lost ++ back) ∧
        (lost = chosenWarnings ∨ lost = [] ∧ ∀ user, ¬ UserLayer world user)) ∧
    ∀ path user, request.configFile = some (.path path) → UserLayer world user →
      (∀ place fault, world.Broken path place fault → ∃ error,
        (load world request).result = .error (.configuration error) ∧
        error.key = some path.text ∧ error.cause? = some (.file fault)) ∧
      (world.target path = .absent → ∃ error,
        (load world request).result = .error (.configuration error) ∧
        error.key = some path.text ∧ error.cause? = none) := by
  constructor
  · intro gone userWarnings chosenWarnings loses
    obtain ⟨result, front, lost, back, bare, noted, lostOr⟩ :=
      Traced.bind_noting chosenWarnings (readUserFile (world.without gone)) fun user =>
        (readChosenFile (world.without gone) request) >>= fun chosen =>
          ⟨[], buildConfig world.environment (gathered user chosen request.overrides)⟩
    rw [load_cleared loses]
    refine ⟨result.symm, front, lost, back, bare, ?_, ?_⟩
    · exact congrArg (userWarnings ++ ·) noted
    · refine lostOr.imp_right (And.imp_right fun unread members layer => ?_)
      have read := (readUserFile_ok_iff world members).mpr layer
      rw [readUserFile_cleared loses.user] at read
      exact unread members read
  · intro path user named layer
    constructor
    · intro place fault broken
      refine ⟨.unreadableFile path.text fault, load_named_fails named layer ?_, rfl, rfl⟩
      rw [readSettingsFile_broken broken]
      rfl
    · intro absent
      refine ⟨.missingFile path.text, load_named_fails named layer ?_, rfl, rfl⟩
      rw [readSettingsFile_absent absent]
      rfl

section Sample

def homeUserFile : Path := World.userFileIn (.ofText (Text.ofString "/home"))
def homeUserPlace : Location := ["home", ".hoconkit", "config.json"]
def currentProjectFile : Path := World.projectFileIn (.ofText (Text.ofString "/project"))
def currentProjectPlace : Location := ["project", ".hoconkit.json"]

def twiceBrokenWorld : World :=
  let world : World := .withFiles [] [("HOCONKIT_RENDER__PRESET", "concise")]
  { world with files :=
      (world.files.makeDirectory homeUserPlace).write currentProjectPlace [0xFF] }

def directoryFault : FileFault := .directory homeUserFile.text
def byteFault : FileFault := .notUtf8 ⟨.startByte, 0, 1, 0xFF⟩

def projectFileNamed : Request := ⟨none, some (.path currentProjectFile), []⟩

theorem twiceBroken_user : twiceBrokenWorld.Broken homeUserFile homeUserPlace directoryFault :=
  ⟨.directory, by decide +kernel, .directory⟩

theorem twiceBroken_project :
    twiceBrokenWorld.Broken currentProjectFile currentProjectPlace byteFault :=
  ⟨.file [0xFF], by decide +kernel, .notUtf8 (by decide +kernel)⟩

theorem twice_broken_loads :
    (load (twiceBrokenWorld.without [homeUserPlace, currentProjectPlace]) .plain).result =
      (load twiceBrokenWorld .plain).result ∧
    (load twiceBrokenWorld .plain).result =
      .ok ⟨⟨.concise, .ofFn fun _ => none, none⟩, false⟩ ∧
    (load twiceBrokenWorld .plain).log =
      [unreadableRecord homeUserFile directoryFault,
        unreadableRecord currentProjectFile byteFault] ∧
    ∃ error, (load twiceBrokenWorld projectFileNamed).result = .error (.configuration error) ∧
      error.key = some currentProjectFile.text ∧ error.cause? = some (.file byteFault) := by
  have user : UserLayer twiceBrokenWorld [] := (readUserFile_ok_iff ..).mp (by decide +kernel)
  have home : twiceBrokenWorld.home?.map World.userFileIn = some homeUserFile := by decide +kernel
  have chosen : chosenPath? twiceBrokenWorld .plain = some currentProjectFile := by decide +kernel
  have loses : LosesBroken twiceBrokenWorld [homeUserPlace, currentProjectPlace] .plain
      [unreadableRecord homeUserFile directoryFault]
      [unreadableRecord currentProjectFile byteFault] := by
    refine ⟨?_, ?_, fun _ _ => by decide +kernel⟩
    · rw [home]
      exact Clears.lost twiceBroken_user (by simp)
    · rw [chosen]
      exact Clears.lost twiceBroken_project (by simp)
  obtain ⟨result, _⟩ := (broken_file_counts_as_absent twiceBrokenWorld .plain).1 _ _ _ loses
  have named := (broken_file_counts_as_absent twiceBrokenWorld projectFileNamed).2
    currentProjectFile [] rfl user
  exact ⟨result, by decide +kernel, by decide +kernel, named.1 _ _ twiceBroken_project⟩

def openBraceWorld : World := .withFiles [(["home", ".hoconkit", "config.json"], "\x7b")] []

def userFileNamed : Request := ⟨none, some (.path homeUserFile), []⟩

/-- A user file that is named as well is not optional, so taking it away does make a difference; and
a load that does not know where the user file would be does not get to a named one. -/
theorem broken_file_told_apart :
    openBraceWorld.home?.map World.userFileIn = some homeUserFile ∧
    openBraceWorld.Broken homeUserFile homeUserPlace (.malformed .missingName ⟨1, 2, 1⟩) ∧
    (load (openBraceWorld.without [homeUserPlace]) userFileNamed).result ≠
      (load openBraceWorld userFileNamed).result ∧
    twiceBrokenWorld.homeless.Broken currentProjectFile currentProjectPlace byteFault ∧
    (load twiceBrokenWorld.homeless projectFileNamed).result = .error .noHome := by
  have decoded : Text.decodeUtf8 [0x7B] = .ok [0x7B] := by decide +kernel
  refine ⟨by decide +kernel, ⟨.file [0x7B], by decide +kernel, ?_⟩, by decide +kernel,
    twiceBroken_project, by decide +kernel⟩
  exact Unreadable.malformed decoded (by decide +kernel)

end Sample

end HoconRender
