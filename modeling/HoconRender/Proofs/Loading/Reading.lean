import HoconRender.Loading
import HoconRender.Proofs.Json.Distinct
import HoconRender.Proofs.Settings.Exported

/-
What the files of a load give, told from what stands in them. A load that gets the members of both
its files lays them under the overrides and builds a configuration from all three.
-/
namespace HoconRender

theorem Traced.result_bind {α β : Type} (first : Traced α) (next : α → Traced β) :
    (first >>= next).result = first.result >>= fun a => (next a).result := by
  change (Traced.bind first next).result = _
  unfold Traced.bind
  cases first.result with
  | ok a => rfl
  | error failure => rfl

/-- The members that a settings file gives. An optional file that is absent or cannot be read gives
none. -/
inductive Yields (world : World) (path : Path) : (required : Bool) → Members → Prop where
  | object {required : Bool} {node : Node} {location : Location} {members : Members}
      (leads : world.target path = .node node location)
      (holds : Content.ofNode path node = .value (.obj members)) :
      Yields world path required members
  | absent (leads : world.target path = .absent) : Yields world path false []
  | unreadable {node : Node} {location : Location} {fault : FileFault}
      (leads : world.target path = .node node location)
      (holds : Content.ofNode path node = .faulty fault) : Yields world path false []

inductive UserLayer (world : World) (members : Members) : Prop where
  | inHome {home : Path} (known : world.home? = some home)
      (yields : Yields world (World.userFileIn home) false members) : UserLayer world members

inductive ChosenLayer (world : World) (request : Request) (members : Members) : Prop where
  | named {path : Path} (named : request.configFile = some (.path path))
      (yields : Yields world path true members) : ChosenLayer world request members
  | inDirectory {directory : Path} (unnamed : request.configFile = none)
      (chosen : request.projectDirectory = some (.path directory))
      (yields : Yields world (World.projectFileIn directory) false members) :
      ChosenLayer world request members
  | inCurrent {directory : Path} (unnamed : request.configFile = none)
      (unchosen : request.projectDirectory = none)
      (known : world.currentDirectory? = some directory)
      (yields : Yields world (World.projectFileIn directory) false members) :
      ChosenLayer world request members

theorem readSettingsFile_ok_iff (world : World) (path : Path) (required : Bool)
    (members : Members) :
    (readSettingsFile world path required).result = .ok members ↔
      Yields world path required members := by
  constructor
  · intro read
    unfold readSettingsFile at read
    split at read
    · rename_i leads
      split at read
      · cases read
      · rename_i optional
        cases read
        simp only [Bool.not_eq_true] at optional
        subst required
        exact Yields.absent leads
    · cases read
    · rename_i node location leads
      unfold readMembersOf at read
      split at read
      · rename_i found holds
        cases read
        exact Yields.object leads holds
      · cases read
      · rename_i fault holds
        split at read
        · cases read
        · rename_i optional
          cases read
          simp only [Bool.not_eq_true] at optional
          subst required
          exact Yields.unreadable leads holds
      · cases read
      · cases read
  · intro yields
    unfold readSettingsFile
    cases yields with
    | object leads holds =>
      rw [leads]
      dsimp only
      rw [holds]
      rfl
    | absent leads =>
      rw [leads]
      rfl
    | unreadable leads holds =>
      rw [leads]
      dsimp only
      rw [holds]
      rfl

theorem readUserFile_ok_iff (world : World) (members : Members) :
    (readUserFile world).result = .ok members ↔ UserLayer world members := by
  unfold readUserFile
  constructor
  · intro read
    split at read
    · rename_i home known
      exact UserLayer.inHome known ((readSettingsFile_ok_iff ..).mp read)
    · cases read
  · rintro ⟨known, yields⟩
    rw [known]
    exact (readSettingsFile_ok_iff ..).mpr yields

theorem readChosenFile_named {world : World} {request : Request} {path : Path}
    (named : request.configFile = some (.path path)) :
    readChosenFile world request = readSettingsFile world path true := by
  unfold readChosenFile
  rw [named]

theorem readChosenFile_unnamed {world : World} {request : Request}
    (unnamed : request.configFile = none) :
    readChosenFile world request = readProjectFile world request.projectDirectory := by
  unfold readChosenFile
  rw [unnamed]

theorem readProjectFile_current {world : World} {directory : Path}
    (known : world.currentDirectory? = some directory) :
    readProjectFile world none = readSettingsFile world (World.projectFileIn directory) false := by
  unfold readProjectFile
  dsimp only
  rw [known]

theorem readChosenFile_ok_iff (world : World) (request : Request) (members : Members) :
    (readChosenFile world request).result = .ok members ↔ ChosenLayer world request members := by
  constructor
  · intro read
    unfold readChosenFile at read
    split at read
    · rename_i path named
      exact ChosenLayer.named named ((readSettingsFile_ok_iff ..).mp read)
    · cases read
    · rename_i unnamed
      unfold readProjectFile at read
      split at read
      · rename_i directory chosen
        exact ChosenLayer.inDirectory unnamed chosen ((readSettingsFile_ok_iff ..).mp read)
      · cases read
      · rename_i unchosen
        split at read
        · rename_i directory known
          exact ChosenLayer.inCurrent unnamed unchosen known ((readSettingsFile_ok_iff ..).mp read)
        · cases read
  · intro layer
    cases layer with
    | named named yields =>
      rw [readChosenFile_named named]
      exact (readSettingsFile_ok_iff ..).mpr yields
    | inDirectory unnamed chosen yields =>
      rw [readChosenFile_unnamed unnamed, chosen]
      exact (readSettingsFile_ok_iff ..).mpr yields
    | inCurrent unnamed unchosen known yields =>
      rw [readChosenFile_unnamed unnamed, unchosen, readProjectFile_current known]
      exact (readSettingsFile_ok_iff ..).mpr yields

theorem yields_distinct {world : World} {path : Path} {required : Bool} {members : Members}
    (yields : Yields world path required members) : (Json.obj members).Distinct := by
  cases yields with
  | absent _ => exact Json.distinct_empty
  | unreadable _ _ => exact Json.distinct_empty
  | @object _ node _ _ _ holds =>
    cases node with
    | directory => cases holds
    | file bytes =>
      unfold Content.ofNode at holds
      dsimp only at holds
      unfold Content.ofBytes at holds
      split at holds
      · cases holds
      · split at holds
        · rename_i read
          cases holds
          exact Json.read_distinct read
        · cases holds
        · cases holds
        · cases holds

theorem yields_of_content {world : World} {path : Path} {required : Bool} {members known : Members}
    {bytes : List Nat} {location : Location} (yields : Yields world path required members)
    (leads : world.target path = .node (.file bytes) location)
    (content : Content.ofBytes bytes = .value (.obj known)) : members = known := by
  cases yields with
  | object leadsTo holds =>
    cases leads.symm.trans leadsTo
    have same : Content.value (.obj members) = .value (.obj known) := holds.symm.trans content
    cases same
    rfl
  | absent nowhere => cases leads.symm.trans nowhere
  | unreadable leadsTo holds =>
    cases leads.symm.trans leadsTo
    cases content.symm.trans holds

theorem userLayer_distinct {world : World} {members : Members} (layer : UserLayer world members) :
    (Json.obj members).Distinct := by
  obtain ⟨_, yields⟩ := layer
  exact yields_distinct yields

theorem chosenLayer_distinct {world : World} {request : Request} {members : Members}
    (layer : ChosenLayer world request members) : (Json.obj members).Distinct := by
  cases layer with
  | named _ yields => exact yields_distinct yields
  | inDirectory _ _ yields => exact yields_distinct yields
  | inCurrent _ _ _ yields => exact yields_distinct yields

def gathered (user chosen overrides : Members) : Members :=
  Json.merge (Json.merge (Json.merge [] user) chosen) overrides

theorem load_result {world : World} {request : Request} {user chosen : Members}
    (below : UserLayer world user) (above : ChosenLayer world request chosen) :
    (load world request).result =
      buildConfig world.environment (gathered user chosen request.overrides) := by
  have readUser := (readUserFile_ok_iff world user).mpr below
  have readChosen := (readChosenFile_ok_iff world request chosen).mpr above
  unfold load
  rw [Traced.result_bind, readUser]
  change ((readChosenFile world request) >>= _).result = _
  rw [Traced.result_bind, readChosen]
  rfl

theorem load_of_read {world : World} {request : Request} {user chosen : Members}
    (below : (readUserFile world).result = .ok user)
    (above : (readChosenFile world request).result = .ok chosen) :
    (load world request).result =
      buildConfig world.environment (gathered user chosen request.overrides) :=
  load_result ((readUserFile_ok_iff ..).mp below) ((readChosenFile_ok_iff ..).mp above)

theorem load_result_bind (world : World) (request : Request) :
    (load world request).result =
      (readUserFile world).result >>= fun user =>
        (readChosenFile world request).result >>= fun chosen =>
          buildConfig world.environment (gathered user chosen request.overrides) := by
  unfold load
  rw [Traced.result_bind]
  cases (readUserFile world).result with
  | error failure => rfl
  | ok user => exact Traced.result_bind (readChosenFile world request) _

theorem load_ok_parts {world : World} {request : Request} {config : Config}
    (loaded : (load world request).result = .ok config) :
    ∃ user chosen, UserLayer world user ∧ ChosenLayer world request chosen ∧
      Config.build world.environment (gathered user chosen request.overrides) = .ok config := by
  unfold load at loaded
  rw [Traced.result_bind] at loaded
  obtain ⟨user, readUser, loaded⟩ := Outcome.bind_ok_iff.mp loaded
  rw [Traced.result_bind] at loaded
  obtain ⟨chosen, readChosen, built⟩ := Outcome.bind_ok_iff.mp loaded
  exact ⟨user, chosen, (readUserFile_ok_iff world user).mp readUser,
    (readChosenFile_ok_iff world request chosen).mp readChosen, Outcome.mapError_ok_iff.mp built⟩

theorem load_acceptable {world : World} {request : Request} {config : Config}
    (loaded : (load world request).result = .ok config) : config.render.Acceptable := by
  obtain ⟨_, _, _, _, built⟩ := load_ok_parts loaded
  exact Config.build_acceptable built

/-- A world with a home, a current project directory, text files and variables. -/
def World.withFiles (files : List (List String × String)) (settings : List (String × String)) :
    World :=
  ⟨files.foldl (fun all (location, text) =>
      all.write (location.map Text.ofString) (Text.encodeUtf8 (Text.ofString text)))
    (Files.makeDirectory (Files.makeDirectory [] [Text.ofString "home"])
      [Text.ofString "project"]),
    (World.homeVariable, Text.ofString "/home")
      :: settings.map fun (name, value) => (Text.ofString name, Text.ofString value),
    [Text.ofString "project"], none⟩

def plainWorld : World := .withFiles [] []

def World.homeless (world : World) : World :=
  { world with environment := [(homeVariable, Text.ofString "~nobody")] }

end HoconRender
