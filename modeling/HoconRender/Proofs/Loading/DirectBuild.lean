import HoconRender.Proofs.Loading.BareWorld

/-
Where no settings file is there, a load of named arguments comes to what the same values make on
their own. Merging them with nothing leaves them as they are, in every order and at every depth, so
that a refusal prints them unchanged.
-/
namespace HoconRender

def Config.Fault.lead : Config.Fault → Text
  | .invalid _ => "Configuration error: Invalid settings: "
  | .environment => "Configuration error: Invalid environment settings: "
  | .tooDeep => ""

/-- An error that tells of a build what the build says itself, and names no key. -/
structure ConfigurationError.Reports (error : ConfigurationError) (fault : Config.Fault) :
    Prop where
  message : error.message = fault.lead ++ fault.message
  key : error.key = none
  cause : error.cause? = some (.build fault)

theorem keyless_message {reason : Text} (said : reason ≠ []) :
    ErrorSubject.configurationMessage .null (.str reason) =
      Text.ofString "Configuration error: " ++ reason := by
  unfold ErrorSubject.configurationMessage
  have keyless : Json.null.truthy = false := rfl
  have spoken : (Json.str reason).truthy = true := by simp [Json.truthy, said]
  rw [keyless, spoken]
  rfl

theorem invalidSettings_reports (faults : List FieldFault) :
    (ConfigurationError.invalidSettings faults).Reports (.invalid faults) := by
  have lead : Text.ofString "Configuration error: " ++ Text.ofString "Invalid settings: " =
      Text.ofString "Configuration error: Invalid settings: " := by decide
  refine ⟨?_, rfl, rfl⟩
  unfold Config.Fault.lead
  rw [← lead, List.append_assoc]
  exact keyless_message (by simp [ConfigurationError.reason, Text.ofString])

theorem invalidEnvironment_reports :
    ConfigurationError.invalidEnvironment.Reports .environment := by
  have lead : Text.ofString "Configuration error: " ++
      Text.ofString "Invalid environment settings: " =
      Text.ofString "Configuration error: Invalid environment settings: " := by decide
  refine ⟨?_, rfl, rfl⟩
  unfold Config.Fault.lead
  rw [← lead, List.append_assoc]
  exact keyless_message (by simp [ConfigurationError.reason, Text.ofString])

theorem gathered_alone {members : Members} (distinct : (Json.obj members).Distinct) :
    gathered [] [] members = members := Json.merge_empty distinct

namespace Request

theorem ofArguments_overrides {members : Members}
    (project : projectDirectoryName ∉ Entries.keys members)
    (file : configFileName ∉ Entries.keys members)
    (receiver : receiverName ∉ Entries.keys members) :
    ofArguments none none members = .ok ⟨none, none, members⟩ := by
  have nothingGiven : (Entries.keys members).find? (fun name =>
      ((none : Option Path).isSome && name == projectDirectoryName)
        || ((none : Option Path).isSome && name == configFileName)) = none := by
    simp
  unfold ofArguments chosen?
  dsimp only
  rw [nothingGiven]
  dsimp only
  rw [if_neg (by simpa using receiver), (Entries.get?_eq_none_iff ..).mpr project,
    (Entries.get?_eq_none_iff ..).mpr file, Entries.erase_absent project,
    Entries.erase_absent file]
  rfl

end Request

theorem load_fileless {world : World} (fileless : world.Fileless) {members : Members}
    (distinct : (Json.obj members).Distinct) :
    (load world ⟨none, none, members⟩).result = buildConfig world.environment members := by
  obtain ⟨home, known, noUser⟩ := fileless.user
  obtain ⟨directory, current, noProject⟩ := fileless.project
  have user : UserLayer world [] := UserLayer.inHome known (Yields.absent noUser)
  have chosen : ChosenLayer world ⟨none, none, members⟩ [] :=
    ChosenLayer.inCurrent rfl rfl current (Yields.absent noProject)
  rw [load_result user chosen, gathered_alone distinct]

/-- Without files, named arguments load to the configuration that they make on their own, and what
is wrong with them is reported with the words of that failure behind a lead. -/
theorem fileless_load_is_build (world : World) (fileless : world.Fileless) (members : Members)
    (distinct : (Json.obj members).Distinct)
    (names : ∀ name ∈ [Request.projectDirectoryName, Request.configFileName,
      Request.receiverName], name ∉ Entries.keys members) :
    Request.ofArguments none none members = .ok ⟨none, none, members⟩ ∧
    (∀ config, (load world ⟨none, none, members⟩).result = .ok config ↔
      Config.build world.environment members = .ok config) ∧
    (∀ fault, Config.build world.environment members = .error fault → fault ≠ .tooDeep →
      ∃ error, (load world ⟨none, none, members⟩).result = .error (.configuration error) ∧
        error.Reports fault) ∧
    (Config.build world.environment members = .error .tooDeep →
      (load world ⟨none, none, members⟩).result = .error .tooDeep) := by
  rw [load_fileless fileless distinct]
  refine ⟨Request.ofArguments_overrides (names _ (by simp)) (names _ (by simp))
    (names _ (by simp)), fun config => Outcome.mapError_ok_iff, ?_, ?_⟩
  · intro fault failed shallow
    unfold buildConfig
    rw [failed]
    cases fault with
    | invalid faults => exact ⟨_, rfl, invalidSettings_reports faults⟩
    | environment => exact ⟨_, rfl, invalidEnvironment_reports⟩
    | tooDeep => exact absurd rfl shallow
  · intro failed
    unfold buildConfig
    rw [failed]
    rfl

section Sample

def commentlessWorld : World := .withFiles [] [("HOCONKIT_RENDER__COMMENTS", "false")]

def nestedMembers : Members :=
  [("render", .obj [("preset", .str "concise"), ("formatted", .bool true)]),
    ("more", .arr [.obj [("a", .null)]]), ("debug", .bool true)]

def wrongMembers : Members := [("render", .obj [("preset", .arr [.obj [("a", .null)]])])]

def wrongPreset : Config.Fault :=
  .invalid [⟨["render", "preset"], .unknownPreset, .arr [.obj [("a", .null)]]⟩]

theorem commentlessWorld_fileless : commentlessWorld.Fileless :=
  ⟨⟨.ofText (Text.ofString "/home"), by decide +kernel⟩,
    ⟨.ofText (Text.ofString "/project"), by decide +kernel⟩⟩

theorem nestedMembers_distinct : (Json.obj nestedMembers).Distinct := by
  simp only [nestedMembers, Json.Distinct, Json.DistinctMembers, Json.DistinctItems]
  decide

theorem wrongMembers_distinct : (Json.obj wrongMembers).Distinct := by
  simp only [wrongMembers, Json.Distinct, Json.DistinctMembers, Json.DistinctItems]
  decide

theorem nested_members_load_alike :
    (load commentlessWorld ⟨none, none, nestedMembers⟩).result =
      .ok ⟨⟨.concise, ((Flags.ofFn fun _ => none).set .comments (some false)).set .formatted
        (some true), none⟩, true⟩ ∧
    ∃ error, (load commentlessWorld ⟨none, none, wrongMembers⟩).result =
        .error (.configuration error) ∧ error.Reports wrongPreset := by
  have whole := fileless_load_is_build commentlessWorld commentlessWorld_fileless nestedMembers
    nestedMembers_distinct (by decide)
  have refused := fileless_load_is_build commentlessWorld commentlessWorld_fileless wrongMembers
    wrongMembers_distinct (by decide)
  refine ⟨(whole.2.1 _).mpr (by decide), ?_⟩
  exact refused.2.2.1 wrongPreset (by decide) (by simp [wrongPreset])

theorem homeless_load_fails :
    plainWorld.homeless.home? = none ∧
    Config.build plainWorld.homeless.environment [] = .ok .unset ∧
    (load plainWorld.homeless ⟨none, none, []⟩).result = .error .noHome := by
  decide

end Sample

end HoconRender
