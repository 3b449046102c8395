import HoconRender.Proofs.Json.Compatible
import HoconRender.Proofs.Json.KeyOrder
import HoconRender.Proofs.Loading.LetterCase
import HoconRender.Proofs.Loading.VariableOrder

/-
Loads whose layers are grouped or ordered in another way, or given twice. The chosen file and the
overrides may be one layer if the file blocks nothing between the user file and the overrides, the
two files may change places if they do not contradict each other, and a layer may be repeated.
-/
namespace HoconRender

section Regrouped

inductive Premerged (world : World) (request : Request) (members : Members) : Prop where
  | inFile (file : ChosenLayer world request members) (alone : request.overrides = []) :
      Premerged world request members
  | inOverrides (nothing : ChosenLayer world request []) (own : request.overrides = members) :
      Premerged world request members

theorem gathered_user {user : Members} (distinct : (Json.obj user).Distinct)
    (chosen overrides : Members) :
    gathered user chosen overrides = Json.merge (Json.merge user chosen) overrides := by
  unfold gathered
  rw [Json.merge_empty distinct]

theorem load_premerged {world : World} {request : Request} {user members : Members}
    (below : UserLayer world user) (premerged : Premerged world request members) :
    (load world request).result = buildConfig world.environment (Json.merge user members) := by
  have distinct := userLayer_distinct below
  cases premerged with
  | inFile file alone =>
    rw [load_result below file, alone, gathered_user distinct]
    rfl
  | inOverrides nothing own =>
    rw [load_result below nothing, own, gathered_user distinct]
    rfl

/-- Objects may be grouped either way where the middle one blocks nothing, and not everywhere. A
load whose file and overrides are one layer then ends as the one that has both. -/
theorem layers_regroup :
    (∀ below middle above : Members, (Json.obj below).Distinct → (Json.obj middle).Distinct →
      (Json.obj above).Distinct → ¬ Json.Blocks below middle above →
      Json.merge (Json.merge below middle) above = Json.merge below (Json.merge middle above)) ∧
    (∃ below middle above : Members, (Json.obj below).Distinct ∧ (Json.obj middle).Distinct ∧
      (Json.obj above).Distinct ∧ Json.Blocks below middle above ∧
      Json.merge (Json.merge below middle) above ≠ Json.merge below (Json.merge middle above)) ∧
    ∀ (before after : World) (asked grouped : Request) (user chosen : Members),
      UserLayer before user → ChosenLayer before asked chosen →
      (Json.obj asked.overrides).Distinct → UserLayer after user →
      after.environment = before.environment →
      Premerged after grouped (Json.merge chosen asked.overrides) →
      ¬ Json.Blocks user chosen asked.overrides →
      (load after grouped).result = (load before asked).result := by
  refine ⟨fun below middle above distinctBelow distinctMiddle distinctAbove free =>
    Json.merge_regrouped distinctAbove distinctBelow distinctMiddle free,
    Json.blocked_not_regrouped, ?_⟩
  intro before after asked grouped user chosen below above distinct belowAfter environment
    premerged free
  have distinctUser := userLayer_distinct below
  rw [load_premerged belowAfter premerged, load_result below above, gathered_user distinctUser,
    Json.merge_regrouped distinct distinctUser (chosenLayer_distinct above) free, environment]

section Sample

def threeLayerWorld : World := .withFiles
  [(["home", ".hoconkit", "config.json"], "\x7b\"render\": \x7b\"preset\": \"concise\"\x7d\x7d"),
    (["project", ".hoconkit.json"], "\x7b\"render\": \x7b\"json\": false\x7d, \"debug\": 1\x7d")] []

def twoLayerWorld : World := .withFiles
  [(["home", ".hoconkit", "config.json"], "\x7b\"render\": \x7b\"preset\": \"concise\"\x7d\x7d"),
    (["project", ".hoconkit.json"],
      "\x7b\"render\": \x7b\"json\": false, \"comments\": true\x7d, \"debug\": 1\x7d")] []

def commentsRequest : Request :=
  ⟨none, none, [("render", .obj [("comments", .bool true)])]⟩

def presetMembers : Members := [("render", .obj [("preset", .str "concise")])]

def jsonMembers : Members := [("render", .obj [("json", .bool false)]), ("debug", .int 1)]

theorem jsonMembers_free : ¬ Json.Blocks presetMembers jsonMembers commentsRequest.overrides := by
  intro blocks
  cases blocks with
  | here _ between plain upmost =>
    obtain ⟨rfl, rfl⟩ := List.mem_singleton.mp (Entries.mem_of_get? upmost)
    cases between
    cases plain
  | within _ between upmost deeper =>
    obtain ⟨rfl, rfl⟩ := List.mem_singleton.mp (Entries.mem_of_get? upmost)
    cases between
    cases deeper with
    | here _ _ _ upmost => cases List.mem_singleton.mp (Entries.mem_of_get? upmost)
    | within _ _ upmost => cases List.mem_singleton.mp (Entries.mem_of_get? upmost)

theorem three_layers_load_as_two :
    Json.merge (Json.merge presetMembers jsonMembers) commentsRequest.overrides =
      Json.merge presetMembers (Json.merge jsonMembers commentsRequest.overrides) ∧
    (load twoLayerWorld .plain).result = (load threeLayerWorld commentsRequest).result := by
  have user : UserLayer threeLayerWorld presetMembers :=
    (readUserFile_ok_iff ..).mp (by decide +kernel)
  have chosen : ChosenLayer threeLayerWorld commentsRequest jsonMembers :=
    (readChosenFile_ok_iff ..).mp (by decide +kernel)
  have distinct : (Json.obj commentsRequest.overrides).Distinct := by
    simp only [commentsRequest, Json.Distinct, Json.DistinctMembers]
    decide +kernel
  have grouped : Premerged twoLayerWorld .plain
      (Json.merge jsonMembers commentsRequest.overrides) :=
    .inFile ((readChosenFile_ok_iff ..).mp (by decide +kernel)) rfl
  obtain ⟨regrouped, _, loads⟩ := layers_regroup
  exact ⟨regrouped _ _ _ (userLayer_distinct user) (chosenLayer_distinct chosen) distinct
      jsonMembers_free,
    loads threeLayerWorld twoLayerWorld commentsRequest .plain _ _ user chosen distinct
      ((readUserFile_ok_iff ..).mp (by decide +kernel)) rfl grouped jsonMembers_free⟩

end Sample

end Regrouped

section Exchanged

def OneCase (keys : List Text) : Prop :=
  ∀ first ∈ keys, ∀ second ∈ keys, first.lower = second.lower → first = second

/-- The user file and the chosen file have changed contents, and all else is the same. -/
structure Exchanged (before after : World) (request : Request) (user chosen : Members) :
    Prop where
  environment : after.environment = before.environment
  userBefore : UserLayer before user
  chosenBefore : ChosenLayer before request chosen
  userAfter : UserLayer after chosen
  chosenAfter : ChosenLayer after request user

theorem spelling?_same {first second : List Text} (keys : ∀ key, key ∈ first ↔ key ∈ second)
    (once : OneCase first) (name : Text) : spelling? name first = spelling? name second := by
  cases here : spelling? name first with
  | none =>
    symm
    unfold spelling? at here ⊢
    rw [List.find?_eq_none] at here ⊢
    exact fun key member => here key ((keys key).mpr member)
  | some key =>
    have member := List.mem_of_find?_eq_some here
    have named := spelling?_lower here
    cases there : spelling? name second with
    | none =>
      have other := List.find?_eq_none.mp there key ((keys key).mp member)
      exact absurd (beq_iff_eq.mpr named) other
    | some other =>
      have inside := (keys other).mpr (List.mem_of_find?_eq_some there)
      exact congrArg some (once key member other inside (named.trans (spelling?_lower there).symm))

variable {first second : Members}

theorem member?_samePaths (same : Json.SamePaths (.obj first) (.obj second))
    (once : OneCase (Entries.keys first)) (name : Text) :
    Json.SameFields (Config.member? first name) (Config.member? second name) := by
  rw [member?_of_spelling, member?_of_spelling,
    ← spelling?_same same.outlines.mem_keys_iff once]
  cases spelling? name (Entries.keys first) with
  | none => exact Json.SameFields.refl none
  | some key => exact same.sameFields key

theorem nodup_member? (distinct : (Json.obj first).Distinct) (name : Text) :
    (Entries.keys (Json.held (Config.member? first name))).Nodup := by
  rw [member?_of_spelling]
  cases spelling? name (Entries.keys first) with
  | none => exact Json.distinct_keys Json.distinct_empty
  | some key => exact Json.distinct_keys (Json.distinct_held distinct key)

theorem Config.build_samePaths (same : Json.SamePaths (.obj first) (.obj second))
    (once : OneCase (Entries.keys first)) (distinctFirst : (Json.obj first).Distinct)
    (distinctSecond : (Json.obj second).Distinct) (environment : Environment) (config : Config) :
    build environment first = .ok config ↔ build environment second = .ok config := by
  have fields (name : Text) (below : Option Json) :
      Json.SameFields (layered below (member? first name)) (layered below (member? second name)) :=
    (member?_samePaths same once name).over_one (nodup_member? distinctFirst name)
      (nodup_member? distinctSecond name) below
  rw [build_ok_iff, build_ok_iff]
  refine exists_congr fun render => and_congr_right fun _ => ?_
  rw [ofValues_ok_iff, ofValues_ok_iff, renderOf_same (fields "render" render), debugOf_ok_iff,
    debugOf_ok_iff, RenderSettings.taken_same RenderSettings.boolOf_outline
      (fields "debug" environment.debug?).whole]

theorem gathered_distinct {user chosen overrides : Members} (bottom : (Json.obj user).Distinct)
    (middle : (Json.obj chosen).Distinct) (top : (Json.obj overrides).Distinct) :
    (Json.obj (gathered user chosen overrides)).Distinct := by
  simp only [Json.Distinct] at bottom middle top
  exact Json.distinct_merge _ (Json.distinct_merge _ (Json.distinct_merge _ Json.distinct_empty
    bottom.2) middle.2) top.2

/-- Compatible objects may be laid over a third one in either order, up to the order of keys. A
load whose two files change places ends with the same configuration, or with none again. -/
theorem compatible_layers_commute :
    (∀ target first second : Members, (Json.obj first).Distinct → (Json.obj second).Distinct →
      Json.Compatible (.obj first) (.obj second) →
      Json.SameMapping (.obj (Json.merge (Json.merge target first) second))
        (.obj (Json.merge (Json.merge target second) first))) ∧
    ∀ (before after : World) (request : Request) (user chosen : Members),
      Exchanged before after request user chosen → (Json.obj request.overrides).Distinct →
      Json.Compatible (.obj user) (.obj chosen) →
      OneCase (Entries.keys user ++ Entries.keys chosen ++ Entries.keys request.overrides) →
      ∀ config, (load before request).result = .ok config ↔
        (load after request).result = .ok config := by
  refine ⟨fun target first second distinctFirst distinctSecond compatible =>
    Json.sameMapping_of_paths
      (Json.samePaths_exchanged distinctFirst distinctSecond compatible target), ?_⟩
  intro before after request user chosen exchanged top compatible once config
  have bottom := userLayer_distinct exchanged.userBefore
  have middle := chosenLayer_distinct exchanged.chosenBefore
  have same : Json.SamePaths (.obj (gathered user chosen request.overrides))
      (.obj (gathered chosen user request.overrides)) :=
    (Json.samePaths_exchanged bottom middle compatible []).merge top
  have onceGathered : OneCase (Entries.keys (gathered user chosen request.overrides)) := by
    have given (key : Text) (member : key ∈ Entries.keys (gathered user chosen request.overrides)) :
        key ∈ Entries.keys user ++ Entries.keys chosen ++ Entries.keys request.overrides := by
      obtain ⟨members, present, inside⟩ := Layers.mem_keys_gathered member
      simp only [List.mem_cons, List.not_mem_nil, or_false] at present
      rcases present with rfl | rfl | rfl <;> simp [inside]
    exact fun key member other present => once key (given key member) other (given other present)
  rw [load_result exchanged.userBefore exchanged.chosenBefore,
    load_result exchanged.userAfter exchanged.chosenAfter, exchanged.environment]
  have built := Config.build_samePaths same onceGathered (gathered_distinct bottom middle top)
    (gathered_distinct middle bottom top) before.environment config
  exact (Outcome.mapError_ok_iff.trans built).trans Outcome.mapError_ok_iff.symm

section Sample

def projectFirstWorld : World := .withFiles
  [(["home", ".hoconkit", "config.json"],
      "\x7b\"render\": \x7b\"json\": false, \"comments\": true\x7d, \"debug\": 1\x7d"),
    (["project", ".hoconkit.json"],
      "\x7b\"debug\": 1, \"render\": \x7b\"json\": false, \"preset\": \"concise\"\x7d\x7d")]
  []

def userFirstWorld : World := .withFiles
  [(["home", ".hoconkit", "config.json"],
      "\x7b\"debug\": 1, \"render\": \x7b\"json\": false, \"preset\": \"concise\"\x7d\x7d"),
    (["project", ".hoconkit.json"],
      "\x7b\"render\": \x7b\"json\": false, \"comments\": true\x7d, \"debug\": 1\x7d")] []

def commentedMembers : Members :=
  [("render", .obj [("json", .bool false), ("comments", .bool true)]), ("debug", .int 1)]

def conciseMembers : Members :=
  [("debug", .int 1), ("render", .obj [("json", .bool false), ("preset", .str "concise")])]

theorem samples_exchanged :
    Exchanged projectFirstWorld userFirstWorld .plain commentedMembers conciseMembers where
  environment := rfl
  userBefore := (readUserFile_ok_iff ..).mp (by decide +kernel)
  chosenBefore := (readChosenFile_ok_iff ..).mp (by decide +kernel)
  userAfter := (readUserFile_ok_iff ..).mp (by decide +kernel)
  chosenAfter := (readChosenFile_ok_iff ..).mp (by decide +kernel)

theorem samples_compatible :
    Json.Compatible (.obj commentedMembers) (.obj conciseMembers) := by
  refine .objects fun key x y here there => ?_
  rcases List.mem_cons.mp (Entries.mem_of_get? here) with render | debug
  · cases render
    cases there
    refine .objects fun key x y here there => ?_
    rcases List.mem_cons.mp (Entries.mem_of_get? here) with json | comments
    · cases json
      cases there
      exact .plain rfl
    · cases List.mem_singleton.mp comments
      cases there
  · cases List.mem_singleton.mp debug
    cases there
    exact .plain rfl

theorem exchanged_files_load_alike :
    Json.SameMapping (.obj (Json.merge (Json.merge [] commentedMembers) conciseMembers))
      (.obj (Json.merge (Json.merge [] conciseMembers) commentedMembers)) ∧
    (load userFirstWorld .plain).result =
      .ok ⟨⟨.concise, ⟨none, some true, none, some false, none⟩, none⟩, true⟩ := by
  have once : OneCase (Entries.keys commentedMembers ++ Entries.keys conciseMembers ++
      Entries.keys Request.plain.overrides) := by
    unfold OneCase
    decide +kernel
  obtain ⟨commutes, loads⟩ := compatible_layers_commute
  refine ⟨commutes [] _ _ (userLayer_distinct samples_exchanged.userBefore)
    (chosenLayer_distinct samples_exchanged.chosenBefore) samples_compatible, ?_⟩
  refine (loads projectFirstWorld userFirstWorld .plain commentedMembers conciseMembers
    samples_exchanged Json.distinct_empty samples_compatible once _).mp ?_
  rw [load_result samples_exchanged.userBefore samples_exchanged.chosenBefore]
  decide +kernel

end Sample

end Exchanged

section Repeated

inductive Stacked (world : World) (request : Request) : List Members → Prop where
  | files {user chosen : Members} (below : UserLayer world user)
      (above : ChosenLayer world request chosen) :
      Stacked world request [user, chosen, request.overrides]

variable {world : World} {request : Request} {layers : List Members}

theorem Stacked.load_result (stacked : Stacked world request layers) :
    (load world request).result = buildConfig world.environment (layers.foldl Json.merge []) := by
  cases stacked with
  | files below above => exact HoconRender.load_result below above

theorem Stacked.distinct (stacked : Stacked world request layers)
    (top : (Json.obj request.overrides).Distinct) :
    ∀ layer ∈ layers, (Json.obj layer).Distinct := by
  cases stacked with
  | files below above =>
    simpa using ⟨userLayer_distinct below, chosenLayer_distinct above, top⟩

/-- Nothing and an object itself are neutral where it is merged, and what was merged is absorbed
when it comes again. So two loads end alike if their layers are the same but for empty ones and for
repetitions of neighbours, as of one file that is the user file and is named as well. -/
theorem repeated_layers_change_nothing :
    (∀ target source : Members, (Json.obj target).Distinct → (Json.obj source).Distinct →
      Json.merge [] source = source ∧ Json.merge target [] = target ∧
      Json.merge target target = target ∧
      Json.merge (Json.merge target source) source = Json.merge target source) ∧
    ∀ (before after : World) (asked again : Request) (layers others : List Members),
      Stacked before asked layers → Stacked after again others →
      (Json.obj asked.overrides).Distinct → (Json.obj again.overrides).Distinct →
      after.environment = before.environment → Json.collapsed others = Json.collapsed layers →
      (load after again).result = (load before asked).result := by
  refine ⟨fun target source below distinct => ⟨Json.merge_empty distinct, rfl,
    Json.merge_self below, Json.merge_absorbed distinct below⟩, ?_⟩
  intro before after asked again layers others first second top other environment same
  have wholeFirst := Json.foldl_merge_collapsed (first.distinct top) Json.distinct_empty
  have wholeSecond := Json.foldl_merge_collapsed (second.distinct other) Json.distinct_empty
  rw [first.load_result, second.load_result, ← wholeFirst, ← wholeSecond, same, environment]

section Sample

def oneFileWorld : World := .withFiles
  [(["home", ".hoconkit", "config.json"], "\x7b\"render\": \x7b\"preset\": \"concise\"\x7d\x7d")] []

theorem file_named_twice_loads_alike :
    Json.merge (Json.merge jsonMembers presetMembers) presetMembers =
      Json.merge jsonMembers presetMembers ∧
    (load oneFileWorld userFileNamed).result = (load oneFileWorld .plain).result ∧
    (load oneFileWorld .plain).result = .ok ⟨⟨.concise, .ofFn fun _ => none, none⟩, false⟩ := by
  have user : UserLayer oneFileWorld presetMembers :=
    (readUserFile_ok_iff ..).mp (by decide +kernel)
  have named : ChosenLayer oneFileWorld userFileNamed presetMembers :=
    (readChosenFile_ok_iff ..).mp (by decide +kernel)
  have unnamed : ChosenLayer oneFileWorld .plain [] :=
    (readChosenFile_ok_iff ..).mp (by decide +kernel)
  have distinct : (Json.obj jsonMembers).Distinct := by
    simp only [jsonMembers, Json.Distinct, Json.DistinctMembers]
    decide +kernel
  obtain ⟨laws, loads⟩ := repeated_layers_change_nothing
  refine ⟨(laws _ _ distinct (userLayer_distinct user)).2.2.2, ?_, ?_⟩
  · exact loads oneFileWorld oneFileWorld .plain userFileNamed _ _ (.files user unnamed)
      (.files user named) Json.distinct_empty Json.distinct_empty rfl (by decide +kernel)
  · rw [load_result user unnamed]
    decide +kernel

end Sample

end Repeated

end HoconRender
