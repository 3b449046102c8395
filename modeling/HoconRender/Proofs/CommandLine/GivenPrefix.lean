import HoconRender.Proofs.CommandLine.Canonical
import HoconRender.Proofs.CommandLine.Document
import HoconRender.Proofs.Loading.LetterCase

/-
A comment prefix that a line gives behind an equals sign. Any text that is not empty comes out as it
was given, and nothing else changes. Only two hyphens are taken for no value, which no load accepts.
-/
namespace HoconRender

def prefixMembers (value : Json) : Members := [(Text.ofString "comment_prefix", value)]

def prefixOverrides (value : Json) : Members :=
  [(Text.ofString "render", .obj (prefixMembers value))]

theorem prefixOverrides_distinct {value : Json} (inner : value.Distinct) :
    (Json.obj (prefixOverrides value)).Distinct := by
  simp [prefixOverrides, prefixMembers, Json.Distinct, Json.DistinctMembers, Entries.keys, inner]

theorem Field.value?_beside_prefix (value : Json) (below : Text → Option Json) {field : Field}
    (other : field ≠ .commentPrefix) :
    (field.value? fun key => (Entries.get? (prefixMembers value) key).or (below key)) =
      field.value? below := by
  cases field with
  | preset => rfl
  | switch flag => cases flag <;> rfl
  | commentPrefix => exact absurd rfl other

namespace RenderSettings

/-- Settings with a comment prefix laid over them differ in that alone. -/
theorem settles_prefixed {below : Text → Option Json} {settings : RenderSettings}
    (settles : Settles (fun field => field.value? below) settings) {value : Json}
    {commentPrefix : Option Text} (accepted : commentPrefixOf value = .ok commentPrefix) :
    Settles (fun field => field.value? fun key =>
        (Entries.get? (prefixMembers value) key).or (below key))
      { settings with commentPrefix := commentPrefix } where
  preset := by
    rw [Field.value?_beside_prefix value below (by decide)]
    exact settles.preset
  switch := by
    intro flag
    rw [Field.value?_beside_prefix value below (by simp)]
    exact settles.switch flag
  commentPrefix := by
    rw [Field.value?_of_first rfl (show _ = some value from rfl)]
    exact accepted

end RenderSettings

namespace Config

def withPrefix (config : Config) (s : Text) : Config :=
  { config with render := { config.render with commentPrefix := some s } }

theorem toOptions_withPrefix_get (config : Config) (s : Text) (flag : Flag) :
    (config.withPrefix s).toOptions.get flag = config.toOptions.get flag := by
  rw [toOptions, RenderSettings.toOptions_get, toOptions, RenderSettings.toOptions_get]
  rfl

theorem toOptions_withPrefix_commentPrefix (config : Config) (s : Text) :
    (config.withPrefix s).toOptions.commentPrefix = s :=
  RenderSettings.toOptions_commentPrefix _

end Config

namespace Layers

variable {world : World} {request : Request} {layers : Layers}

theorem load_prefixed (read : layers.Of world request) (alone : layers.overrides = [])
    (exactly : layers.SpellExactly "render") {config : Config}
    (loaded : (load world request).result = .ok config) {s : Text} (characters : s.WellFormed)
    (present : s ≠ []) :
    (load world { request with overrides := prefixOverrides (.str s) }).result =
      .ok (config.withPrefix s) := by
  have distinct : (Json.obj (prefixOverrides (.str s))).Distinct := prefixOverrides_distinct trivial
  have first := fileSpelling?_of_exactly exactly
  obtain ⟨render, debug⟩ := (Config.ofValues_ok_iff ..).mp ((load_ok_iff_values read _).mp loaded)
  have settles := ((renderOf_ok_iff_stack read exactly _).mp render).2
  have same : layers.under [] = layers := by
    obtain ⟨overrides, _, _, _, _⟩ := layers
    cases alone
    rfl
  rw [alone] at debug
  apply (load_overridden_iff (under_of read distinct) rfl first _).mpr
  refine ⟨?_, debug⟩
  have below : ((layers.under (prefixOverrides (.str s))).under []).value? = layers.value? :=
    congrArg value? same
  rw [below]
  exact RenderSettings.settles_prefixed settles
    ((RenderSettings.commentPrefixOf_ok_some_iff ..).mpr ⟨rfl, characters, present⟩)

theorem load_prefix_refused (read : layers.Of world request)
    (exactly : layers.SpellExactly "render") {value : Json} (inner : value.Distinct)
    (refused : ∀ commentPrefix, RenderSettings.commentPrefixOf value ≠ .ok commentPrefix) :
    ∃ faults, (load world { request with overrides := prefixOverrides value }).result =
      .error (.configuration (.invalidSettings faults)) := by
  have prefixed := under_of read (prefixOverrides_distinct inner)
  have first := fileSpelling?_of_exactly exactly
  apply load_refused prefixed
  intro config loaded
  have settles := ((load_overridden_iff prefixed rfl first config).mp loaded).1
  have taken := settles.commentPrefix
  rw [Field.value?_of_first rfl (show _ = some value from rfl)] at taken
  exact refused _ taken

end Layers

namespace CommandLine

def prefixWords (s : Text) (json : Bool) : List Text :=
  (Text.ofString "--comment-prefix=" ++ s) :: if json then ["--format=json"] else []

def prefixArguments (value : Supplied) (json : Bool) : Arguments :=
  { Arguments.unset with
    commentPrefix := some value
    format := .text (if json then "json" else "summary") }

def prefixItems (s : Text) (json : Bool) : List Item :=
  .valued .commentPrefix s .assigned :: if json then [.valued .format "json" .assigned] else []

theorem texts_prefixItems (s : Text) (json : Bool) :
    (prefixItems s json).flatMap Item.texts = prefixWords s json := by
  have start : Text.ofString "--comment-prefix=" = Slot.commentPrefix.name ++ [equalsSign] := by
    decide
  have format : Text.ofString "--format=json" =
      Slot.format.name ++ equalsSign :: Text.ofString "json" := by decide
  cases json <;> simp [prefixWords, prefixItems, Item.texts, start, format]

theorem canonical_prefixItems {s : Text} (apart : s ≠ separatorText) (json : Bool) :
    ∀ item ∈ prefixItems s json, item.Canonical := by
  unfold prefixItems
  rw [List.forall_mem_cons]
  refine ⟨⟨trivial, apart⟩, ?_⟩
  cases json with
  | false => exact List.forall_mem_nil _
  | true => exact List.forall_mem_singleton.mpr ⟨Or.inr rfl, by decide⟩

theorem parse_prefixWords {s : Text} (apart : s ≠ separatorText) (json : Bool) :
    parse (inspectLine (prefixWords s json)) = .ok (.inspect (prefixArguments (.text s) json)) := by
  have recorded : (prefixItems s json).foldl Item.record .unset =
      prefixArguments (.text s) json := by
    cases json <;> rfl
  rw [← texts_prefixItems, parse_items (canonical_prefixItems apart json), recorded]

theorem parse_separatorPrefix (json : Bool) :
    parse (inspectLine (prefixWords separatorText json)) =
      .ok (.inspect (prefixArguments .nothing json)) := by
  cases json <;> decide +kernel

theorem parse_unset : parse (inspectLine []) = .ok (.inspect .unset) := by decide

theorem request_prefixArguments (value : Supplied) (json : Bool) :
    (prefixArguments value json).request =
      { Request.plain with overrides := prefixOverrides (Arguments.suppliedValue value) } := by
  cases json <;> rfl

theorem showConfig_prefixArguments (value : Supplied) (json : Bool) (config : Config) :
    showConfig (prefixArguments value json) config =
      remarks config.debug config ++ optionsText json config.toOptions := by
  have wants : (prefixArguments value json).wantsJson = json := by
    cases json <;> rfl
  have quiet : (prefixArguments value json).verbose = false := rfl
  rw [showConfig, wants, quiet, Bool.false_or]

/-- A prefix that is given is shown, and every switch is as it is without it. Two hyphens alone make
the command fail. -/
theorem given_prefix_shown_unless_separator (world : World) {s : Text} (characters : s.WellFormed)
    (present : s ≠ [])
    (exactly : ∀ members, UserLayer world members ∨ ChosenLayer world .plain members →
      ∀ key ∈ Entries.keys members, key.lower = Text.ofString "render" →
        key = Text.ofString "render")
    (alone : (run world (inspectLine [])).ending = .exit 0) :
    ∃ config, (load world .plain).result = .ok config ∧
      (run world (inspectLine [])).output = showConfig .unset config ∧
      (s ≠ separatorText → ∃ given : Config, given.toOptions.commentPrefix = s ∧
        (∀ flag, given.toOptions.get flag = config.toOptions.get flag) ∧
        (∀ json, (run world (inspectLine (prefixWords s json))).ending = .exit 0 ∧
          (run world (inspectLine (prefixWords s json))).output =
            remarks given.debug given ++ optionsText json given.toOptions) ∧
        ∃ members, Json.read (optionsText true given.toOptions) = .ok (.obj members) ∧
          Entries.get? members "comment_prefix" = some (.str s)) ∧
      (s = separatorText → ∀ json, ∃ faults before,
        (run world (inspectLine (prefixWords s json))).ending = .exit 1 ∧
        (run world (inspectLine (prefixWords s json))).output = [] ∧
        (run world (inspectLine (prefixWords s json))).errors =
          before ++ failureLine false (.invalidSettings faults)) := by
  obtain ⟨config, loaded⟩ := loaded_of_exit parse_unset alone
  have plain : (load world .plain).result = .ok config := loaded
  obtain ⟨layers, read⟩ := Layers.of_load plain Json.distinct_empty
  have spelled := Layers.spellExactly_of_files read rfl exactly
  refine ⟨config, plain, (run_shows parse_unset loaded).2, ?_, ?_⟩
  · intro apart
    have given := Layers.load_prefixed read read.overrides spelled plain characters present
    have commentPrefix := config.toOptions_withPrefix_commentPrefix s
    refine ⟨config.withPrefix s, commentPrefix, config.toOptions_withPrefix_get s, ?_,
      (config.withPrefix s).toOptions.toMembers, ?_, ?_⟩
    · intro json
      rw [← showConfig_prefixArguments (.text s) json]
      apply run_shows (parse_prefixWords apart json)
      rw [request_prefixArguments]
      exact given
    · exact read_document (commentPrefix ▸ characters)
    · rw [RenderOptions.get?_toMembers_commentPrefix, commentPrefix]
  · rintro rfl json
    have noText (commentPrefix : Option Text) :
        RenderSettings.commentPrefixOf (Arguments.suppliedValue .nothing) ≠ .ok commentPrefix := by
      simp [RenderSettings.commentPrefixOf, Arguments.suppliedValue]
    obtain ⟨faults, failed⟩ := Layers.load_prefix_refused read spelled
      (by simp [Arguments.suppliedValue, Json.Distinct, Json.DistinctItems]) noText
    have refused : (load world (prefixArguments .nothing json).request).result =
        .error (.configuration (.invalidSettings faults)) := by
      rw [request_prefixArguments]
      exact failed
    obtain ⟨ending, output, before, errors⟩ := run_reports (parse_separatorPrefix json) refused
    exact ⟨faults, before, ending, output, errors⟩

def optionLike : Text := "--no-comments = \""

def commentedWorld : World := .withFiles
  [(["home", ".hoconkit", "config.json"],
    "\x7b\"render\":\x7b\"preset\":\"concise\",\"comment_prefix\":\"//\"\x7d\x7d")]
  [("HOCONKIT_RENDER__FORMATTED", "yes")]

def commentedUserMembers : Members :=
  [(Text.ofString "render", .obj [(Text.ofString "preset", .str "concise"),
    (Text.ofString "comment_prefix", .str "//")])]

theorem commentedWorld_files :
    (readUserFile commentedWorld).result = .ok commentedUserMembers ∧
      (readChosenFile commentedWorld .plain).result = .ok [] := by decide +kernel

theorem commentedWorld_exactly (members : Members)
    (layer : UserLayer commentedWorld members ∨ ChosenLayer commentedWorld .plain members) :
    ∀ key ∈ Entries.keys members, key.lower = Text.ofString "render" →
      key = Text.ofString "render" := by
  obtain ⟨user, chosen⟩ := commentedWorld_files
  rcases layer with below | above
  · cases user.symm.trans ((readUserFile_ok_iff ..).mpr below)
    decide
  · cases chosen.symm.trans ((readChosenFile_ok_iff ..).mpr above)
    decide

theorem commentedWorld_loads : (load commentedWorld .plain).result =
    .ok ⟨⟨.concise, ⟨none, none, some true, none, none⟩, some (Text.ofString "//")⟩, false⟩ := by
  obtain ⟨user, chosen⟩ := commentedWorld_files
  rw [load_of_read user chosen]
  decide

theorem option_like_prefix_shown :
    (∃ given : Config, given.toOptions.commentPrefix = optionLike ∧
      (run commentedWorld (inspectLine (prefixWords optionLike true))).output =
        remarks given.debug given ++ optionsText true given.toOptions) ∧
      (run commentedWorld (inspectLine (prefixWords separatorText true))).ending = .exit 1 := by
  have alone : (run commentedWorld (inspectLine [])).ending = .exit 0 :=
    (run_shows parse_unset commentedWorld_loads).1
  obtain ⟨_, _, _, shows, _⟩ := given_prefix_shown_unless_separator commentedWorld
    (by decide : optionLike.WellFormed) (by decide) commentedWorld_exactly alone
  obtain ⟨_, _, _, _, fails⟩ := given_prefix_shown_unless_separator commentedWorld
    (by decide : separatorText.WellFormed) (by decide) commentedWorld_exactly alone
  obtain ⟨given, commentPrefix, _, printed, _⟩ := shows (by decide)
  obtain ⟨_, _, ending, _⟩ := fails rfl true
  exact ⟨⟨given, commentPrefix, (printed true).2⟩, ending⟩

end CommandLine
end HoconRender
