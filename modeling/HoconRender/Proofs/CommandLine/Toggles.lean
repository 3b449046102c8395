import HoconRender.Proofs.CommandLine.Inspection
import HoconRender.Proofs.CommandLine.Occurrences
import HoconRender.Proofs.CommandLine.Overrides
import HoconRender.Proofs.Loading.LetterCase

/-
Switches that a line sets, in the options that are shown. They are overrides of the render settings,
and these are on top of everything in sight. Only a file that spells the key of the render settings
in another case, in front of all other spellings, keeps them from being read.
-/
namespace HoconRender.CommandLine

variable {world : World} {arguments : Arguments} {config : Config}

theorem set_switch_loaded {layers : Layers} (read : layers.Of world arguments.request)
    (first : ∀ other, layers.fileSpelling? "render" = some other → other = Text.ofString "render")
    (loaded : (load world arguments.request).result = .ok config) {flag : Flag} {value : Bool}
    (set : arguments.flags.get flag = some value) : config.toOptions.get flag = value := by
  have own : Entries.get? arguments.overrides flag.fieldName = some (.bool value) := by
    have found := arguments.get?_overrides (.switch flag)
    rw [Arguments.set?, set] at found
    exact found
  rcases arguments.request_overrides with ⟨_, none⟩ | render
  · rw [none] at own
    cases own
  · have settles := ((Layers.load_overridden_iff read (read.overrides.trans render) first
      config).mp loaded).1
    have switch := settles.switch flag
    have top : (Entries.get? arguments.overrides flag.fieldName).or
        ((layers.under []).value? flag.fieldName) = some (.bool value) := by
      rw [own]
      rfl
    rw [Field.value?_of_first (by cases flag <;> rfl) top] at switch
    have taken : some value = config.render.switches.get flag := Except.ok.inj switch
    rw [Config.toOptions, RenderSettings.toOptions_get, ← taken]
    rfl

/-- The options that are shown have every switch as the last word of the line says that is about
it, unless the files spell the key of the render settings in another case first. Then the options
are those that are loaded without what the line sets. -/
theorem toggles_shown_unless_spelled_otherwise (world : World) {line : List Text}
    {arguments : Arguments} (accepted : parse line = .ok (.inspect arguments))
    (ended : (run world line).ending = .exit 0) :
    ∃ rest found config, ∃ layers : Layers, line = inspectLine rest ∧
      words Command.inspect.spellings rest = .ok found ∧
      layers.Of world arguments.request ∧
      (load world arguments.request).result = .ok config ∧
      (run world line).output = showConfig arguments config ∧
      ((∀ other, layers.fileSpelling? "render" = some other → other = Text.ofString "render") →
        ∀ flag value, lastGiven? (Word.toggle? flag) found = some value →
          config.toOptions.get flag = value) ∧
      (∀ other, layers.fileSpelling? "render" = some other → other ≠ Text.ofString "render" →
        (load world { arguments.request with overrides := [] }).result = .ok config) := by
  obtain ⟨config, loaded⟩ := loaded_of_exit accepted ended
  obtain ⟨rest, found, started, told, flags⟩ := parse_inspect_flags accepted
  obtain ⟨layers, read⟩ := Layers.of_load loaded arguments.request_distinct
  refine ⟨rest, found, config, layers, started, told, read, loaded,
    (run_shows accepted loaded).2, ?_, ?_⟩
  · intro first flag value last
    exact set_switch_loaded read first loaded ((flags flag).trans last)
  · intro other first apart
    have only := arguments.request_only_render
    rw [← read.overrides] at only
    rw [← Layers.load_unread read (Layers.unread_render only first apart)
      (Layers.unread_debug only)]
    exact loaded

def spelledWorld (key : String) : World := .withFiles
  [(["project", ".hoconkit.json"], "\x7b\"" ++ key ++ "\":\x7b\"comments\":false\x7d\x7d")] []

def spelledMembers (key : Text) : Members := [(key, .obj [(Text.ofString "comments", .bool false)])]

def togglingWords : List Text := ["--no-comments", "--comments"]

def togglingArguments : Arguments :=
  { Arguments.unset with flags := ⟨none, some true, none, none, none⟩ }

theorem fileSpelling?_spelledWorld {key : String} {layers : Layers} {request : Request}
    (read : layers.Of (spelledWorld key) request)
    (below : (readUserFile (spelledWorld key)).result = .ok [])
    (above : (readChosenFile (spelledWorld key) request).result =
      .ok (spelledMembers (Text.ofString key)))
    (name : Text) : layers.fileSpelling? name = spelling? name [Text.ofString key] := by
  have user := ((readUserFile_ok_iff ..).mpr read.user).symm.trans below
  have chosen := ((readChosenFile_ok_iff ..).mpr read.chosen).symm.trans above
  rw [Layers.fileSpelling?, Except.ok.inj user, Except.ok.inj chosen]
  rfl

def spelledConfig (shown : Bool) : Config :=
  ⟨⟨.defaults, ⟨none, some shown, none, none, none⟩, none⟩, false⟩

theorem toggle_lost_under_capital :
    (∃ config, (run (spelledWorld "render") (inspectLine togglingWords)).output =
        showConfig togglingArguments config ∧ config.toOptions.get .comments = true) ∧
      ∃ config, (run (spelledWorld "Render") (inspectLine togglingWords)).output =
        showConfig togglingArguments config ∧ config.toOptions.get .comments = false := by
  have accepted : parse (inspectLine togglingWords) = .ok (.inspect togglingArguments) := by
    decide +kernel
  constructor
  · have below : (readUserFile (spelledWorld "render")).result = .ok [] := by decide +kernel
    have above : (readChosenFile (spelledWorld "render") togglingArguments.request).result =
        .ok (spelledMembers (Text.ofString "render")) := by decide +kernel
    have loaded : (load (spelledWorld "render") togglingArguments.request).result =
        .ok (spelledConfig true) := by
      rw [load_of_read below above]
      decide +kernel
    obtain ⟨rest, found, config, layers, started, told, read, _, shown, wins, _⟩ :=
      toggles_shown_unless_spelled_otherwise (spelledWorld "render") accepted
        (run_shows accepted loaded).1
    have spelled := fileSpelling?_spelledWorld read below above
    refine ⟨config, shown, wins ?_ .comments true ?_⟩
    · intro other first
      have own : spelling? "render" [Text.ofString "render"] = some (Text.ofString "render") := by
        decide
      exact (Option.some.inj (own.symm.trans ((spelled _).symm.trans first))).symm
    · cases started
      have last : (words Command.inspect.spellings togglingWords).map
          (lastGiven? (Word.toggle? .comments)) = .ok (some true) := by decide +kernel
      rw [told] at last
      exact Except.ok.inj last
  · have below : (readUserFile (spelledWorld "Render")).result = .ok [] := by decide +kernel
    have above : (readChosenFile (spelledWorld "Render") togglingArguments.request).result =
        .ok (spelledMembers (Text.ofString "Render")) := by decide +kernel
    have loaded : (load (spelledWorld "Render") togglingArguments.request).result =
        .ok (spelledConfig false) := by
      rw [load_of_read below above]
      decide +kernel
    have unset : (readChosenFile (spelledWorld "Render")
        { togglingArguments.request with overrides := [] }).result =
          .ok (spelledMembers (Text.ofString "Render")) := above
    have alone : (load (spelledWorld "Render")
        { togglingArguments.request with overrides := [] }).result = .ok (spelledConfig false) := by
      rw [load_of_read below unset]
      decide +kernel
    obtain ⟨rest, found, config, layers, _, _, read, _, shown, _, lost⟩ :=
      toggles_shown_unless_spelled_otherwise (spelledWorld "Render") accepted
        (run_shows accepted loaded).1
    have capital : layers.fileSpelling? "render" = some (Text.ofString "Render") := by
      rw [fileSpelling?_spelledWorld read below above]
      decide
    have same := (lost _ capital (by decide)).symm.trans alone
    refine ⟨config, shown, ?_⟩
    rw [Except.ok.inj same]
    decide

end HoconRender.CommandLine
