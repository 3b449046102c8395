import HoconRender.CommandLine.Run
import HoconRender.Proofs.Json.Documents
import HoconRender.Proofs.Loading.Layers

/-
Options that were shown as JSON and stand as the render settings of a file. The file is read as
what was shown, it names every field, and so it decides all of the options alone: neither the user
file nor the environment below it, nor a preset, has a say.
-/
namespace HoconRender

def settingsText (options : RenderOptions) : Text :=
  Text.ofString "\x7b\"render\": " ++ CommandLine.document (.obj options.toMembers)
    ++ Text.ofString "\x7d"

def settingsMembers (options : RenderOptions) : Members :=
  [(Text.ofString "render", .obj options.toMembers)]

def Content.textOf (bytes : List Nat) : Except Text.Utf8Fault Text :=
  (Text.decodeUtf8 bytes).map Text.unixLines

/-- The file whose members lie over the user file's: the one named, or else the project's. -/
def chosenPath? (world : World) (request : Request) : Option Path :=
  match request.configFile, request.projectDirectory with
  | some (.path path), _ => some path
  | none, some (.path directory) => some (World.projectFileIn directory)
  | none, none => world.currentDirectory?.map World.projectFileIn
  | _, _ => none

namespace RenderOptions

theorem toMembers_plain {options : RenderOptions} (characters : options.commentPrefix.WellFormed)
    (depth : Nat) : Json.Plain (depth + 1) (.obj options.toMembers) := by
  have distinct : (Entries.keys options.toMembers).Nodup := by
    change (Flag.all.map Flag.fieldName ++ [Text.ofString "comment_prefix"]).Nodup
    decide
  have truth (b : Bool) : Json.Plain depth (.bool b) := by cases depth <;> trivial
  have text : Json.Plain depth (.str options.commentPrefix) := by
    cases depth <;> exact characters
  have names : ∀ name ∈ Entries.keys options.toMembers, name.WellFormed := by
    change ∀ name ∈ Flag.all.map Flag.fieldName ++ [Text.ofString "comment_prefix"], _
    decide
  refine ⟨distinct, ?_⟩
  intro entry member
  refine ⟨names entry.1 (List.mem_map_of_mem member), ?_⟩
  rcases List.mem_append.mp member with switch | last
  · obtain ⟨flag, _, rfl⟩ := List.mem_map.mp switch
    exact truth (options.get flag)
  · rw [List.mem_singleton.mp last]
    exact text

end RenderOptions

variable {options : RenderOptions}

theorem settingsText_portable (characters : options.commentPrefix.WellFormed) :
    (settingsText options).Portable := by
  have shown := Json.indented_portable (RenderOptions.toMembers_plain characters 0) 0
  exact Text.portable_append (Text.portable_append (by decide)
    (Text.portable_append shown (by decide))) (by decide)

theorem read_settingsText (characters : options.commentPrefix.WellFormed) :
    Json.read (settingsText options) = .ok (.obj (settingsMembers options)) := by
  have opening : Text.ofString "\x7b\"render\": " =
      0x7B :: (Json.quotedText (Text.ofString "render") ++ Json.colon) := by decide
  have whole : settingsText options =
      0x7B :: (Json.quotedText (Text.ofString "render") ++ Json.colon ++
        Json.indented 0 (.obj options.toMembers) ++ ([Text.newline] ++ [0x7D])) := by
    unfold settingsText CommandLine.document Json.pretty Text.line
    rw [opening]
    simp [Text.ofString]
  have plain := RenderOptions.toMembers_plain characters (Json.nestingLimit - 2)
  rw [whole]
  exact Json.read_member (by decide) plain (by simp [Json.Blank, Json.isBlank, Text.newline])

theorem textOf_settingsText (characters : options.commentPrefix.WellFormed) :
    Content.textOf (Text.encodeUtf8 (settingsText options)) = .ok (settingsText options) := by
  have portable := settingsText_portable characters
  unfold Content.textOf Text.decodeUtf8
  rw [Text.encodeUtf8_portable portable, Text.decodeFrom_portable portable]
  exact congrArg Except.ok (Text.unixLines_portable portable)

theorem ofBytes_settingsText (characters : options.commentPrefix.WellFormed) {bytes : List Nat}
    (written : Content.textOf bytes = .ok (settingsText options)) :
    Content.ofBytes bytes = .value (.obj (settingsMembers options)) := by
  obtain ⟨text, decoded, same⟩ := Outcome.map_ok_iff.mp written
  unfold Content.ofBytes
  rw [decoded]
  dsimp only
  rw [same, read_settingsText characters]

theorem chosenLayer_yields {world : World} {request : Request} {members : Members}
    (layer : ChosenLayer world request members) :
    ∃ path required, chosenPath? world request = some path ∧ Yields world path required members := by
  unfold chosenPath?
  cases layer with
  | @named path named yields =>
    rw [named]
    exact ⟨path, true, rfl, yields⟩
  | @inDirectory directory unnamed chosen yields =>
    rw [unnamed, chosen]
    exact ⟨World.projectFileIn directory, false, rfl, yields⟩
  | @inCurrent directory unnamed unchosen known yields =>
    rw [unnamed, unchosen, known]
    exact ⟨World.projectFileIn directory, false, rfl, yields⟩

namespace RenderSettings

theorem toOptions_of_every_field {value? : Field → Option Json} {settings : RenderSettings}
    (settles : Settles value? settings)
    (characters : options.commentPrefix.WellFormed) (present : options.commentPrefix ≠ [])
    (switch : ∀ flag, value? (.switch flag) = some (.bool (options.get flag)))
    (last : value? .commentPrefix = some (.str options.commentPrefix)) :
    settings.toOptions = options := by
  apply RenderOptions.ext_fields
  · intro flag
    have taken := settles.switch flag
    rw [switch flag] at taken
    have set : settings.switches.get flag = some (options.get flag) := (Except.ok.inj taken).symm
    rw [toOptions_get, set]
    rfl
  · have taken := settles.commentPrefix
    rw [last] at taken
    have known := (commentPrefixOf_ok_some_iff (.str options.commentPrefix)
      options.commentPrefix).mpr ⟨rfl, characters, present⟩
    have set : settings.commentPrefix = some options.commentPrefix :=
      (Except.ok.inj (known.symm.trans taken)).symm
    rw [toOptions_commentPrefix, set]
    rfl

end RenderSettings

def RenderOptions.settings (options : RenderOptions) : RenderSettings :=
  ⟨.defaults, .ofFn fun flag => some (options.get flag), some options.commentPrefix⟩

theorem ofMembers_toMembers (characters : options.commentPrefix.WellFormed)
    (present : options.commentPrefix ≠ []) :
    RenderSettings.ofMembers options.toMembers = .ok options.settings := by
  apply (RenderSettings.ofMembers_ok_iff ..).mpr
  refine ⟨rfl, ?_, ?_⟩
  · intro flag
    rw [Field.value?_of_first (by cases flag <;> rfl) (options.get?_toMembers_flag flag)]
    cases flag <;> rfl
  · rw [Field.value?_of_first rfl options.get?_toMembers_commentPrefix]
    exact (RenderSettings.commentPrefixOf_ok_some_iff ..).mpr ⟨rfl, characters, present⟩

namespace Layers

theorem value?_of_chosen {layers : Layers} (overrides : layers.overrides = [])
    (chosen : layers.chosen = settingsMembers options) {key : Text} {value : Json}
    (found : Entries.get? options.toMembers key = some value) :
    layers.value? key = some value := by
  have top : layers.stack = options.toMembers ::
      (Json.inSight [Entries.get? layers.user "render"] ++ [Json.held layers.render]) := by
    unfold stack given objects
    rw [overrides, chosen]
    rfl
  unfold value?
  rw [top, List.findSome?_cons, found]

end Layers

theorem reloaded_options {later : World} {asked : Request} {again : Config} {path : Path}
    {bytes : List Nat} {location : Location} (characters : options.commentPrefix.WellFormed)
    (present : options.commentPrefix ≠ []) (chosen : chosenPath? later asked = some path)
    (leads : later.target path = .node (.file bytes) location)
    (written : Content.textOf bytes = .ok (settingsText options)) (plain : asked.overrides = [])
    (exactly : ∀ user, UserLayer later user →
      ∀ key ∈ Entries.keys user, key.lower = Text.ofString "render" → key = Text.ofString "render")
    (reloaded : (load later asked).result = .ok again) : again.toOptions = options := by
  have distinct : (Json.obj asked.overrides).Distinct := by
    rw [plain]
    exact Json.distinct_empty
  obtain ⟨layers, read⟩ := Layers.of_load reloaded distinct
  have overrides : layers.overrides = [] := read.overrides.trans plain
  have file : layers.chosen = settingsMembers options := by
    obtain ⟨other, required, same, yields⟩ := chosenLayer_yields read.chosen
    cases chosen.symm.trans same
    exact yields_of_content yields leads (ofBytes_settingsText characters written)
  have spelled : layers.SpellExactly "render" := by
    intro members member key inside lower
    simp only [Layers.objects, overrides, file, List.mem_cons, List.not_mem_nil,
      or_false] at member
    rcases member with rfl | rfl | rfl
    · simp [Entries.keys] at inside
    · simpa [settingsMembers, Entries.keys] using inside
    · exact exactly layers.user read.user key inside lower
  have values := (Config.ofValues_ok_iff ..).mp ((Layers.load_ok_iff_values read again).mp reloaded)
  have settles := ((Layers.renderOf_ok_iff_stack read spelled again.render).mp values.1).2
  refine RenderSettings.toOptions_of_every_field settles characters present ?_ ?_
  · intro flag
    refine Field.value?_of_first (by cases flag <;> rfl)
      (Layers.value?_of_chosen overrides file (options.get?_toMembers_flag flag))
  · exact Field.value?_of_first rfl
      (Layers.value?_of_chosen overrides file options.get?_toMembers_commentPrefix)

/-- Options of a load, shown and put into the file of another load without overrides, come out of
it again, whatever world it takes place in. -/
theorem shown_options_reload {world : World} {request : Request} {config : Config}
    (loaded : (load world request).result = .ok config) :
    RenderSettings.ofMembers config.toOptions.toMembers = .ok config.toOptions.settings ∧
    Content.textOf (Text.encodeUtf8 (settingsText config.toOptions)) =
      .ok (settingsText config.toOptions) ∧
    ∀ later asked path bytes location,
      chosenPath? later asked = some path → later.target path = .node (.file bytes) location →
      Content.textOf bytes = .ok (settingsText config.toOptions) →
      Content.ofBytes bytes = .value (.obj (settingsMembers config.toOptions)) ∧
      (asked.overrides = [] →
        (∀ user, UserLayer later user → ∀ key ∈ Entries.keys user,
          key.lower = Text.ofString "render" → key = Text.ofString "render") →
        ∀ again, (load later asked).result = .ok again →
          again.toOptions = config.toOptions) := by
  obtain ⟨characters, present⟩ := RenderSettings.toOptions_acceptable (load_acceptable loaded)
  refine ⟨ofMembers_toMembers characters present, textOf_settingsText characters, ?_⟩
  intro later asked path bytes location chosen leads written
  refine ⟨ofBytes_settingsText characters written, ?_⟩
  intro plain exactly again reloaded
  exact reloaded_options characters present chosen leads written plain exactly reloaded

def markedPrefix : Text := [0x22, 0x5C, 0x07, 0x1F50D]

def markedRequest : Request :=
  ⟨none, none, [(Text.ofString "render", .obj [(Text.ofString "preset", .str "concise"),
    (Text.ofString "comment_prefix", .str markedPrefix)])]⟩

def markedConfig : Config := ⟨⟨.concise, .ofFn fun _ => none, some markedPrefix⟩, false⟩

def contraryBytes : List Nat := Text.encodeUtf8 (settingsText markedConfig.toOptions)

def contraryWorld : World :=
  let world : World := .withFiles
    [(["home", ".hoconkit", "config.json"],
      "\x7b\"render\":\x7b\"preset\":\"defaults\",\"comments\":true\x7d\x7d")]
    [("HOCONKIT_RENDER", "\x7b\"comment_prefix\":\";\",\"json\":false\x7d"),
      ("HOCONKIT_RENDER__FORMATTED", "yes")]
  { world with files := world.files.write ["project", ".hoconkit.json"] contraryBytes }

def contraryPath : Path := World.projectFileIn (.ofText (Text.ofString "/project"))

theorem marked_options_reload :
    (load (.withFiles [] []) markedRequest).result = .ok markedConfig ∧
      ∃ again, (load contraryWorld .plain).result = .ok again ∧
        again ≠ markedConfig ∧ again.toOptions = markedConfig.toOptions := by
  have loaded : (load (.withFiles [] []) markedRequest).result = .ok markedConfig := by
    decide +kernel
  obtain ⟨_, written, reload⟩ := shown_options_reload loaded
  have known : contraryWorld.currentDirectory? = some (.ofText (Text.ofString "/project")) := by
    decide +kernel
  have chosen : chosenPath? contraryWorld .plain = some contraryPath :=
    congrArg (Option.map World.projectFileIn) known
  have leads : contraryWorld.target contraryPath =
      .node (.file contraryBytes) [Text.ofString "project", Text.ofString ".hoconkit.json"] := by
    decide +kernel
  obtain ⟨content, returns⟩ := reload contraryWorld .plain _ _ _ chosen leads written
  have user : (readUserFile contraryWorld).result = .ok
      [(Text.ofString "render", .obj [(Text.ofString "preset", .str "defaults"),
        (Text.ofString "comments", .bool true)])] := by decide +kernel
  have reloaded : (load contraryWorld .plain).result = .ok
      ⟨⟨.defaults, ⟨some false, some false, some false, some true, some true⟩, some markedPrefix⟩,
        false⟩ := by
    rw [load_result ((readUserFile_ok_iff ..).mp user)
      (.inCurrent rfl rfl known (.object leads content))]
    decide +kernel
  refine ⟨loaded, _, reloaded, by decide, returns rfl ?_ _ reloaded⟩
  intro members layer
  cases user.symm.trans ((readUserFile_ok_iff ..).mpr layer)
  decide +kernel

end HoconRender
