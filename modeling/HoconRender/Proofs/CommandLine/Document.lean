import HoconRender.Proofs.CommandLine.Inspection
import HoconRender.Proofs.Loading.ShownOptions

/-
What the command that shows options prints as JSON. The document reads as the options, and it is all
that is printed unless remarks are asked for, by the line or by the settings. Remarks stand in front
of it, and with them the whole is no document.
-/
namespace HoconRender.CommandLine

theorem read_document {options : RenderOptions} (characters : options.commentPrefix.WellFormed) :
    Json.read (document (.obj options.toMembers)) = .ok (.obj options.toMembers) :=
  Json.read_indented (RenderOptions.toMembers_plain characters (Json.nestingLimit - 1))
    (by simp [Json.Blank, Json.isBlank, Text.newline])

theorem remarks_quiet (config : Config) : remarks false config = [] := by simp [remarks, remark]

theorem remarks_start (config : Config) : ∃ rest, remarks true config = 0x1F50D :: rest :=
  ⟨_, rfl⟩

/-- With JSON asked for, the remarks are followed by one document, which reads as the options that
were loaded. All of the output reads so if there are no remarks, and else not as JSON at all. -/
theorem json_format_prints_document (world : World) {line : List Text} {arguments : Arguments}
    (accepted : parse line = .ok (.inspect arguments))
    (json : arguments.format = .text (Text.ofString "json"))
    (ended : (run world line).ending = .exit 0) :
    ∃ config, (load world arguments.request).result = .ok config ∧
      (run world line).output = remarks (arguments.verbose || config.debug) config ++
        document (.obj config.toOptions.toMembers) ∧
      Json.read (document (.obj config.toOptions.toMembers)) =
        .ok (.obj config.toOptions.toMembers) ∧
      (arguments.verbose = false → config.debug = false →
        Json.read (run world line).output = .ok (.obj config.toOptions.toMembers)) ∧
      (arguments.verbose = true ∨ config.debug = true →
        ∀ value, Json.read (run world line).output ≠ .ok value) := by
  obtain ⟨config, loaded⟩ := loaded_of_exit accepted ended
  obtain ⟨characters, _⟩ := RenderSettings.toOptions_acceptable (load_acceptable loaded)
  have output : (run world line).output = remarks (arguments.verbose || config.debug) config ++
      document (.obj config.toOptions.toMembers) := by
    rw [(run_shows accepted loaded).2, showConfig, Arguments.wantsJson, json]
    rfl
  refine ⟨config, loaded, output, read_document characters, ?_, ?_⟩
  · intro quiet calm
    rw [output, quiet, calm, Bool.or_false, remarks_quiet]
    exact read_document characters
  · intro remarked value
    have verbose : (arguments.verbose || config.debug) = true := Bool.or_eq_true_iff.mpr remarked
    obtain ⟨rest, starts⟩ := remarks_start config
    rw [output, verbose, starts]
    exact Json.read_of_magnifying_glass _ value

def jsonLine : List Text := ["options", "show", "--format", "json"]

def jsonArguments : Arguments := { Arguments.unset with format := .text "json" }

def debuggingWorld : World := .withFiles [] [("HOCONKIT_DEBUG", "true")]

def debuggingConfig : Config := { Config.unset with debug := true }

theorem parse_jsonLine : parse jsonLine = .ok (.inspect jsonArguments) := by decide

theorem debuggingWorld_loads :
    (load debuggingWorld jsonArguments.request).result = .ok debuggingConfig := by decide +kernel

theorem debugging_output_is_no_document :
    parse jsonLine = .ok (.inspect jsonArguments) ∧ jsonArguments.wantsJson = true ∧
      jsonArguments.verbose = false ∧ (run debuggingWorld jsonLine).ending = .exit 0 ∧
      ∀ value, Json.read (run debuggingWorld jsonLine).output ≠ .ok value := by
  obtain ⟨ending, output⟩ := run_shows parse_jsonLine debuggingWorld_loads
  obtain ⟨rest, starts⟩ := remarks_start debuggingConfig
  refine ⟨parse_jsonLine, rfl, rfl, ending, ?_⟩
  intro value
  have verbose : (jsonArguments.verbose || debuggingConfig.debug) = true := rfl
  rw [output, showConfig, verbose, starts]
  exact Json.read_of_magnifying_glass _ value

theorem plain_output_is_document :
    Json.read (run (.withFiles [] []) jsonLine).output = .ok (.obj Preset.defaults.options.toMembers)
      ∧ ∃ lines, lines ≠ [] ∧ (run debuggingWorld jsonLine).output =
        lines ++ document (.obj Preset.defaults.options.toMembers) := by
  constructor
  · have plain : (load (.withFiles [] []) jsonArguments.request).result = .ok .unset := by
      decide +kernel
    obtain ⟨config, loaded, _, _, whole, _⟩ := json_format_prints_document (.withFiles [] [])
      parse_jsonLine rfl (run_shows parse_jsonLine plain).1
    have same := Except.ok.inj (loaded.symm.trans plain)
    rw [whole rfl (by rw [same]; rfl), same]
    rfl
  · obtain ⟨config, loaded, output, _⟩ := json_format_prints_document debuggingWorld
      parse_jsonLine rfl (run_shows parse_jsonLine debuggingWorld_loads).1
    have same := Except.ok.inj (loaded.symm.trans debuggingWorld_loads)
    rw [same] at output
    exact ⟨_, (remarks_present_iff ..).mpr rfl, output⟩

end HoconRender.CommandLine
