import HoconRender.Proofs.Options.LastWrite

/-
Options read from a mapping. The preset tells where to start, wherever it stands. Every other entry
has to name a field, under either of its names, with a value that the field takes; a flag stands
for itself as well. The last entry that names a field decides it, and the first one that is wrong
is reported, unless it is wrong by a key that cannot be quoted.
-/
namespace HoconRender

namespace Part

def all : List Part := Flag.all.map .flag ++ [.commentPrefix]

def displayName : Part → Text
  | .flag chosen => chosen.displayName
  | .commentPrefix => "commentPrefix"

def fieldName : Part → Text
  | .flag chosen => chosen.fieldName
  | .commentPrefix => "comment_prefix"

def itself? : Part → Option Key
  | .flag chosen => some (.flag chosen)
  | .commentPrefix => none

def takes : Part → Json → Bool
  | .flag _, .bool _ => true
  | .commentPrefix, .str _ => true
  | _, _ => false

theorem mem_all (part : Part) : part ∈ all := by
  cases part with
  | flag chosen => exact List.mem_append_left _ (List.mem_map_of_mem (Flag.mem_all chosen))
  | commentPrefix => exact List.mem_append_right _ List.mem_cons_self

end Part

namespace Key

theorem same_text_iff (key : Key) (name : Text) :
    key.same (.text name) = true ↔ key = .text name := by
  cases key <;> simp [same, number?, bare]

theorem same_flag_iff (key : Key) (flag : Flag) :
    key.same (.flag flag) = true ↔ key = .flag flag := by
  cases key <;> simp [same, number?, bare]

/-- A key names a field under its display name or its field name, or is the field. -/
def Names (key : Key) (part : Part) : Prop :=
  key = .text part.displayName ∨ key = .text part.fieldName ∨ part.itself? = some key

instance (key : Key) (part : Part) : Decidable (key.Names part) :=
  inferInstanceAs (Decidable (_ ∨ _ ∨ _))

theorem names_displayName (part : Part) : (Key.text part.displayName).Names part := Or.inl rfl

theorem names_fieldName (part : Part) : (Key.text part.fieldName).Names part :=
  Or.inr (Or.inl rfl)

def part? (key : Key) : Option Part := Part.all.find? fun part => key.Names part

theorem part?_eq_some_iff (key : Key) (part : Part) : key.part? = some part ↔ key.Names part := by
  constructor
  · intro found
    have named := List.find?_some found
    exact of_decide_eq_true named
  · rintro (rfl | rfl | itself)
    · cases part with
      | flag flag => cases flag <;> decide
      | commentPrefix => decide
    · cases part with
      | flag flag => cases flag <;> decide
      | commentPrefix => decide
    · cases part with
      | flag flag => cases itself; cases flag <;> decide
      | commentPrefix => cases itself

theorem Names.unique {key : Key} {part other : Part} (named : key.Names part)
    (also : key.Names other) : part = other := by
  rw [← part?_eq_some_iff] at named also
  exact Option.some.inj (named.symm.trans also)

end Key

namespace Mapping

def Proper (mapping : Mapping) : Prop := mapping.keys.Pairwise fun a b => (a == b) = false

section Proper

variable {mapping : Mapping}

theorem mem_keys_put {key other : MappingKey} {value : Json}
    (member : other ∈ (mapping.put key value).keys) : other ∈ mapping.keys ∨ other = key := by
  induction mapping with
  | nil => exact Or.inr (List.mem_singleton.mp member)
  | cons entry rest ih =>
    obtain ⟨first, old⟩ := entry
    by_cases same : (first == key) = true
    · rw [Entries.put, if_pos same] at member
      exact Or.inl member
    · rw [Entries.put, if_neg same] at member
      rcases List.mem_cons.mp member with rfl | later
      · exact Or.inl List.mem_cons_self
      · exact (ih later).imp_left (List.mem_cons_of_mem first)

theorem proper_put (proper : mapping.Proper) (key : MappingKey) (value : Json) :
    Proper (mapping.put key value) := by
  induction mapping with
  | nil => exact List.pairwise_singleton ..
  | cons entry rest ih =>
    obtain ⟨first, old⟩ := entry
    obtain ⟨apart, later⟩ := List.pairwise_cons.mp proper
    by_cases same : (first == key) = true
    · rw [Entries.put, if_pos same]
      exact proper
    · rw [Entries.put, if_neg same]
      refine List.pairwise_cons.mpr ⟨fun other member => ?_, ih later⟩
      rcases mem_keys_put member with old | rfl
      · exact apart other old
      · exact Bool.eq_false_iff.mpr same

theorem proper_putAll (proper : mapping.Proper) (assignments : List (MappingKey × Json)) :
    Proper (assignments.foldl (fun all entry => Entries.put all entry.1 entry.2) mapping) := by
  induction assignments generalizing mapping with
  | nil => exact proper
  | cons first rest ih => exact ih (proper_put proper first.1 first.2)

theorem proper_ofEntries (entries : List (Key × Json)) : (ofEntries entries).Proper := by
  have empty : Proper [] := List.Pairwise.nil
  exact proper_putAll empty _

end Proper

def presetKey : MappingKey := "preset"

theorem presetKey_names_nothing (part : Part) : ¬ presetKey.key.Names part := by
  rw [← Key.part?_eq_some_iff]
  intro named
  have unnamed : presetKey.key.part? = none := by decide
  cases unnamed.symm.trans named

variable {mapping : Mapping}

theorem beq_preset_iff (key : MappingKey) : (key == presetKey) = true ↔ key.key = presetKey.key :=
  Key.same_text_iff key.key _

theorem mem_of_get?_preset {value : Json} (found : mapping.get? presetKey = some value) :
    ∃ entry ∈ mapping, entry.1.key = presetKey.key ∧ entry.2 = value := by
  induction mapping with
  | nil => cases found
  | cons entry rest ih =>
    obtain ⟨key, first⟩ := entry
    by_cases same : (key == presetKey) = true
    · refine ⟨(key, first), List.mem_cons_self, (beq_preset_iff key).mp same, ?_⟩
      simpa [Entries.get?, same] using found
    · obtain ⟨other, member, facts⟩ := ih (by simpa [Entries.get?, same] using found)
      exact ⟨other, List.mem_cons_of_mem _ member, facts⟩

def fieldEntries (mapping : Mapping) : Mapping :=
  mapping.filter fun entry => entry.1.key ≠ presetKey.key

theorem mem_fieldEntries_iff (entry : MappingKey × Json) :
    entry ∈ mapping.fieldEntries ↔ entry ∈ mapping ∧ entry.1.key ≠ presetKey.key := by
  unfold fieldEntries
  rw [List.mem_filter, decide_eq_true_eq]

theorem erase_preset (proper : mapping.Proper) :
    mapping.erase presetKey = mapping.fieldEntries := by
  unfold fieldEntries
  induction mapping with
  | nil => rfl
  | cons entry rest ih =>
    obtain ⟨key, value⟩ := entry
    obtain ⟨apart, later⟩ := List.pairwise_cons.mp proper
    by_cases same : (key == presetKey) = true
    · have own := (beq_preset_iff key).mp same
      have kept : rest.filter (fun entry => entry.1.key ≠ presetKey.key) = rest := by
        apply List.filter_eq_self.mpr
        intro other member
        have differs := apart other.1 (List.mem_map_of_mem member)
        rw [decide_eq_true_eq]
        intro again
        have alike : (key == other.1) = true := by
          change key.key.same other.1.key = true
          rw [own, again]
          decide
        cases differs.symm.trans alike
      rw [Entries.erase, if_pos same, List.filter_cons_of_neg (by simp [own]), kept]
    · have other : key.key ≠ presetKey.key := mt (beq_preset_iff key).mpr same
      rw [Entries.erase, if_neg same, List.filter_cons_of_pos (by simp [other]), ih later]

end Mapping

namespace RenderOptions

def SetsField (entry : MappingKey × Json) : Prop :=
  ∃ part : Part, entry.1.key.Names part ∧ part.takes entry.2 = true

theorem takes_part (options : RenderOptions) (part : Part) :
    part.takes (options.part part) = true := by cases part <;> rfl

instance (entry : MappingKey × Json) : Decidable (SetsField entry) :=
  decidable_of_iff (∃ part ∈ Part.all, entry.1.key.Names part ∧ part.takes entry.2 = true)
    ⟨fun ⟨part, _, sets⟩ => ⟨part, sets⟩, fun ⟨part, sets⟩ => ⟨part, part.mem_all, sets⟩⟩

def Admissible (entry : MappingKey × Json) : Prop :=
  entry.1.key ≠ Mapping.presetKey.key → SetsField entry

instance (entry : MappingKey × Json) : Decidable (Admissible entry) :=
  inferInstanceAs (Decidable (_ → _))

/-- What is wrong with an entry that sets no field. A key that names none is quoted, and where that
fails this failure is what is wrong. -/
inductive Offends : MappingKey × Json → ReadingFault → Prop where
  | unknown {key : MappingKey} {value : Json} (nameless : ∀ part, ¬ key.key.Names part)
      (quotable : key.key.fault? = none) :
      Offends (key, value) (.rejected (.unknownFlag key.key.shown))
  | unspoken {key : MappingKey} {value : Json} {message : Text}
      (nameless : ∀ part, ¬ key.key.Names part) (fault : key.key.fault? = some message) :
      Offends (key, value) (.unspoken message)
  | notBool {key : MappingKey} {value : Json} {flag : Flag} (named : key.key.Names (.flag flag))
      (other : ∀ b, value ≠ .bool b) : Offends (key, value) (.rejected (.notBool flag value))
  | noPrefix {key : MappingKey} (named : key.key.Names .commentPrefix) :
      Offends (key, .null) (.rejected .noCommentPrefix)
  | notText {key : MappingKey} {value : Json} (named : key.key.Names .commentPrefix)
      (other : ∀ t, value ≠ .str t) (present : value ≠ .null) :
      Offends (key, value) (.rejected (.commentPrefixNotText value))

/-- A wrong value is reported under its field, and a key that names none as a flag. -/
def reportedField (key : Key) : Text := (key.part?.map Part.fieldName).getD "flag"

theorem Offends.field {entry : MappingKey × Json} {rejection : Rejection}
    (offends : Offends entry (.rejected rejection)) :
    rejection.field = reportedField entry.1.key := by
  unfold reportedField
  cases offends with
  | @unknown key value nameless =>
    have none : key.key.part? = none := by
      cases found : key.key.part? with
      | none => rfl
      | some part => exact absurd ((key.key.part?_eq_some_iff part).mp found) (nameless part)
    rw [none]
    rfl
  | notBool named => rw [(Key.part?_eq_some_iff ..).mpr named]; rfl
  | noPrefix named => rw [(Key.part?_eq_some_iff ..).mpr named]; rfl
  | notText named => rw [(Key.part?_eq_some_iff ..).mpr named]; rfl

theorem setsField_or_offends (entry : MappingKey × Json) :
    SetsField entry ∨ ∃ fault, Offends entry fault := by
  obtain ⟨key, value⟩ := entry
  cases named : key.key.part? with
  | none =>
    have nameless (part : Part) : ¬ key.key.Names part := by
      intro names
      cases named.symm.trans ((key.key.part?_eq_some_iff part).mpr names)
    cases quoted : key.key.fault? with
    | none => exact Or.inr ⟨_, .unknown nameless quoted⟩
    | some message => exact Or.inr ⟨_, .unspoken nameless quoted⟩
  | some part =>
    have names := (key.key.part?_eq_some_iff part).mp named
    cases part with
    | flag flag =>
      cases value with
      | bool b => exact Or.inl ⟨.flag flag, names, rfl⟩
      | _ => exact Or.inr ⟨_, .notBool names (by simp)⟩
    | commentPrefix =>
      cases value with
      | str t => exact Or.inl ⟨.commentPrefix, names, rfl⟩
      | null => exact Or.inr ⟨_, .noPrefix names⟩
      | _ => exact Or.inr ⟨_, .notText names (by simp) (by simp)⟩

theorem admissible_or_offends (entry : MappingKey × Json) :
    Admissible entry ∨
      entry.1.key ≠ Mapping.presetKey.key ∧ ∃ fault, Offends entry fault := by
  by_cases preset : entry.1.key = Mapping.presetKey.key
  · exact Or.inl fun other => absurd preset other
  · rcases setsField_or_offends entry with sets | offends
    · exact Or.inl fun _ => sets
    · exact Or.inr ⟨preset, offends⟩

theorem first_offence (entries : Mapping) :
    (∀ entry ∈ entries, Admissible entry) ∨
    ∃ front entry behind fault, entries = front ++ entry :: behind ∧
      (∀ other ∈ front, Admissible other) ∧ entry.1.key ≠ Mapping.presetKey.key ∧
      Offends entry fault := by
  induction entries with
  | nil => exact Or.inl fun entry member => absurd member List.not_mem_nil
  | cons first rest ih =>
    rcases admissible_or_offends first with admissible | ⟨other, fault, offends⟩
    · rcases ih with all | ⟨front, entry, behind, fault, rfl, before, wrong⟩
      · exact Or.inl (List.forall_mem_cons.mpr ⟨admissible, all⟩)
      · exact Or.inr ⟨first :: front, entry, behind, fault, rfl,
          List.forall_mem_cons.mpr ⟨admissible, before⟩, wrong⟩
    · exact Or.inr ⟨[], first, rest, fault, rfl,
        fun entry member => absurd member List.not_mem_nil, other, offends⟩

theorem isCommentPrefixKey_iff (key : Key) :
    isCommentPrefixKey key = true ↔ key.Names .commentPrefix := by
  unfold isCommentPrefixKey Key.Names
  rw [Bool.or_eq_true, beq_iff_eq, beq_iff_eq, or_comm]
  simp [Part.itself?, Part.displayName, Part.fieldName]

theorem not_isCommentPrefixKey {key : Key} {flag : Flag} (named : key.Names (.flag flag)) :
    ¬ isCommentPrefixKey key = true := by
  rw [isCommentPrefixKey_iff]
  intro also
  cases named.unique also

theorem flagOf_ok_iff (key : Key) (flag : Flag) :
    flagOf key = .ok flag ↔ key.Names (.flag flag) := by
  cases key with
  | text name =>
    rw [flagOf_text_ok_iff]
    simp [Key.Names, Part.displayName, Part.fieldName, Part.itself?]
  | flag chosen => simp [flagOf, Key.Names, Part.itself?, eq_comm]
  | _ => simp [flagOf, Key.Names, Part.itself?, ReadingFault.unknownFlag]

theorem flagOf_unknown {key : Key} (unnamed : ∀ flag, flagOf key ≠ .ok flag) :
    flagOf key = .error (.unknownFlag key.shown key.fault?) := by
  cases key with
  | text name =>
    cases found : Flag.ofName? name with
    | none => simp [flagOf, found]
    | some flag => exact absurd (by simp [flagOf, found]) (unnamed flag)
  | flag chosen => exact absurd rfl (unnamed chosen)
  | _ => rfl

theorem applyEntry_setsField {key : MappingKey} {value : Json} {part : Part}
    (named : key.key.Names part) (takes : part.takes value = true) (options : RenderOptions) :
    ∃ next, applyEntry options (key, value) = .ok next ∧
      ∀ other, next.part other = if other = part then value else options.part other := by
  unfold applyEntry
  cases part with
  | flag flag =>
    cases value with
    | bool b =>
      refine ⟨options.set flag b, ?_, part_set options flag b⟩
      rw [if_neg (not_isCommentPrefixKey named), (flagOf_ok_iff key.key flag).mpr named]
      rfl
    | _ => cases takes
  | commentPrefix =>
    cases value with
    | str t =>
      refine ⟨{ options with commentPrefix := t }, ?_, fun other => ?_⟩
      · rw [if_pos ((isCommentPrefixKey_iff key.key).mpr named)]
        rfl
      · cases other <;> rfl
    | _ => cases takes

theorem applyEntry_nameless {key : MappingKey} (nameless : ∀ part, ¬ key.key.Names part)
    (value : Json) (options : RenderOptions) :
    applyEntry options (key, value) =
      .error (.unknownFlag key.key.shown key.key.fault?) := by
  have unnamed := flagOf_unknown fun flag named =>
    nameless (.flag flag) ((flagOf_ok_iff key.key flag).mp named)
  unfold applyEntry
  rw [if_neg (mt (isCommentPrefixKey_iff key.key).mp (nameless _)), unnamed]
  rfl

theorem applyEntry_offends {entry : MappingKey × Json} {fault : ReadingFault}
    (offends : Offends entry fault) (options : RenderOptions) :
    applyEntry options entry = .error fault := by
  cases offends with
  | unknown nameless quotable => rw [applyEntry_nameless nameless, quotable]; rfl
  | unspoken nameless unquotable => rw [applyEntry_nameless nameless, unquotable]; rfl
  | @notBool key value flag named other =>
    unfold applyEntry
    rw [if_neg (not_isCommentPrefixKey named), (flagOf_ok_iff key.key flag).mpr named]
    cases value with
    | bool b => exact absurd rfl (other b)
    | _ => rfl
  | @noPrefix key named =>
    unfold applyEntry
    rw [if_pos ((isCommentPrefixKey_iff key.key).mpr named)]
    rfl
  | @notText key value named other present =>
    unfold applyEntry
    rw [if_pos ((isCommentPrefixKey_iff key.key).mpr named)]
    cases value with
    | str t => exact absurd rfl (other t)
    | null => exact absurd rfl present
    | _ => rfl

/-- The value of the last entry that names a field. -/
def lastNamed? (mapping : Mapping) (part : Part) : Option Json :=
  (mapping.reverse.find? fun entry => entry.1.key.Names part).map (·.2)

theorem lastNamed?_cons (entry : MappingKey × Json) (rest : Mapping) (part : Part) :
    lastNamed? (entry :: rest) part =
      (lastNamed? rest part).or (if entry.1.key.Names part then some entry.2 else none) := by
  unfold lastNamed?
  rw [List.reverse_cons, List.find?_append, Option.map_or, List.find?_singleton]
  by_cases named : entry.1.key.Names part <;> simp [named]

/-- Entries that all set a field leave in each field what the last one wrote, or what was there. -/
theorem foldlM_setsField {entries : Mapping} (all : ∀ entry ∈ entries, SetsField entry)
    (start : RenderOptions) :
    ∃ options, entries.foldlM applyEntry start = .ok options ∧
      ∀ part, options.part part = (lastNamed? entries part).getD (start.part part) := by
  induction entries generalizing start with
  | nil => exact ⟨start, rfl, fun part => rfl⟩
  | cons entry rest ih =>
    obtain ⟨part, named, takes⟩ := all entry List.mem_cons_self
    obtain ⟨next, applied, fields⟩ := applyEntry_setsField named takes start
    obtain ⟨options, folded, values⟩ :=
      ih (fun other member => all other (List.mem_cons_of_mem entry member)) next
    refine ⟨options, ?_, fun other => ?_⟩
    · rw [List.foldlM_cons, applied]
      exact folded
    · have same : entry.1.key.Names other ↔ other = part :=
        ⟨fun also => also.unique named, fun equal => equal ▸ named⟩
      rw [values, fields, lastNamed?_cons]
      cases lastNamed? rest other with
      | some value => rfl
      | none =>
        by_cases equal : other = part
        · subst other
          simp [named]
        · simp [equal, mt same.mp equal]

theorem foldlM_offends {front behind : Mapping} {entry : MappingKey × Json}
    {fault : ReadingFault} (before : ∀ other ∈ front, SetsField other)
    (offends : Offends entry fault) (start : RenderOptions) :
    (front ++ entry :: behind).foldlM applyEntry start = .error fault := by
  obtain ⟨options, folded, _⟩ := foldlM_setsField before start
  rw [List.foldlM_append, folded]
  change (entry :: behind).foldlM applyEntry options = _
  rw [List.foldlM_cons, applyEntry_offends offends]
  rfl

inductive Starts (mapping : Mapping) : Preset → Prop where
  | unnamed (absent : mapping.get? Mapping.presetKey = none) : Starts mapping .defaults
  | named {preset : Preset} (found : mapping.get? Mapping.presetKey = some (.str preset.name)) :
      Starts mapping preset

variable {mapping : Mapping} {preset : Preset}

theorem Starts.unique {other : Preset} (starts : Starts mapping preset)
    (also : Starts mapping other) : preset = other := by
  cases starts with
  | unnamed absent =>
    cases also with
    | unnamed => rfl
    | named found => cases absent.symm.trans found
  | named found =>
    cases also with
    | unnamed absent => cases absent.symm.trans found
    | named also =>
      have same := found.symm.trans also
      revert same
      cases preset <;> cases other <;> decide

theorem presetOf_name (preset : Preset) : Preset.ofJson (.str preset.name) = .ok preset := by
  cases preset <;> decide

theorem presetOf_unknown {value : Json} (unknown : ∀ preset : Preset, value ≠ .str preset.name) :
    Preset.ofJson value = .error (.unknownPreset value) := by
  cases value with
  | str name =>
    cases found : Preset.ofName? name with
    | none => simp [Preset.ofJson, found]
    | some preset =>
      have same := List.find?_some found
      exact absurd (congrArg Json.str (eq_of_beq same).symm) (unknown preset)
  | _ => rfl

theorem ofMapping_starts (starts : Starts mapping preset) :
    ofMapping mapping = (mapping.erase Mapping.presetKey).foldlM applyEntry preset.options := by
  have begun : Preset.ofJson ((mapping.get? Mapping.presetKey).getD "defaults") = .ok preset := by
    cases starts with
    | unnamed absent =>
      rw [absent]
      exact presetOf_name .defaults
    | named found =>
      rw [found]
      exact presetOf_name preset
  change ((Preset.ofJson ((mapping.get? Mapping.presetKey).getD "defaults")).mapError
    ReadingFault.rejected >>= _) = _
  rw [begun]
  rfl

theorem ofMapping_unknown {value : Json} (found : mapping.get? Mapping.presetKey = some value)
    (unknown : ∀ preset : Preset, value ≠ .str preset.name) :
    ofMapping mapping = .error (.rejected (.unknownPreset value)) := by
  change ((Preset.ofJson ((mapping.get? Mapping.presetKey).getD "defaults")).mapError
    ReadingFault.rejected >>= _) = _
  rw [found]
  change ((Preset.ofJson value).mapError ReadingFault.rejected >>= _) = _
  rw [presetOf_unknown unknown]
  rfl

theorem lastNamed?_without_preset (mapping : Mapping) (part : Part) :
    lastNamed? mapping.fieldEntries part = lastNamed? mapping part := by
  unfold lastNamed? Mapping.fieldEntries
  rw [← List.filter_reverse, List.find?_filter]
  congr 2
  funext entry
  by_cases named : entry.1.key.Names part
  · have other : entry.1.key ≠ Mapping.presetKey.key :=
      fun same => Mapping.presetKey_names_nothing part (same ▸ named)
    simp [named, other]
  · simp [named]

theorem fieldEntries_setField (all : ∀ entry ∈ mapping, Admissible entry) :
    ∀ entry ∈ mapping.fieldEntries, SetsField entry := by
  intro entry member
  obtain ⟨inside, other⟩ := (Mapping.mem_fieldEntries_iff entry).mp member
  exact all entry inside other

theorem ofMapping_admissible (proper : mapping.Proper) (starts : Starts mapping preset)
    (all : ∀ entry ∈ mapping, Admissible entry) :
    ∃ options, ofMapping mapping = .ok options ∧
      ∀ part, options.part part = (lastNamed? mapping part).getD (preset.options.part part) := by
  rw [ofMapping_starts starts, Mapping.erase_preset proper]
  obtain ⟨options, read, values⟩ := foldlM_setsField (fieldEntries_setField all) preset.options
  refine ⟨options, read, fun part => ?_⟩
  rw [values, lastNamed?_without_preset]

/-- What is reported of a mapping: a preset that is none before anything else, and then the first
entry that sets no field. -/
inductive Reports (mapping : Mapping) : ReadingFault → Prop where
  | preset {value : Json} (found : mapping.get? Mapping.presetKey = some value)
      (unknown : ∀ preset : Preset, value ≠ .str preset.name) :
      Reports mapping (.rejected (.unknownPreset value))
  | entry {preset : Preset} {front behind : Mapping} {entry : MappingKey × Json}
      {fault : ReadingFault} (starts : Starts mapping preset)
      (parts : mapping = front ++ entry :: behind) (before : ∀ other ∈ front, Admissible other)
      (other : entry.1.key ≠ Mapping.presetKey.key) (offends : Offends entry fault) :
      Reports mapping fault

theorem ofMapping_reports (proper : mapping.Proper) {fault : ReadingFault}
    (reports : Reports mapping fault) : ofMapping mapping = .error fault := by
  cases reports with
  | preset found unknown => exact ofMapping_unknown found unknown
  | @entry preset front behind entry _ starts parts before other offends =>
    have fields : mapping.fieldEntries = front.fieldEntries ++ entry :: behind.fieldEntries := by
      rw [parts]
      simp [Mapping.fieldEntries, other]
    rw [ofMapping_starts starts, Mapping.erase_preset proper, fields]
    exact foldlM_offends (fieldEntries_setField before) offends preset.options

theorem admissible_or_reports (mapping : Mapping) :
    ((∃ preset, Starts mapping preset) ∧ ∀ entry ∈ mapping, Admissible entry) ∨
      ∃ fault, Reports mapping fault := by
  cases found : mapping.get? Mapping.presetKey with
  | none =>
    rcases first_offence mapping with all | ⟨_, _, _, fault, parts, before, other, offends⟩
    · exact Or.inl ⟨⟨_, .unnamed found⟩, all⟩
    · exact Or.inr ⟨fault, .entry (.unnamed found) parts before other offends⟩
  | some value =>
    by_cases known : ∃ preset : Preset, value = .str preset.name
    · obtain ⟨preset, rfl⟩ := known
      rcases first_offence mapping with all | ⟨_, _, _, fault, parts, before, other, offends⟩
      · exact Or.inl ⟨⟨preset, .named found⟩, all⟩
      · exact Or.inr ⟨fault, .entry (.named found) parts before other offends⟩
    · exact Or.inr ⟨_, .preset found fun preset same => known ⟨preset, same⟩⟩

theorem admissible_of_read (proper : mapping.Proper) {options : RenderOptions}
    (read : ofMapping mapping = .ok options) :
    (∃ preset, Starts mapping preset) ∧ ∀ entry ∈ mapping, Admissible entry := by
  rcases admissible_or_reports mapping with admissible | ⟨fault, reports⟩
  · exact admissible
  · cases (ofMapping_reports proper reports).symm.trans read

theorem ofMapping_ok_iff (proper : mapping.Proper) (options : RenderOptions) :
    ofMapping mapping = .ok options ↔ ∃ preset, Starts mapping preset ∧
      (∀ entry ∈ mapping, Admissible entry) ∧
      ∀ part, options.part part = (lastNamed? mapping part).getD (preset.options.part part) := by
  constructor
  · intro read
    obtain ⟨⟨preset, starts⟩, all⟩ := admissible_of_read proper read
    obtain ⟨found, again, fields⟩ := ofMapping_admissible proper starts all
    cases again.symm.trans read
    exact ⟨preset, starts, all, fields⟩
  · rintro ⟨preset, starts, all, fields⟩
    obtain ⟨found, read, values⟩ := ofMapping_admissible proper starts all
    rw [read, ext_parts fun part => (values part).trans (fields part).symm]

theorem ofMapping_error_iff (proper : mapping.Proper) (fault : ReadingFault) :
    ofMapping mapping = .error fault ↔ Reports mapping fault := by
  constructor
  · intro failed
    rcases admissible_or_reports mapping with ⟨⟨preset, starts⟩, all⟩ | ⟨other, reports⟩
    · obtain ⟨options, read, _⟩ := ofMapping_admissible proper starts all
      cases failed.symm.trans read
    · cases failed.symm.trans (ofMapping_reports proper reports)
      exact reports
  · exact ofMapping_reports proper

structure ReadsExactly (mapping : Mapping) : Prop where
  accepted : (∃ options, ofMapping mapping = .ok options) ↔
    (∃ preset, Starts mapping preset) ∧ ∀ entry ∈ mapping, Admissible entry
  values : ∀ options, ofMapping mapping = .ok options → ∃ preset, Starts mapping preset ∧
    ∀ part, options.part part = (lastNamed? mapping part).getD (preset.options.part part)
  refused : ∀ fault, ofMapping mapping = .error fault ↔ Reports mapping fault
  field : ∀ entry rejection, Offends entry (.rejected rejection) →
    rejection.field = reportedField entry.1.key

/-- A mapping is read if its preset is one and every other entry sets a field, and only then. -/
theorem mapping_read_exactly (mapping : Mapping) (proper : mapping.Proper) :
    ReadsExactly mapping := by
  refine ⟨⟨?_, ?_⟩, ?_, ofMapping_error_iff proper, fun _ _ => Offends.field⟩
  · rintro ⟨options, read⟩
    exact admissible_of_read proper read
  · rintro ⟨⟨preset, starts⟩, all⟩
    obtain ⟨options, read, _⟩ := ofMapping_admissible proper starts all
    exact ⟨options, read⟩
  · intro options read
    obtain ⟨⟨preset, starts⟩, all⟩ := admissible_of_read proper read
    obtain ⟨found, again, fields⟩ := ofMapping_admissible proper starts all
    cases again.symm.trans read
    exact ⟨preset, starts, fields⟩

section Sample

def aliasedMapping : Mapping := .ofEntries [
  (.text "comments", .null), (.text "originComments", .bool true), (.text "preset", "concise"),
  (.text "json", .bool true), (.text "comment_prefix", "//"), (.text "comments", .bool true),
  (.text "origin_comments", .bool false), (.flag .json, .bool false), (.text "commentPrefix", ";")]

def faultyMapping : Mapping := .ofEntries [
  (.text "preset", "concise"), (.text "json", .int 1), (.int 1, .bool true),
  (.text "commentPrefix", .null)]

theorem aliased_mapping_read :
    (∃ options, ofMapping aliasedMapping = .ok options ∧
      options.part (.flag .comments) = .bool true ∧
      options.part (.flag .originComments) = .bool false ∧
      options.part (.flag .json) = .bool false ∧ options.part .commentPrefix = .str ";" ∧
      options.part (.flag .formatted) = .bool false) ∧
    ofMapping faultyMapping = .error (.rejected (.notBool .json (.int 1))) := by
  have aliased := mapping_read_exactly aliasedMapping (Mapping.proper_ofEntries _)
  have faulty := mapping_read_exactly faultyMapping (Mapping.proper_ofEntries _)
  have concise : Starts aliasedMapping .concise := .named (by decide)
  constructor
  · obtain ⟨options, read⟩ := aliased.accepted.mpr ⟨⟨_, concise⟩, by decide⟩
    obtain ⟨preset, starts, fields⟩ := aliased.values options read
    rw [starts.unique concise] at fields
    refine ⟨options, read, ?_, ?_, ?_, ?_, ?_⟩ <;> (rw [fields]; decide)
  · have wrong : Offends (⟨.text "json"⟩, .int 1) (.rejected (.notBool .json (.int 1))) :=
      .notBool (Or.inl rfl) (by simp)
    have concise : Starts faultyMapping .concise := .named (by decide)
    have parts : faultyMapping = faultyMapping.take 1
        ++ ((⟨.text "json"⟩, .int 1) : MappingKey × Json) :: faultyMapping.drop 2 := rfl
    have before : ∀ entry ∈ faultyMapping.take 1, Admissible entry := by decide
    exact (faulty.refused _).mpr (.entry concise parts before (by decide) wrong)

def unquotableKey : Key := .int (.ofNat (Nat.pow 10 Json.digitLimit))

/-- A flag is a key that is none of the names. A key that is too long to be quoted is not rejected,
and its own failure comes out. -/
theorem flag_key_read :
    (∃ options, ofMapping (.ofEntries [(.flag .json, .bool false)]) = .ok options ∧
      options.part (.flag .json) = .bool false) ∧
    (∀ name, Key.flag .json ≠ .text name) ∧
    ofMapping (.ofEntries [(unquotableKey, .bool true)]) =
      .error (.unspoken (Json.digitsMessage [])) := by
  refine ⟨⟨Preset.defaults.options.set .json false, rfl, rfl⟩, by simp, ?_⟩
  decide +kernel

end Sample

end RenderOptions
end HoconRender
