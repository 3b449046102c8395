import HoconRender.Proofs.CommandLine.Occurrences
import HoconRender.Proofs.CommandLine.Overrides

/-
Lines in which every option has its full name and every value is in sight: behind an equals sign,
or a word that does not look like an option. The command that shows options accepts all of them,
and each setting comes from the last option that is about it.
-/
namespace HoconRender.CommandLine

inductive Slot where
  | format | config | preset | commentPrefix
deriving DecidableEq, Repr

namespace Slot

def effect : Slot → Effect
  | .format => .format
  | .config => .config
  | .preset => .preset
  | .commentPrefix => .commentPrefix

def name : Slot → Text
  | .format => "--format"
  | .config => "--config"
  | .preset => "--preset"
  | .commentPrefix => "--comment-prefix"

def Admits (value : Text) : Slot → Prop
  | .format => value = Text.ofString "summary" ∨ value = Text.ofString "json"
  | .preset => ∃ preset : Preset, value = preset.name
  | _ => True

def spelling (slot : Slot) : Spelling := ⟨slot.name, slot.effect, slot.name⟩

end Slot

/-- A value stands behind an equals sign or in a word of its own. -/
inductive Placement where
  | assigned | apart
deriving DecidableEq, Repr

inductive Item where
  | verbose (short : Bool)
  | toggle (flag : Flag) (value : Bool)
  | valued (slot : Slot) (value : Text) (placement : Placement)
deriving DecidableEq, Repr

namespace Item

def verboseName (short : Bool) : Text := if short then "-v" else "--verbose"

def toggleName (flag : Flag) (value : Bool) : Text :=
  if value then flag.option else Text.ofString "--no-" ++ flag.hyphenated

def texts : Item → List Text
  | .verbose short => [verboseName short]
  | .toggle flag value => [toggleName flag value]
  | .valued slot value .assigned => [slot.name ++ equalsSign :: value]
  | .valued slot value .apart => [slot.name, value]

/-- Two hyphens behind an equals sign are not taken for a value, and a word of its own must not
start with a hyphen. -/
def Canonical : Item → Prop
  | .valued slot value .assigned => slot.Admits value ∧ value ≠ separatorText
  | .valued slot value .apart => slot.Admits value ∧ value.head? ≠ some hyphen
  | _ => True

def supplied? (slot : Slot) : Item → Option Text
  | .valued other value _ => if other = slot then some value else none
  | _ => none

def toggle? (flag : Flag) : Item → Option Bool
  | .toggle other value => if other = flag then some value else none
  | _ => none

def verbose? : Item → Option Bool
  | .verbose _ => some true
  | _ => none

def sets? (field : Field) (item : Item) : Option Json :=
  match field with
  | .preset => (item.supplied? .preset).map .str
  | .switch flag => (item.toggle? flag).map .bool
  | .commentPrefix => (item.supplied? .commentPrefix).map .str

def verboseSpelling (short : Bool) : Spelling :=
  ⟨verboseName short, .verbose, verboseOption.title⟩

def toggleSpelling (flag : Flag) (value : Bool) : Spelling :=
  ⟨toggleName flag value, .flag flag value, (flagOption flag).title⟩

def told : Item → List Word
  | .verbose short => [⟨verboseName short, .known (verboseSpelling short) none⟩]
  | .toggle flag value => [⟨toggleName flag value, .known (toggleSpelling flag value) none⟩]
  | .valued slot value .assigned =>
    [⟨slot.name ++ equalsSign :: value, .known slot.spelling (some value)⟩]
  | .valued slot value .apart => [⟨slot.name, .known slot.spelling none⟩, ⟨value, .value⟩]

def record (arguments : Arguments) : Item → Arguments
  | .verbose _ => { arguments with verbose := true }
  | .toggle flag value => { arguments with flags := arguments.flags.set flag (some value) }
  | .valued slot value _ => arguments.supply (.text value) slot.effect

end Item

section Told

theorem inspect_clean : ∀ spelling ∈ Command.inspect.spellings, equalsSign ∉ spelling.name := by
  decide

theorem slot_found (slot : Slot) :
    findSpelling Command.inspect.spellings slot.name = some slot.spelling := by
  cases slot <;> decide

theorem toggle_found (flag : Flag) (value : Bool) :
    findSpelling Command.inspect.spellings (Item.toggleName flag value) =
      some (Item.toggleSpelling flag value) := by
  cases flag <;> cases value <;> decide

theorem verbose_found (short : Bool) :
    findSpelling Command.inspect.spellings (Item.verboseName short) =
      some (Item.verboseSpelling short) := by
  cases short <;> decide

theorem slot_start (slot : Slot) : slot.name.take 2 = separatorText := by cases slot <;> rfl

theorem slot_clean (slot : Slot) : equalsSign ∉ slot.name := by cases slot <;> decide

variable {item : Item} {items : List Item}

theorem words_item (canonical : item.Canonical) (rest : List Text) :
    words Command.inspect.spellings (item.texts ++ rest) =
      (words Command.inspect.spellings rest).map (item.told ++ ·) := by
  cases item with
  | verbose short =>
    exact words_cons (by cases short <;> decide)
      (wordKind_spelled (by cases short <;> rfl) (verbose_found short)) rest
  | toggle flag value =>
    exact words_cons (by cases flag <;> cases value <;> decide)
      (wordKind_spelled (by cases flag <;> cases value <;> rfl) (toggle_found flag value)) rest
  | valued slot value placement =>
    have starts : slot.name.head? = some hyphen := by cases slot <;> rfl
    cases placement with
    | assigned =>
      have apart : slot.name ++ equalsSign :: value ≠ separatorText := by
        cases slot <;> simp [Slot.name, Text.ofString, separatorText]
      exact words_cons apart (wordKind_assigned inspect_clean starts (slot_found slot) value) rest
    | apart =>
      have apart : value ≠ separatorText := by
        rintro rfl
        exact canonical.2 rfl
      change words _ (slot.name :: value :: rest) = _
      rw [words_cons (by cases slot <;> decide) (wordKind_spelled starts (slot_found slot)),
        words_cons apart (wordKind_value _ canonical.2)]
      cases words Command.inspect.spellings rest <;> rfl

theorem accept_admitted {slot : Slot} {value : Text} (admits : slot.Admits value)
    (start : Arguments) :
    Arguments.accept .inspect slot.spelling value start =
      .ok (start.supply (.text value) slot.effect) := by
  cases slot with
  | format => rcases admits with rfl | rfl <;> rfl
  | config => rfl
  | preset =>
    obtain ⟨preset, rfl⟩ := admits
    cases preset <;> rfl
  | commentPrefix => rfl

theorem ofWords_bare (spelling : Spelling) (bare : spelling.effect.takesValue = false)
    (name : Text) (rest : List Word) (start : Arguments) :
    Arguments.ofWords .inspect (⟨name, .known spelling none⟩ :: rest) start =
      (Arguments.perform .inspect [spelling.effect] start >>= Arguments.ofWords .inspect rest) := by
  conv => lhs; unfold Arguments.ofWords
  rw [if_neg (by simp [bare])]
  rfl

theorem ofWords_item (canonical : item.Canonical) (rest : List Word) (start : Arguments) :
    Arguments.ofWords .inspect (item.told ++ rest) start =
      Arguments.ofWords .inspect rest (item.record start) := by
  cases item with
  | verbose short =>
    exact ofWords_bare (Item.verboseSpelling short) rfl (Item.verboseName short) rest start
  | toggle flag value =>
    exact ofWords_bare (Item.toggleSpelling flag value) rfl (Item.toggleName flag value) rest start
  | valued slot value placement =>
    have takes : slot.spelling.effect.takesValue = true := by cases slot <;> rfl
    cases placement with
    | assigned =>
      change Arguments.ofWords _ (⟨_, .known slot.spelling (some value)⟩ :: rest) start = _
      rw [Arguments.ofWords, if_pos takes]
      unfold Arguments.acceptAssigned
      rw [if_neg canonical.2, accept_admitted canonical.1]
      rfl
    | apart =>
      change Arguments.ofWords _ (⟨_, .known slot.spelling none⟩ :: ⟨value, .value⟩ :: rest) start = _
      rw [Arguments.ofWords, if_pos takes, accept_admitted canonical.1]
      rfl

theorem words_items (canonical : ∀ item ∈ items, item.Canonical) :
    words Command.inspect.spellings (items.flatMap Item.texts) = .ok (items.flatMap Item.told) := by
  induction items with
  | nil => rfl
  | cons item rest ih =>
    obtain ⟨first, others⟩ := List.forall_mem_cons.mp canonical
    rw [List.flatMap_cons, words_item first, ih others]
    rfl

theorem ofWords_items (canonical : ∀ item ∈ items, item.Canonical) (start : Arguments) :
    Arguments.ofWords .inspect (items.flatMap Item.told) start =
      .ok (items.foldl Item.record start, []) := by
  induction items generalizing start with
  | nil => rfl
  | cons item rest ih =>
    obtain ⟨first, others⟩ := List.forall_mem_cons.mp canonical
    rw [List.flatMap_cons, ofWords_item first, ih others]
    rfl

theorem few_above {command : Command} (above : command = .root ∨ command = .group) (slot : Slot) :
    (command.spellings.filter fun spelling => spelling.name.startsWith slot.name).length ≤ 1 := by
  rcases above with rfl | rfl <;> cases slot <;> decide

/-- The commands above can tell each of its words, though they know none of them. -/
theorem wordKind_above {command : Command} (above : command = .root ∨ command = .group)
    (canonical : item.Canonical) :
    ∀ text ∈ item.texts, ∃ kind, wordKind command.spellings text = .ok kind := by
  have named (slot : Slot) : ∃ kind, wordKind command.spellings slot.name = .ok kind := by
    apply wordKind_ok_of_few
    rcases above with rfl | rfl <;> cases slot <;> decide
  have single {text : Text} (told : ∃ kind, wordKind command.spellings text = .ok kind) :
      ∀ other ∈ [text], ∃ kind, wordKind command.spellings other = .ok kind :=
    fun other member => List.mem_singleton.mp member ▸ told
  cases item with
  | verbose short =>
    refine single (wordKind_ok_of_few ?_)
    rcases above with rfl | rfl <;> cases short <;> decide
  | toggle flag value =>
    refine single (wordKind_ok_of_few ?_)
    rcases above with rfl | rfl <;> cases flag <;> cases value <;> decide
  | valued slot value placement =>
    cases placement with
    | assigned =>
      refine single (wordKind_ok_of_few ?_)
      rw [candidates_assigned (slot_clean slot) (slot_start slot)]
      exact few_above above slot
    | apart =>
      refine List.forall_mem_cons.mpr ⟨named slot, single ⟨.value, ?_⟩⟩
      exact wordKind_value _ canonical.2

theorem parse_items (canonical : ∀ item ∈ items, item.Canonical) :
    parse (inspectLine (items.flatMap Item.texts)) =
      .ok (.inspect (items.foldl Item.record .unset)) := by
  have told {command : Command} (above : command = .root ∨ command = .group) :
      ∀ text ∈ items.flatMap Item.texts, ∃ kind, wordKind command.spellings text = .ok kind := by
    intro text member
    obtain ⟨item, inside, own⟩ := List.mem_flatMap.mp member
    exact wordKind_above above (canonical item inside) text own
  refine parse_inspectLine_iff.mpr ⟨words_ok_of_kinds (told (Or.inl rfl)),
    words_ok_of_kinds (told (Or.inr rfl)), ?_⟩
  unfold Arguments.read
  rw [words_items canonical]
  exact ofWords_items canonical .unset

end Told

section Settled

def Arguments.at? (arguments : Arguments) : Slot → Option Supplied
  | .format => some arguments.format
  | .config => arguments.config
  | .preset => arguments.preset
  | .commentPrefix => arguments.commentPrefix

variable {items : List Item}

theorem record_at? (slot : Slot) (arguments : Arguments) (item : Item) :
    (item.record arguments).at? slot =
      ((item.supplied? slot).map .text).or (arguments.at? slot) := by
  cases item with
  | verbose short => cases slot <;> rfl
  | toggle flag value => cases slot <;> rfl
  | valued other value placement => cases other <;> cases slot <;> rfl

theorem record_flags (flag : Flag) (arguments : Arguments) (item : Item) :
    (item.record arguments).flags.get flag =
      (item.toggle? flag).or (arguments.flags.get flag) := by
  cases item with
  | verbose short => rfl
  | toggle other value =>
    by_cases same : other = flag
    · simp [Item.record, Item.toggle?, Flags.get_set, same]
    · simp [Item.record, Item.toggle?, Flags.get_set, same, Ne.symm same]
  | valued slot value placement => cases slot <;> rfl

theorem record_verbose (arguments : Arguments) (item : Item) :
    some (item.record arguments).verbose = item.verbose?.or (some arguments.verbose) := by
  cases item with
  | verbose short => rfl
  | toggle flag value => rfl
  | valued slot value placement => cases slot <;> rfl

theorem settled_at? (slot : Slot) (items : List Item) :
    (items.foldl Item.record .unset).at? slot =
      ((lastGiven? (Item.supplied? slot) items).map .text).or (Arguments.unset.at? slot) := by
  rw [← lastGiven?_map]
  exact read_foldl (Arguments.at? · slot) (record_at? slot) items .unset

theorem settled_format (items : List Item) :
    (items.foldl Item.record .unset).format =
      .text ((lastGiven? (Item.supplied? .format) items).getD (Text.ofString "summary")) := by
  have settled : some (items.foldl Item.record .unset).format = _ := settled_at? .format items
  cases last : lastGiven? (Item.supplied? .format) items with
  | none =>
    rw [last] at settled
    exact Option.some.inj settled
  | some text =>
    rw [last] at settled
    exact Option.some.inj settled

theorem settled_given (slot : Slot) (optional : slot ≠ .format) (items : List Item) :
    (items.foldl Item.record .unset).at? slot =
      (lastGiven? (Item.supplied? slot) items).map .text := by
  have unset : Arguments.unset.at? slot = none := by
    cases slot with
    | format => exact absurd rfl optional
    | _ => rfl
  rw [settled_at?, unset, Option.or_none]

theorem settled_flags (flag : Flag) (items : List Item) :
    (items.foldl Item.record .unset).flags.get flag = lastGiven? (Item.toggle? flag) items := by
  have unset : Arguments.unset.flags.get flag = none := by cases flag <;> rfl
  rw [read_foldl (fun arguments : Arguments => arguments.flags.get flag) (record_flags flag), unset,
    Option.or_none]

theorem settled_verbose (items : List Item) :
    (items.foldl Item.record .unset).verbose = (lastGiven? Item.verbose? items).getD false := by
  have last := read_foldl (fun arguments : Arguments => some arguments.verbose) record_verbose
    items .unset
  cases given : lastGiven? Item.verbose? items with
  | none => simpa [given, Arguments.unset] using last
  | some value => simpa [given] using last

theorem preset_present (canonical : ∀ item ∈ items, item.Canonical) {text : Text}
    (last : lastGiven? (Item.supplied? .preset) items = some text) : text ≠ [] := by
  obtain ⟨item, member, given⟩ := lastGiven?_mem last
  have named : ∀ preset : Preset, preset.name ≠ [] := by
    intro preset
    cases preset <;> decide
  cases item with
  | valued slot value placement =>
    obtain ⟨rfl, rfl⟩ : slot = .preset ∧ value = text := by
      simpa [Item.supplied?] using given
    have admits : Slot.Admits value .preset := by
      cases placement with
      | assigned => exact (canonical _ member).1
      | apart => exact (canonical _ member).1
    obtain ⟨preset, rfl⟩ := admits
    exact named preset
  | _ => cases given

theorem settled_set? (canonical : ∀ item ∈ items, item.Canonical) (field : Field) :
    (items.foldl Item.record .unset).set? field = lastGiven? (Item.sets? field) items := by
  cases field with
  | preset =>
    have given : (items.foldl Item.record .unset).preset = _ :=
      settled_given .preset (by decide) items
    unfold Arguments.set? Item.sets?
    dsimp only
    rw [given, lastGiven?_map]
    cases last : lastGiven? (Item.supplied? .preset) items with
    | none => rfl
    | some text =>
      cases text with
      | nil => exact absurd rfl (preset_present canonical last)
      | cons c rest => rfl
  | switch flag =>
    unfold Arguments.set? Item.sets?
    dsimp only
    rw [settled_flags, lastGiven?_map]
  | commentPrefix =>
    have given : (items.foldl Item.record .unset).commentPrefix = _ :=
      settled_given .commentPrefix (by decide) items
    unfold Arguments.set? Item.sets?
    dsimp only
    rw [given, lastGiven?_map, Option.map_map]
    rfl

/-- A canonical line is accepted, and each option comes from its last item: the overrides are the
settings that some item is about, in their order, and what no item is about stays unset. -/
theorem canonical_line_settled_by_last (canonical : ∀ item ∈ items, item.Canonical) :
    ∃ arguments, parse (inspectLine (items.flatMap Item.texts)) = .ok (.inspect arguments) ∧
      arguments.overrides =
        Field.all.filterMap (fun field =>
          (lastGiven? (Item.sets? field) items).map fun value => (field.key, value)) ∧
      arguments.format =
        .text ((lastGiven? (Item.supplied? .format) items).getD (Text.ofString "summary")) ∧
      arguments.config = (lastGiven? (Item.supplied? .config) items).map .text ∧
      arguments.verbose = (lastGiven? Item.verbose? items).getD false := by
  refine ⟨items.foldl Item.record .unset, parse_items canonical, ?_, settled_format items,
    settled_given .config (by decide) items, settled_verbose items⟩
  have settled : (items.foldl Item.record .unset).set? =
      fun field => lastGiven? (Item.sets? field) items := by
    funext field
    exact settled_set? canonical field
  rw [Arguments.overrides_eq_keyed, settled]
  rfl

def repeatedItems : List Item := [
  .toggle .comments true, .valued .commentPrefix "--no-comments" .assigned, .verbose true,
  .valued .preset "concise" .apart, .toggle .comments false, .valued .commentPrefix [] .apart,
  .valued .preset "defaults" .assigned, .toggle .json true]

/-- The words in which the items are written; the value that is like an option is a value, and the
empty prefix is set. -/
theorem repeated_options_settled :
    (∀ item ∈ repeatedItems, item.Canonical) ∧
    ∃ arguments, parse ["options", "show", "--comments", "--comment-prefix=--no-comments", "-v",
        "--preset", "concise", "--no-comments", "--comment-prefix", [], "--preset=defaults",
        "--json"] = .ok (.inspect arguments) ∧
      arguments.overrides = [(Text.ofString "preset", .str "defaults"),
        (Text.ofString "comments", .bool false), (Text.ofString "json", .bool true),
        (Text.ofString "comment_prefix", .str [])] ∧
      arguments.format = .text "summary" ∧ arguments.config = none ∧ arguments.verbose = true := by
  have canonical : ∀ item ∈ repeatedItems, item.Canonical := by
    simp only [repeatedItems, List.forall_mem_cons]
    exact ⟨trivial, ⟨trivial, by decide⟩, trivial, ⟨⟨.concise, rfl⟩, by decide⟩, trivial,
      ⟨trivial, by decide⟩, ⟨⟨.defaults, rfl⟩, by decide⟩, trivial, List.forall_mem_nil _⟩
  obtain ⟨arguments, accepted, overrides, format, config, verbose⟩ :=
    canonical_line_settled_by_last canonical
  exact ⟨canonical, arguments, accepted, overrides, format, config, verbose⟩

end Settled
end HoconRender.CommandLine
