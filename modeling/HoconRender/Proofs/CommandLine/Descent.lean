import HoconRender.CommandLine.Arguments
import HoconRender.Proofs.Outcome

/-
How a line comes down to the command that shows options. The two commands above it only have
options that end the run, so its line starts with its two names, and all words behind them are its
own. A word is told apart by its text alone.
-/
namespace HoconRender.CommandLine

theorem cutAt_mark {mark : Nat} {name : Text} (clean : mark ∉ name) (rest : Text) :
    Text.cutAt mark (name ++ mark :: rest) = (name, some rest) := by
  induction name with
  | nil => simp [Text.cutAt]
  | cons c name ih =>
    simp only [List.mem_cons, not_or] at clean
    simp [Text.cutAt, Ne.symm clean.1, ih clean.2]

section Kinds

variable {spellings : List Spelling} {spelling : Spelling} {word : Text}

theorem findSpelling_mem (found : findSpelling spellings word = some spelling) :
    spelling ∈ spellings := List.mem_of_find?_eq_some found

theorem wordKind_value (spellings : List Spelling) (plain : word.head? ≠ some hyphen) :
    wordKind spellings word = .ok .value := by
  unfold wordKind
  rw [if_pos plain]

theorem wordKind_spelled (starts : word.head? = some hyphen)
    (found : findSpelling spellings word = some spelling) :
    wordKind spellings word = .ok (.known spelling none) := by
  unfold wordKind
  rw [if_neg (by simp [starts]), found]

theorem wordKind_assigned {name : Text} (clean : ∀ spelling ∈ spellings, equalsSign ∉ spelling.name)
    (starts : name.head? = some hyphen) (found : findSpelling spellings name = some spelling)
    (value : Text) :
    wordKind spellings (name ++ equalsSign :: value) = .ok (.known spelling (some value)) := by
  have same : spelling.name = name := by simpa using List.find?_some found
  have cleanName : equalsSign ∉ name := same ▸ clean spelling (findSpelling_mem found)
  have whole : findSpelling spellings (name ++ equalsSign :: value) = none := by
    apply List.find?_eq_none.mpr
    intro other member equal
    have text : other.name = name ++ equalsSign :: value := by simpa using equal
    exact clean other member (by simp [text])
  have front : (name ++ equalsSign :: value).head? = some hyphen := by
    cases name with
    | nil => simp at starts
    | cons c name => simpa using starts
  have long : (name ++ equalsSign :: value).length ≠ 1 := by
    cases name with
    | nil => simp at starts
    | cons c name => simp
  unfold wordKind
  rw [if_neg (by simp [front]), whole]
  dsimp only
  rw [if_neg long]
  unfold assigned?
  rw [cutAt_mark cleanName]
  dsimp only
  rw [found]
  rfl

theorem candidates_mem {value : Option Text}
    (member : (spelling, value) ∈ candidates spellings word) : spelling ∈ spellings := by
  unfold candidates at member
  split at member
  · split at member
    · obtain ⟨_, inside, same⟩ := List.mem_map.mp member
      cases same
      exact (List.mem_filter.mp inside).1
    · obtain ⟨_, inside, same⟩ := List.mem_map.mp member
      cases same
      exact (List.mem_filter.mp inside).1
  · simp at member

theorem wordKind_ok_of_few (few : (candidates spellings word).length ≤ 1) :
    ∃ kind, wordKind spellings word = .ok kind := by
  unfold wordKind
  split
  · exact ⟨_, rfl⟩
  split
  · exact ⟨_, rfl⟩
  split
  · exact ⟨_, rfl⟩
  split
  · exact ⟨_, rfl⟩
  split
  · exact ⟨_, rfl⟩
  · exact ⟨_, rfl⟩
  · rename_i several notOne notNone
    match listed : candidates spellings word with
    | [] => exact absurd listed notNone
    | [(spelling, value)] => exact absurd listed (notOne spelling value)
    | _ :: _ :: _ => simp [listed] at few

theorem candidates_assigned {name : Text} (clean : equalsSign ∉ name)
    (long : name.take 2 = separatorText) (value : Text) :
    (candidates spellings (name ++ equalsSign :: value)).length =
      (spellings.filter fun spelling => spelling.name.startsWith name).length := by
  match name, long with
  | first :: second :: tail, long =>
    have second : second = hyphen := by
      have both : [first, second] = [0x2D, 0x2D] := long
      simp only [List.cons.injEq, and_true] at both
      exact both.2
    have cut := cutAt_mark clean value
    unfold candidates
    simp only [List.cons_append] at cut ⊢
    rw [if_pos second, cut]
    simp

theorem wordKind_cases {kind : WordKind} (told : wordKind spellings word = .ok kind) :
    kind = .value ∨ kind = .unknown ∨
      ∃ spelling ∈ spellings, ∃ value, kind = .known spelling value := by
  unfold wordKind at told
  split at told
  · cases told
    exact Or.inl rfl
  split at told
  · rename_i spelling found
    cases told
    exact Or.inr (Or.inr ⟨spelling, findSpelling_mem found, none, rfl⟩)
  split at told
  · cases told
    exact Or.inl rfl
  split at told
  · rename_i spelling value assigned
    cases told
    refine Or.inr (Or.inr ⟨spelling, ?_, some value, rfl⟩)
    unfold assigned? at assigned
    split at assigned
    · obtain ⟨_, found, same⟩ := Option.map_eq_some_iff.mp assigned
      cases same
      exact findSpelling_mem found
    · cases assigned
  split at told
  · rename_i spelling value listed
    cases told
    have member : (spelling, value) ∈ candidates spellings word := by simp [listed]
    exact Or.inr (Or.inr ⟨spelling, candidates_mem member, value, rfl⟩)
  · split at told
    · cases told
      exact Or.inl rfl
    · cases told
      exact Or.inr (Or.inl rfl)
  · cases told

end Kinds

section Words

variable {spellings : List Spelling} {text : Text} {kind : WordKind} {line : List Text}

theorem words_cons (apart : text ≠ separatorText) (told : wordKind spellings text = .ok kind)
    (line : List Text) :
    words spellings (text :: line) = (words spellings line).map (⟨text, kind⟩ :: ·) := by
  rw [words, if_neg apart, told]
  cases words spellings line <;> rfl

theorem words_ok_of_kinds (told : ∀ text ∈ line, ∃ kind, wordKind spellings text = .ok kind) :
    ∃ found, words spellings line = .ok found := by
  induction line with
  | nil => exact ⟨[], rfl⟩
  | cons text line ih =>
    obtain ⟨⟨kind, first⟩, others⟩ := List.forall_mem_cons.mp told
    obtain ⟨found, later⟩ := ih others
    by_cases same : text = separatorText
    · exact ⟨_, by rw [words, if_pos same]⟩
    · exact ⟨_, by rw [words_cons same first, later]; rfl⟩

/-- A word is made from a text of the line: as the table tells, as the separator, or as a value behind
one. -/
inductive Stems (spellings : List Spelling) : Word → Prop where
  | told {text : Text} {kind : WordKind} (told : wordKind spellings text = .ok kind) :
      Stems spellings ⟨text, kind⟩
  | separator : Stems spellings ⟨separatorText, .separator⟩
  | behind (text : Text) : Stems spellings ⟨text, .value⟩

theorem words_ok_stems {found : List Word} (read : words spellings line = .ok found) :
    found.map Word.text = line ∧ ∀ word ∈ found, Stems spellings word := by
  induction line generalizing found with
  | nil =>
    cases read
    simp
  | cons text line ih =>
    by_cases same : text = separatorText
    · subst text
      have behind : found = ⟨separatorText, .separator⟩ :: line.map fun text => ⟨text, .value⟩ := by
        simpa [words] using read.symm
      subst found
      have values : (line.map fun text => Word.mk text .value).map Word.text = line := by
        rw [List.map_map]
        exact List.map_id line
      refine ⟨congrArg (separatorText :: ·) values, ?_⟩
      intro word member
      rcases List.mem_cons.mp member with rfl | value
      · exact Stems.separator
      · obtain ⟨text, _, rfl⟩ := List.mem_map.mp value
        exact Stems.behind text
    · unfold words at read
      rw [if_neg same] at read
      obtain ⟨kind, told, read⟩ := Outcome.bind_ok_iff.mp read
      obtain ⟨rest, later, read⟩ := Outcome.bind_ok_iff.mp read
      cases read
      obtain ⟨texts, stems⟩ := ih later
      refine ⟨by simp [texts], ?_⟩
      intro word member
      rcases List.mem_cons.mp member with rfl | inside
      · exact Stems.told told
      · exact stems word inside

theorem stems_known {text : Text} {spelling : Spelling} {value : Option Text}
    (stems : Stems spellings ⟨text, .known spelling value⟩) : spelling ∈ spellings := by
  cases stems with
  | told told =>
    rcases wordKind_cases told with other | other | ⟨_, member, _, same⟩
    · cases other
    · cases other
    · cases same
      exact member

theorem stems_separator {text : Text} (stems : Stems spellings ⟨text, .separator⟩) :
    text = separatorText := by
  cases stems with
  | separator => rfl
  | told told => rcases wordKind_cases told with other | other | ⟨_, _, _, other⟩ <;> cases other

end Words

/-- The names of the two commands that lead to the command that shows options, and its words. -/
def inspectLine (rest : List Text) : List Text :=
  Text.ofString "options" :: Text.ofString "show" :: rest

theorem cluster_head {spellings : List Spelling} {spelling : Spelling} {letters : Text}
    {found : List Effect} (read : cluster spellings spelling letters = .ok found) :
    ∃ more, found = spelling.effect :: more := by
  cases letters with
  | nil => cases read
  | cons letter rest =>
    unfold cluster at read
    split at read
    · cases read
    split at read
    · cases read
    split at read
    · cases read
      exact ⟨_, rfl⟩
    · obtain ⟨more, _, same⟩ := Outcome.map_ok_iff.mp read
      exact ⟨more, same.symm⟩

theorem effects_head {spellings : List Spelling} {spelling : Spelling} {value : Option Text}
    {found : List Effect} (read : effects spellings spelling value = .ok found) :
    ∃ more, found = spelling.effect :: more := by
  cases value with
  | none =>
    cases read
    exact ⟨[], rfl⟩
  | some letters => exact cluster_head read

theorem perform_above {command : Command} (above : command = .root ∨ command = .group)
    {spelling : Spelling} (known : spelling ∈ command.spellings) (more : List Effect)
    (start found : Arguments) :
    Arguments.perform command (spelling.effect :: more) start ≠ .ok found := by
  have ends : ∀ above : Command, above = .root ∨ above = .group → ∀ spelling ∈ above.spellings,
      spelling.effect = .help ∨ spelling.effect = .version := by
    rintro above (rfl | rfl) <;> decide
  rcases ends command above spelling known with help | version
  · simp [help, Arguments.perform]
  · simp [version, Arguments.perform]

theorem usage_ok_iff {α : Type} {command : Command} {read : Except UsageFault α} {found : α} :
    Arguments.usage command read = .ok found ↔ read = .ok found := by
  cases read <;> simp [Arguments.usage]

theorem descend_first {command : Command} (above : command = .root ∨ command = .group)
    {found : List Word} (stems : ∀ word ∈ found, Stems command.spellings word) {name : Text}
    {rest : List Text} (down : descend command found = .ok ([], some (name, rest)))
    (named : name ≠ separatorText) : found.map Word.text = name :: rest := by
  match found, stems with
  | [], _ => cases down
  | ⟨text, .value⟩ :: words, _ =>
    cases down
    rfl
  | ⟨text, .separator⟩ :: words, stems =>
    have same := stems_separator (stems _ (List.mem_cons_self ..))
    cases words with
    | nil => cases down
    | cons word words =>
      cases down
      exact absurd same named
  | ⟨text, .unknown⟩ :: words, _ =>
    obtain ⟨_, _, other⟩ := Outcome.map_ok_iff.mp down
    cases other
  | ⟨text, .known spelling value⟩ :: words, stems =>
    have known := stems_known (stems _ (List.mem_cons_self ..))
    obtain ⟨found, read, down⟩ := Outcome.bind_ok_iff.mp down
    obtain ⟨arguments, performed, _⟩ := Outcome.bind_ok_iff.mp down
    obtain ⟨more, rfl⟩ := effects_head (usage_ok_iff.mp read)
    exact absurd performed (perform_above above known more .unset arguments)

theorem subcommand_first {command next : Command} (above : command = .root ∨ command = .group)
    {line rest : List Text} (down : subcommand command line = .ok ([], some (next, rest))) :
    ∃ name, line = name :: rest ∧ command.subcommands.lookup name = some next := by
  unfold subcommand at down
  obtain ⟨found, read, down⟩ := Outcome.bind_ok_iff.mp down
  obtain ⟨⟨left, below⟩, descended, down⟩ := Outcome.bind_ok_iff.mp down
  obtain ⟨texts, stems⟩ := words_ok_stems (usage_ok_iff.mp read)
  match below with
  | none => cases down
  | some (name, behind) =>
    dsimp only at down
    split at down
    · rename_i listed
      cases down
      have named : name ≠ separatorText := by
        rintro rfl
        rcases above with rfl | rfl <;> cases listed
      refine ⟨name, ?_, listed⟩
      rw [← texts, descend_first above stems descended named]
    · cases down

theorem lookup_root {name : Text} {next : Command}
    (listed : Command.root.subcommands.lookup name = some next) :
    name = Text.ofString "options" ∧ next = .group := by
  rw [Command.subcommands, List.lookup_cons] at listed
  split at listed
  · rename_i same
    cases listed
    exact ⟨by simpa using same, rfl⟩
  · cases listed

theorem lookup_group {name : Text} {next : Command}
    (listed : Command.group.subcommands.lookup name = some next) (other : next ≠ .presets) :
    name = Text.ofString "show" ∧ next = .inspect := by
  rw [Command.subcommands, List.lookup_cons, List.lookup_cons] at listed
  split at listed
  · rename_i same
    cases listed
    exact ⟨by simpa using same, rfl⟩
  · split at listed
    · cases listed
      exact absurd rfl other
    · cases listed

/-- A line that the command which shows options accepts starts with the two names, and its own
words are read from the rest with none left over. -/
theorem parse_inspect_words {line : List Text} {arguments : Arguments}
    (accepted : parse line = .ok (.inspect arguments)) :
    ∃ rest, line = inspectLine rest ∧ Arguments.read .inspect rest = .ok (arguments, []) := by
  unfold parse at accepted
  obtain ⟨⟨invocation, left⟩, root, accepted⟩ := Outcome.bind_ok_iff.mp accepted
  dsimp only at accepted
  split at accepted
  case isFalse => cases accepted
  rename_i none
  cases accepted
  obtain rfl := List.isEmpty_iff.mp none
  unfold readRoot at root
  obtain ⟨⟨first, below⟩, down, root⟩ := Outcome.bind_ok_iff.mp root
  match below with
  | .none => cases root
  | some (command, rest) =>
    obtain ⟨⟨invocation, more⟩, group, root⟩ := Outcome.bind_ok_iff.mp root
    obtain ⟨same, left⟩ : invocation = .inspect arguments ∧ first ++ more = [] := by
      simpa using root
    obtain ⟨rfl, rfl⟩ := List.append_eq_nil_iff.mp left
    obtain ⟨name, rfl, listed⟩ := subcommand_first (Or.inl rfl) down
    obtain ⟨rfl, _⟩ := lookup_root listed
    unfold readGroup at group
    obtain ⟨⟨second, below⟩, down, group⟩ := Outcome.bind_ok_iff.mp group
    match below with
    | .none => cases group
    | some (command, words) =>
      obtain ⟨⟨found, extra⟩, read, group⟩ := Outcome.bind_ok_iff.mp group
      obtain ⟨shown, left⟩ :
          (if command = .presets then .presets found else .inspect found) = invocation ∧
            second ++ extra = [] := by
        simpa using group
      obtain ⟨rfl, rfl⟩ := List.append_eq_nil_iff.mp left
      obtain ⟨name, rfl, listed⟩ := subcommand_first (Or.inr rfl) down
      rw [same] at shown
      split at shown
      · cases shown
      · rename_i other
        cases shown
        obtain ⟨rfl, rfl⟩ := lookup_group listed other
        exact ⟨words, rfl, read⟩

section Named

variable {command next : Command} {name : Text} {rest : List Text}

theorem words_named (plain : name.head? ≠ some hyphen) (spellings : List Spelling)
    (rest : List Text) :
    words spellings (name :: rest) = (words spellings rest).map (⟨name, .value⟩ :: ·) := by
  have apart : name ≠ separatorText := by
    rintro rfl
    exact plain rfl
  exact words_cons apart (wordKind_value spellings plain) rest

theorem subcommand_named (plain : name.head? ≠ some hyphen)
    (listed : command.subcommands.lookup name = some next)
    (told : ∃ found, words command.spellings rest = .ok found) :
    subcommand command (name :: rest) = .ok ([], some (next, rest)) := by
  obtain ⟨found, read⟩ := told
  have texts := (words_ok_stems read).1
  have down : descend command (⟨name, .value⟩ :: found) = .ok ([], some (name, rest)) := by
    rw [descend, texts]
  unfold subcommand
  rw [words_named plain, read]
  simp only [Except.map, Arguments.usage, bind, Except.bind, down, listed]

theorem words_of_subcommand (plain : name.head? ≠ some hyphen)
    {below : List Text × Option (Command × List Text)}
    (down : subcommand command (name :: rest) = .ok below) :
    ∃ found, words command.spellings rest = .ok found := by
  unfold subcommand at down
  obtain ⟨found, read, _⟩ := Outcome.bind_ok_iff.mp down
  have told := usage_ok_iff.mp read
  rw [words_named plain] at told
  obtain ⟨behind, read, _⟩ := Outcome.map_ok_iff.mp told
  exact ⟨behind, read⟩

theorem readGroup_named (told : ∃ found, words Command.group.spellings rest = .ok found) :
    readGroup (Text.ofString "show" :: rest) =
      (Arguments.read .inspect rest).map fun read => (.inspect read.1, read.2) := by
  have down : subcommand .group (Text.ofString "show" :: rest) =
      .ok ([], some (.inspect, rest)) := subcommand_named (by decide) rfl told
  unfold readGroup
  rw [down]
  rfl

theorem readRoot_named (told : ∃ found, words Command.root.spellings rest = .ok found) :
    readRoot (inspectLine rest) = readGroup (Text.ofString "show" :: rest) := by
  have behind : ∃ found,
      words Command.root.spellings (Text.ofString "show" :: rest) = .ok found := by
    obtain ⟨found, read⟩ := told
    exact ⟨_, by rw [words_named (by decide), read]; rfl⟩
  have down : subcommand .root (inspectLine rest) =
      .ok ([], some (.group, Text.ofString "show" :: rest)) :=
    subcommand_named (by decide) rfl behind
  unfold readRoot
  rw [down]
  change (readGroup (Text.ofString "show" :: rest) >>= _) = _
  cases readGroup (Text.ofString "show" :: rest) <;> rfl

/-- Two names and words that both commands above can tell, and that the command reads itself. -/
theorem parse_inspectLine_iff {arguments : Arguments} :
    parse (inspectLine rest) = .ok (.inspect arguments) ↔
      (∃ found, words Command.root.spellings rest = .ok found) ∧
      (∃ found, words Command.group.spellings rest = .ok found) ∧
      Arguments.read .inspect rest = .ok (arguments, []) := by
  constructor
  · intro accepted
    obtain ⟨own, same, read⟩ := parse_inspect_words accepted
    cases same
    unfold parse at accepted
    obtain ⟨found, down, _⟩ := Outcome.bind_ok_iff.mp accepted
    have root : ∃ found, words Command.root.spellings rest = .ok found := by
      obtain ⟨below, first, _⟩ := Outcome.bind_ok_iff.mp down
      obtain ⟨found, told⟩ := words_of_subcommand (by decide) first
      rw [words_named (by decide)] at told
      obtain ⟨behind, told, _⟩ := Outcome.map_ok_iff.mp told
      exact ⟨behind, told⟩
    rw [readRoot_named root] at down
    obtain ⟨below, second, _⟩ := Outcome.bind_ok_iff.mp down
    exact ⟨root, words_of_subcommand (by decide) second, read⟩
  · rintro ⟨root, group, read⟩
    unfold parse
    rw [readRoot_named root, readGroup_named group, read]
    rfl

end Named

end HoconRender.CommandLine
