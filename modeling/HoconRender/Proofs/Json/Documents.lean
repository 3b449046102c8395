import HoconRender.Proofs.Entries
import HoconRender.Proofs.Json.Quotation
import HoconRender.Proofs.Text.Portable

/-
Documents written with indentation and read back: objects of texts and truth values, nested in one
another. Reading takes the text of such a value off whatever follows it and finds the value.
-/
namespace HoconRender.Json

/-- A value of objects, texts and truth values, with at most `depth` objects around each other. -/
def Plain : (depth : Nat) → Json → Prop
  | _, .bool _ => True
  | _, .str t => t.WellFormed
  | depth + 1, .obj members =>
    (Entries.keys members).Nodup ∧ ∀ entry ∈ members, entry.1.WellFormed ∧ Plain depth entry.2
  | _, _ => False

def Blank (gap : Text) : Prop := ∀ c ∈ gap, isBlank c = true

theorem blank_lineBreak (level : Nat) : Blank (lineBreak level) := by
  intro c member
  rcases List.mem_cons.mp member with rfl | space
  · decide
  · rw [List.eq_of_mem_replicate space]
    decide

theorem skipBlank_gap {gap : Text} (blank : Blank gap) {c : Nat} (mark : isBlank c = false)
    (offset : Nat) (rest : Text) :
    skipBlank offset (gap ++ c :: rest) = ⟨offset + gap.length, c :: rest⟩ := by
  induction gap generalizing offset with
  | nil => simp [skipBlank, mark]
  | cons b gap ih =>
    obtain ⟨first, others⟩ := List.forall_mem_cons.mp blank
    simp only [List.cons_append, skipBlank, first, ↓reduceIte, ih others, List.length_cons]
    congr 1
    omega

/-- The reader takes a text off whatever follows it and finds a value in it. -/
def Takes (item : Cursor → Except Stop (Json × Cursor)) (text : Text) (value : Json) : Prop :=
  ∀ offset rest, ∃ after, item ⟨offset, text ++ rest⟩ = .ok (value, ⟨after, rest⟩)

def StartsVisible (text : Text) : Prop := ∃ c more, text = c :: more ∧ isBlank c = false

def colon : Text := [0x3A, 0x20]

variable {item : Cursor → Except Stop (Json × Cursor)} {name : Text} {body : Text} {value : Json}

theorem quotedText_append (t rest : Text) :
    quotedText t ++ rest =
      Text.quotationMark :: (t.flatMap escapedPoint ++ Text.quotationMark :: rest) := by
  simp [quotedText]

def behindMember (item : Cursor → Except Stop (Json × Cursor)) (size : Nat) (found : Members)
    (mark : Cursor) : Except Stop (Members × Cursor) :=
  match mark.rest with
  | 0x7D :: rest => .ok (found, ⟨mark.offset + 1, rest⟩)
  | 0x2C :: rest => readMembers item size found (skipBlank (mark.offset + 1) rest)
  | _ => .error (.problem .missingComma mark.offset)

theorem readMembers_member (characters : name.WellFormed) (visible : StartsVisible body)
    (taken : Takes item body value) (size : Nat) (found : Members) (offset : Nat) (tail : Text) :
    ∃ after, readMembers item (size + 1) found
      ⟨offset, quotedText name ++ colon ++ body ++ tail⟩ =
        behindMember item size (found.put name value) (skipBlank after tail) := by
  obtain ⟨c, more, starts, mark⟩ := visible
  obtain ⟨named, readName⟩ := readString_quoted characters offset (offset + 1)
    (colon ++ body ++ tail)
  have skipped : skipBlank (named + 1) (0x20 :: (body ++ tail)) = ⟨named + 2, body ++ tail⟩ := by
    have gap := skipBlank_gap (show Blank [0x20] by simp [Blank, isBlank]) mark (named + 1)
      (more ++ tail)
    rw [starts]
    exact gap
  obtain ⟨after, readBody⟩ := taken (named + 2) tail
  refine ⟨after, ?_⟩
  unfold readMembers
  rw [List.append_assoc, List.append_assoc, quotedText_append, ← List.append_assoc]
  change (readString offset (offset + 1) _ >>= _) = _
  rw [readName]
  change (item (skipBlank (named + 1) (0x20 :: (body ++ tail))) >>= _) = _
  rw [skipped, readBody]
  rfl

theorem indentedMembers_last (level : Nat) (name : Text) (value : Json) (behind : Text) :
    indentedMembers level [(name, value)] ++ behind =
      lineBreak level ++ (quotedText name ++ colon ++ indented level value ++ behind) := by
  have colon : Text.ofString ": " = colon := rfl
  simp [indentedMembers, colon]

theorem indentedMembers_next (level : Nat) (name : Text) (value : Json) (next : Text × Json)
    (more : Members) (behind : Text) :
    indentedMembers level ((name, value) :: next :: more) ++ behind =
      lineBreak level ++ (quotedText name ++ colon ++ indented level value ++
        0x2C :: (indentedMembers level (next :: more) ++ behind)) := by
  have colon : Text.ofString ": " = colon := rfl
  have comma : Text.ofString "," = [0x2C] := rfl
  simp [indentedMembers, colon, comma]

theorem skipBlank_member (level offset : Nat) (name body tail : Text) :
    skipBlank offset (lineBreak level ++ (quotedText name ++ colon ++ body ++ tail)) =
      ⟨offset + (lineBreak level).length, quotedText name ++ colon ++ body ++ tail⟩ := by
  rw [List.append_assoc, List.append_assoc, quotedText_append]
  exact skipBlank_gap (blank_lineBreak level) (by decide) offset _

theorem skipBlank_first (level : Nat) (first : Text × Json) (more : Members) (offset : Nat)
    (behind : Text) :
    ∃ here rest, skipBlank offset (indentedMembers level (first :: more) ++ behind) =
      ⟨here, Text.quotationMark :: rest⟩ := by
  obtain ⟨name, value⟩ := first
  cases more with
  | nil =>
    rw [indentedMembers_last, skipBlank_member]
    exact ⟨_, _, rfl⟩
  | cons next more =>
    rw [indentedMembers_next, skipBlank_member]
    exact ⟨_, _, rfl⟩

theorem readValue_object {size depth offset here : Nat} {inside rest : Text} {members : Members}
    {next : Cursor} (named : skipBlank (offset + 1) inside = ⟨here, Text.quotationMark :: rest⟩)
    (read : readMembers (readValue size depth) size [] (skipBlank (offset + 1) inside) =
      .ok (members, next)) :
    readValue size (depth + 1) ⟨offset, 0x7B :: inside⟩ = .ok (.obj members, next) := by
  rw [named] at read
  simp only [readValue, named]
  change (readMembers (readValue size depth) size [] _).map _ = _
  rw [read]
  rfl

theorem readMembers_indented {level : Nat} {members : Members} (present : members ≠ [])
    {found : Members} (distinct : (Entries.keys (found ++ members)).Nodup)
    (each : ∀ entry ∈ members, entry.1.WellFormed ∧ StartsVisible (indented level entry.2) ∧
      Takes item (indented level entry.2) entry.2)
    {size : Nat} (fits : members.length ≤ size) (outer offset : Nat) (rest : Text) :
    ∃ after, readMembers item size found (skipBlank offset
      (indentedMembers level members ++ (lineBreak outer ++ 0x7D :: rest))) =
        .ok (found ++ members, ⟨after, rest⟩) := by
  induction members generalizing found size offset with
  | nil => exact absurd rfl present
  | cons entry more ih =>
    obtain ⟨name, value⟩ := entry
    obtain ⟨⟨characters, visible, taken⟩, others⟩ := List.forall_mem_cons.mp each
    obtain ⟨size, rfl⟩ : ∃ smaller, size = smaller + 1 := ⟨size - 1, by
      simp only [List.length_cons] at fits
      omega⟩
    have absent : name ∉ Entries.keys found := by
      intro before
      simp only [Entries.keys, List.map_append, List.map_cons, List.nodup_append] at distinct
      exact distinct.2.2 name before name (by simp) rfl
    cases more with
    | nil =>
      obtain ⟨after, read⟩ := readMembers_member characters visible taken size found
        (offset + (lineBreak level).length) (lineBreak outer ++ 0x7D :: rest)
      have closing := skipBlank_gap (blank_lineBreak outer) (show isBlank 0x7D = false by decide)
        after rest
      refine ⟨after + (lineBreak outer).length + 1, ?_⟩
      rw [indentedMembers_last, skipBlank_member, read, closing, Entries.put_absent value absent]
      rfl
    | cons next last =>
      obtain ⟨middle, read⟩ := readMembers_member characters visible taken size found
        (offset + (lineBreak level).length)
        (0x2C :: (indentedMembers level (next :: last) ++ (lineBreak outer ++ 0x7D :: rest)))
      have behind : (Entries.keys ((found ++ [(name, value)]) ++ next :: last)).Nodup := by
        simpa using distinct
      obtain ⟨after, later⟩ := ih (by simp) behind others (by simpa using fits) (middle + 1)
      rw [List.append_assoc] at later
      refine ⟨after, ?_⟩
      rw [indentedMembers_next, skipBlank_member, read, Entries.put_absent value absent]
      exact later

theorem indented_visible {depth : Nat} {value : Json} (plain : Plain depth value) (level : Nat) :
    StartsVisible (indented level value) := by
  cases value with
  | bool b => cases b <;> exact ⟨_, _, rfl, by decide⟩
  | str t => exact ⟨_, _, rfl, by decide⟩
  | obj members => cases members <;> exact ⟨_, _, rfl, by decide⟩
  | _ => cases depth <;> simp [Plain] at plain

theorem length_indentedMembers (level : Nat) (members : Members) :
    members.length ≤ (indentedMembers level members).length ∧
      ∀ entry ∈ members,
        (indented level entry.2).length ≤ (indentedMembers level members).length := by
  induction members with
  | nil => simp [indentedMembers]
  | cons entry more ih =>
    obtain ⟨name, value⟩ := entry
    cases more with
    | nil =>
      have whole := congrArg List.length (indentedMembers_last level name value [])
      simp only [List.length_append, List.length_nil, colon, List.length_cons] at whole
      simp only [List.length_cons, List.length_nil, List.mem_singleton, forall_eq]
      omega
    | cons next last =>
      have whole := congrArg List.length (indentedMembers_next level name value next last [])
      simp only [List.length_append, List.length_nil, colon, List.length_cons] at whole
      refine ⟨by have := ih.1; simp only [List.length_cons] at this ⊢; omega, ?_⟩
      rintro entry (_ | ⟨_, member⟩)
      · dsimp only
        omega
      · have := ih.2 entry member
        omega

theorem takes_bool (b : Bool) (level size depth : Nat) :
    Takes (readValue size depth) (indented level (.bool b)) (.bool b) := by
  intro offset rest
  cases b <;> cases depth <;> exact ⟨_, rfl⟩

theorem takes_str {t : Text} (characters : t.WellFormed) (level size depth : Nat) :
    Takes (readValue size depth) (indented level (.str t)) (.str t) := by
  intro offset rest
  obtain ⟨after, read⟩ := readString_quoted characters offset (offset + 1) rest
  refine ⟨after, ?_⟩
  change readValue size depth ⟨offset, quotedText t ++ rest⟩ = _
  rw [quotedText_append]
  unfold readValue
  change (readString offset (offset + 1) _).map _ = _
  rw [read]
  rfl

/-- The text of a plain value is read as that value, whatever follows. -/
theorem readValue_indented {depth : Nat} {value : Json} (plain : Plain depth value)
    {level size : Nat} (fits : (indented level value).length ≤ size) :
    Takes (readValue size depth) (indented level value) value := by
  induction depth generalizing value level with
  | zero =>
    cases value with
    | bool b => exact takes_bool b level size 0
    | str t => exact takes_str plain level size 0
    | _ => simp [Plain] at plain
  | succ depth ih =>
    cases value with
    | bool b => exact takes_bool b level size (depth + 1)
    | str t => exact takes_str plain level size (depth + 1)
    | obj members =>
      obtain ⟨distinct, each⟩ := plain
      cases members with
      | nil => exact fun offset rest => ⟨_, rfl⟩
      | cons first more =>
        intro offset rest
        have whole : indented level (.obj (first :: more)) ++ rest =
            0x7B :: (indentedMembers (level + 1) (first :: more) ++
              (lineBreak level ++ 0x7D :: rest)) := by
          have opening : Text.ofString "\x7b" = [0x7B] := rfl
          have closing : Text.ofString "\x7d" = [0x7D] := rfl
          simp [indented, opening, closing]
        have inner := length_indentedMembers (level + 1) (first :: more)
        have outer := congrArg List.length whole
        simp only [List.length_append, List.length_cons] at inner outer
        have own : (Entries.keys ([] ++ first :: more)).Nodup := distinct
        have taken (entry : Text × Json) (member : entry ∈ first :: more) :
            Takes (readValue size depth) (indented (level + 1) entry.2) entry.2 :=
          ih (each entry member).2 (by have := inner.2 entry member; omega)
        have count : (first :: more).length ≤ size := by
          simp only [List.length_cons]
          omega
        obtain ⟨after, read⟩ := readMembers_indented (List.cons_ne_nil first more) own
          (fun entry member => ⟨(each entry member).1, indented_visible (each entry member).2 _,
            taken entry member⟩) count level (offset + 1) rest
        obtain ⟨here, behind, named⟩ := skipBlank_first (level + 1) first more (offset + 1)
          (lineBreak level ++ 0x7D :: rest)
        refine ⟨after, ?_⟩
        rw [whole]
        exact readValue_object named read
    | _ => simp [Plain] at plain

theorem skipBlank_blank {gap : Text} (blank : Blank gap) (offset : Nat) :
    (skipBlank offset gap).rest = [] := by
  induction gap generalizing offset with
  | nil => rfl
  | cons c gap ih =>
    obtain ⟨first, others⟩ := List.forall_mem_cons.mp blank
    rw [skipBlank, if_pos first]
    exact ih others (offset + 1)

theorem read_of_value {document gap : Text} {last : Nat} (unmarked : document.head? ≠ some 0xFEFF)
    (blank : Blank gap) (found : readValue document.length nestingLimit (skipBlank 0 document) =
      .ok (value, ⟨last, gap⟩)) : read document = .ok value := by
  have whole : readDocument document = .ok value := by
    unfold readDocument
    rw [if_neg unmarked]
    rw [found]
    change (if (skipBlank last gap).rest.isEmpty then _ else _) = _
    rw [skipBlank_blank blank]
    rfl
  unfold read
  rw [whole]

theorem read_member (characters : name.WellFormed) (plain : Plain (nestingLimit - 1) value)
    {gap : Text} (blank : Blank gap) :
    read (0x7B :: (quotedText name ++ colon ++ indented 0 value ++ (gap ++ [0x7D]))) =
      .ok (.obj [(name, value)]) := by
  have inside : quotedText name ++ colon ++ indented 0 value ++ (gap ++ [0x7D]) =
      Text.quotationMark :: (name.flatMap escapedPoint ++
        Text.quotationMark :: (colon ++ (indented 0 value ++ (gap ++ [0x7D])))) := by
    rw [List.append_assoc, List.append_assoc, quotedText_append]
  have size : (indented 0 value).length ≤
      (quotedText name ++ colon ++ indented 0 value ++ (gap ++ [0x7D])).length + 1 := by
    simp only [List.length_append]
    omega
  obtain ⟨after, member⟩ := readMembers_member characters (indented_visible plain 0)
    (readValue_indented plain size)
    (quotedText name ++ colon ++ indented 0 value ++ (gap ++ [0x7D])).length [] 1 (gap ++ [0x7D])
  have closing := skipBlank_gap blank (show isBlank 0x7D = false by decide) after []
  rw [closing] at member
  rw [inside] at member ⊢
  exact read_of_value (by simp) (by simp [Blank]) (readValue_object rfl member)

theorem lineBreak_portable (level : Nat) : (lineBreak level).Portable := by
  intro c member
  rcases List.mem_cons.mp member with rfl | space
  · decide
  · rw [List.eq_of_mem_replicate space]
    decide

theorem indentedMembers_portable {level : Nat} {members : Members}
    (each : ∀ entry ∈ members, (indented level entry.2).Portable) :
    (indentedMembers level members).Portable := by
  have start (name : Text) (value : Json) (inner : (indented level value).Portable) :
      (lineBreak level ++ (quotedText name ++ colon ++ indented level value)).Portable :=
    Text.portable_append (lineBreak_portable level) (Text.portable_append
      (Text.portable_append (quotedText_portable name) (by decide)) inner)
  induction members with
  | nil => simp [indentedMembers, Text.Portable]
  | cons entry more ih =>
    obtain ⟨name, value⟩ := entry
    obtain ⟨first, others⟩ := List.forall_mem_cons.mp each
    cases more with
    | nil =>
      have whole := indentedMembers_last level name value []
      rw [List.append_nil, List.append_nil] at whole
      rw [whole]
      exact start name value first
    | cons next last =>
      have whole := indentedMembers_next level name value next last []
      rw [List.append_nil, List.append_nil, ← List.append_assoc] at whole
      rw [whole]
      refine Text.portable_append (start name value first) ?_
      exact List.forall_mem_cons.mpr ⟨by decide, ih others⟩

theorem indented_portable {depth : Nat} {value : Json} (plain : Plain depth value) (level : Nat) :
    (indented level value).Portable := by
  have truth (b : Bool) : (scalarText (.bool b)).Portable := by cases b <;> decide
  have nothing : (Text.ofString "\x7b\x7d").Portable := by decide
  induction depth generalizing value level with
  | zero =>
    cases value with
    | bool b => exact truth b
    | str t => exact quotedText_portable t
    | _ => simp [Plain] at plain
  | succ depth ih =>
    cases value with
    | bool b => exact truth b
    | str t => exact quotedText_portable t
    | obj members =>
      cases members with
      | nil => exact nothing
      | cons first more =>
        have inner := indentedMembers_portable fun entry member =>
          ih (plain.2 entry member).2 (level + 1)
        exact Text.portable_append (Text.portable_append (Text.portable_append (by decide) inner)
          (lineBreak_portable level)) (by decide)
    | _ => simp [Plain] at plain

theorem read_indented (plain : Plain nestingLimit value) {gap : Text} (blank : Blank gap) :
    read (indented 0 value ++ gap) = .ok value := by
  obtain ⟨c, more, starts, mark⟩ := indented_visible plain 0
  have ascii : c < 0x80 :=
    ((Text.isPortable_iff c).mp (indented_portable plain 0 c (by simp [starts]))).1
  have unmarked : (indented 0 value ++ gap).head? ≠ some 0xFEFF := by
    rw [starts]
    simp only [List.cons_append, List.head?_cons, ne_eq, Option.some.injEq]
    omega
  have skipped : skipBlank 0 (indented 0 value ++ gap) = ⟨0, indented 0 value ++ gap⟩ := by
    rw [starts, List.cons_append, skipBlank, if_neg (by simp [mark])]
  have fits : (indented 0 value).length ≤ (indented 0 value ++ gap).length := by simp
  obtain ⟨after, taken⟩ := readValue_indented plain fits 0 gap
  exact read_of_value unmarked blank (skipped ▸ taken)

theorem read_of_magnifying_glass (rest : Text) (found : Json) : read (0x1F50D :: rest) ≠ .ok found := by
  have stopped : readDocument (0x1F50D :: rest) = .error (.problem .missingValue 0) := by rfl
  unfold read
  rw [stopped]
  simp

end HoconRender.Json
