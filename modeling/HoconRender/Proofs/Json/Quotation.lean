import HoconRender.Json.Reader
import HoconRender.Json.Writer
import HoconRender.Proofs.Text.Portable

/-
Texts written between quotation marks and read back. A text of characters comes back as it was,
and what stands behind the closing mark is left alone. Surrogates are kept out: the escapes of two
halves side by side are read as one character.
-/
namespace HoconRender.Json

theorem hexValue?_hexDigit {digit : Nat} (small : digit < 16) :
    hexValue? (Text.hexDigit digit) = some digit := by
  have all : ∀ d < 16, hexValue? (Text.hexDigit d) = some d := by decide
  exact all digit small

theorem hexadecimal_four (n : Nat) :
    Text.hexadecimal 4 n =
      [Text.hexDigit (n / 4096 % 16), Text.hexDigit (n / 256 % 16), Text.hexDigit (n / 16 % 16),
        Text.hexDigit (n % 16)] := by
  simp [Text.hexadecimal, Nat.div_div_eq_div_mul]

theorem hexValue4?_digits {n : Nat} (small : n < 0x10000) :
    hexValue4? (Text.hexDigit (n / 4096 % 16)) (Text.hexDigit (n / 256 % 16))
      (Text.hexDigit (n / 16 % 16)) (Text.hexDigit (n % 16)) = some n := by
  have digit (m : Nat) : hexValue? (Text.hexDigit (m % 16)) = some (m % 16) :=
    hexValue?_hexDigit (Nat.mod_lt m (by decide))
  have total : ((n / 4096 % 16 * 16 + n / 256 % 16) * 16 + n / 16 % 16) * 16 + n % 16 = n := by
    omega
  simp [hexValue4?, digit, total]

theorem quad?_hexadecimal {n : Nat} (small : n < 0x10000) (next : Nat) (rest : Text) :
    quad? (Text.hexadecimal 4 n ++ next :: rest) = some (some n, next :: rest) := by
  rw [hexadecimal_four]
  simp only [List.cons_append, List.nil_append, quad?, hexValue4?_digits small]

theorem readEscape_simple {mark c : Nat} (simple : simpleEscape? mark = some c)
    (other : mark ≠ 0x75) (start offset : Nat) (rest : Text) :
    readEscape start offset (mark :: rest) = .ok (c, 1) := by
  simp [readEscape, other, simple]

theorem readEscape_unit {c : Nat} (small : c < 0x10000) (whole : Text.isHighSurrogate c = false)
    (start offset next : Nat) (rest : Text) :
    readEscape start offset (0x75 :: (Text.hexadecimal 4 c ++ next :: rest)) = .ok (c, 5) := by
  unfold readEscape
  simp only [ne_eq, not_true_eq_false, ↓reduceIte, quad?_hexadecimal small]
  split
  · rename_i high digits same
    simp only [Option.some.injEq, Prod.mk.injEq] at same
    obtain ⟨rfl, _⟩ := same
    simp [whole]
  · rename_i found _ _ same
    simp only [Option.some.injEq, Prod.mk.injEq] at same
    rw [← same.1]
  · rename_i none
    exact absurd rfl (none c (next :: rest))

theorem readEscape_pair {high low : Nat} (first : Text.isHighSurrogate high = true)
    (second : Text.isLowSurrogate low = true) (start offset next : Nat) (rest : Text) :
    readEscape start offset
      (0x75 :: (Text.hexadecimal 4 high ++ escapedUnit low ++ next :: rest)) =
        .ok (joinSurrogates high low, 11) := by
  have highSmall : high < 0x10000 := by
    simp only [Text.isHighSurrogate, Bool.and_eq_true, decide_eq_true_eq] at first
    omega
  have lowSmall : low < 0x10000 := by
    simp only [Text.isLowSurrogate, Bool.and_eq_true, decide_eq_true_eq] at second
    omega
  have unit : escapedUnit low = 0x5C :: 0x75 :: Text.hexadecimal 4 low := rfl
  unfold readEscape
  simp [unit, quad?_hexadecimal highSmall, quad?_hexadecimal lowSmall, first, second]

theorem readString_closing (start offset : Nat) (rest : Text) :
    readString start offset (Text.quotationMark :: rest) = .ok ([], ⟨offset + 1, rest⟩) := by
  simp [readString]

theorem readString_plain {c : Nat} (visible : 0x20 ≤ c) (noMark : c ≠ Text.quotationMark)
    (noEscape : c ≠ Text.backslash) (start offset : Nat) (rest : Text) :
    readString start offset (c :: rest) = consText c (readString start (offset + 1) rest) := by
  have control : ¬ c < 0x20 := by omega
  rw [readString]
  simp [noMark, control, noEscape]

theorem readString_escape {start offset c width : Nat} {rest : Text}
    (escape : readEscape start offset rest = .ok (c, width)) :
    readString start offset (Text.backslash :: rest) =
      consText c (readString start (offset + 1 + width) (rest.drop width)) := by
  rw [readString]
  simp [escape, Text.backslash, Text.quotationMark]

theorem joinSurrogates_halves {c : Nat} (large : 0x10000 ≤ c) :
    joinSurrogates (0xD800 + (c - 0x10000) / 0x400) (0xDC00 + (c - 0x10000) % 0x400) = c := by
  unfold joinSurrogates
  omega

theorem halves_surrogates {c : Nat} (bound : c < 0x110000) :
    Text.isHighSurrogate (0xD800 + (c - 0x10000) / 0x400) = true ∧
      Text.isLowSurrogate (0xDC00 + (c - 0x10000) % 0x400) = true := by
  simp only [Text.isHighSurrogate, Text.isLowSurrogate, Bool.and_eq_true, decide_eq_true_eq]
  omega

/-- A character is read back from what it is written as, with something behind it. -/
theorem readString_escapedPoint {c : Nat} (character : Text.isScalar c = true)
    (start offset next : Nat) (rest : Text) :
    ∃ after, readString start offset (escapedPoint c ++ next :: rest) =
      consText c (readString start after (next :: rest)) := by
  have simple (mark : Nat) (stands : simpleEscape? mark = some c) (other : mark ≠ 0x75) :
      ∃ after, readString start offset (Text.backslash :: mark :: next :: rest) =
        consText c (readString start after (next :: rest)) :=
    ⟨_, readString_escape (readEscape_simple stands other start offset (next :: rest))⟩
  have unit (n : Nat) : escapedUnit n = Text.backslash :: 0x75 :: Text.hexadecimal 4 n := rfl
  simp only [Text.isScalar, Bool.or_eq_true, Bool.and_eq_true, decide_eq_true_eq] at character
  unfold escapedPoint
  split
  · rename_i own
    exact simple c (by rcases own with rfl | rfl <;> decide)
      (by rcases own with rfl | rfl <;> decide)
  split
  · subst c
    exact simple 0x62 (by decide) (by decide)
  split
  · subst c
    exact simple 0x74 (by decide) (by decide)
  split
  · subst c
    exact simple 0x6E (by decide) (by decide)
  split
  · subst c
    exact simple 0x66 (by decide) (by decide)
  split
  · subst c
    exact simple 0x72 (by decide) (by decide)
  split
  · rename_i own _ _ _ _ _ printable
    simp only [not_or] at own
    exact ⟨_, readString_plain printable.1 own.1 own.2 start offset (next :: rest)⟩
  split
  · rename_i small
    have whole : Text.isHighSurrogate c = false := by
      simp only [Text.isHighSurrogate, Bool.and_eq_false_imp, decide_eq_true_eq,
        decide_eq_false_iff_not]
      omega
    have read := readEscape_unit small whole start offset next rest
    have behind : (0x75 :: (Text.hexadecimal 4 c ++ next :: rest)).drop 5 = next :: rest := by
      simp [hexadecimal_four]
    refine ⟨offset + 1 + 5, ?_⟩
    rw [unit, List.cons_append, List.cons_append, readString_escape read, behind]
  · rename_i large
    obtain ⟨high, low⟩ := halves_surrogates (show c < 0x110000 by omega)
    have read := readEscape_pair high low start offset next rest
    rw [joinSurrogates_halves (by omega)] at read
    have behind : (0x75 :: (Text.hexadecimal 4 (0xD800 + (c - 0x10000) / 0x400) ++
        escapedUnit (0xDC00 + (c - 0x10000) % 0x400) ++ next :: rest)).drop 11 = next :: rest := by
      simp [unit, hexadecimal_four]
    refine ⟨offset + 1 + 11, ?_⟩
    rw [unit, List.cons_append, List.cons_append, List.cons_append, List.cons_append,
      readString_escape read, behind]

theorem readString_quoted {t : Text} (characters : t.WellFormed) (start offset : Nat)
    (rest : Text) :
    ∃ after, readString start offset
      (t.flatMap escapedPoint ++ Text.quotationMark :: rest) = .ok (t, ⟨after, rest⟩) := by
  induction t generalizing offset with
  | nil => exact ⟨_, readString_closing start offset rest⟩
  | cons c t ih =>
    obtain ⟨own, others⟩ := List.forall_mem_cons.mp characters
    obtain ⟨next, more, split⟩ : ∃ next more,
        t.flatMap escapedPoint ++ Text.quotationMark :: rest = next :: more := by
      cases t.flatMap escapedPoint with
      | nil => exact ⟨_, _, rfl⟩
      | cons next more => exact ⟨_, _, rfl⟩
    obtain ⟨middle, first⟩ := readString_escapedPoint own start offset next more
    obtain ⟨after, later⟩ := ih others middle
    refine ⟨after, ?_⟩
    rw [List.flatMap_cons, List.append_assoc, split, first, ← split, later]
    rfl

theorem hexadecimal_portable (width n : Nat) : (Text.hexadecimal width n).Portable := by
  induction width generalizing n with
  | zero => simp [Text.hexadecimal, Text.Portable]
  | succ width ih =>
    have digits : ∀ d < 16, Text.isPortable (Text.hexDigit d) = true := by decide
    apply Text.portable_append (ih (n / 16))
    simpa [Text.Portable] using digits (n % 16) (Nat.mod_lt n (by decide))

theorem escapedUnit_portable (n : Nat) : (escapedUnit n).Portable :=
  Text.portable_append (by decide) (hexadecimal_portable 4 n)

theorem escapedPoint_portable (c : Nat) : (escapedPoint c).Portable := by
  unfold escapedPoint
  split
  · rename_i own
    rcases own with rfl | rfl <;> decide
  split
  · decide
  split
  · decide
  split
  · decide
  split
  · decide
  split
  · decide
  split
  · rename_i printable
    simp only [Text.Portable, List.mem_singleton, forall_eq, Text.isPortable_iff]
    omega
  split
  · exact escapedUnit_portable c
  · exact Text.portable_append (escapedUnit_portable _) (escapedUnit_portable _)

theorem quotedText_portable (t : Text) : (quotedText t).Portable := by
  refine Text.portable_append (Text.portable_append (by decide) ?_) (by decide)
  intro d member
  obtain ⟨c, _, written⟩ := List.mem_flatMap.mp member
  exact escapedPoint_portable c d written

end HoconRender.Json
