import HoconRender.Proofs.Text.Portable
import HoconRender.Text.Quoted

/-
Texts split into lines and put together again, and texts that are one line.
-/
namespace HoconRender.Text

section Joined

variable {separator part : Text} {parts : List Text} {c : Nat}

theorem mem_join (member : part ∈ parts) (inside : c ∈ part) : c ∈ join separator parts := by
  induction parts with
  | nil => cases member
  | cons first rest ih =>
    cases rest with
    | nil =>
      rw [List.mem_singleton.mp member] at inside
      exact inside
    | cons next others =>
      rw [join]
      rcases List.mem_cons.mp member with rfl | later
      · exact List.mem_append_left _ (List.mem_append_left _ inside)
      · exact List.mem_append_right _ (ih later)

theorem join_fresh (nonempty : parts ≠ []) :
    join separator ([] :: parts) = separator ++ join separator parts := by
  cases parts with
  | nil => exact absurd rfl nonempty
  | cons next others => rfl

theorem join_grown (c : Nat) (part : Text) (more : List Text) :
    join separator ((c :: part) :: more) = c :: join separator (part :: more) := by
  cases more <;> rfl

theorem portable_join (between : Portable separator) (each : ∀ part ∈ parts, Portable part) :
    Portable (join separator parts) := by
  induction parts with
  | nil => exact List.forall_mem_nil _
  | cons first rest ih =>
    obtain ⟨front, behind⟩ := List.forall_mem_cons.mp each
    cases rest with
    | nil => exact front
    | cons next others =>
      rw [join]
      exact portable_append (portable_append front between) (ih behind)

end Joined

section Split

variable {mark : Nat}

theorem splitAt_ne_nil (mark : Nat) (t : Text) : splitAt mark t ≠ [] := by
  fun_induction splitAt mark t <;> simp

theorem join_splitAt (mark : Nat) (t : Text) : join [mark] (splitAt mark t) = t := by
  fun_induction splitAt mark t with
  | case1 => rfl
  | case2 rest ih => rw [join_fresh (splitAt_ne_nil mark rest), ih, List.singleton_append]
  | case3 c rest other nothing ih => exact absurd nothing (splitAt_ne_nil mark rest)
  | case4 c rest other part more parts ih => rw [join_grown, ← parts, ih]

theorem mem_of_mem_splitAt {t part : Text} {c : Nat} (member : part ∈ splitAt mark t)
    (inside : c ∈ part) : c ∈ t := by
  rw [← join_splitAt mark t]
  exact mem_join member inside

theorem splitAt_marked {t : Text} (clean : mark ∉ t) (rest : Text) :
    splitAt mark (t ++ mark :: rest) = t :: splitAt mark rest := by
  induction t with
  | nil => simp [splitAt]
  | cons c t ih =>
    obtain ⟨other, later⟩ := List.ne_and_not_mem_of_not_mem_cons clean
    rw [List.cons_append, splitAt, if_neg (Ne.symm other), ih later]

end Split

theorem newline_not_hexadecimal (width n : Nat) : newline ∉ hexadecimal width n := by
  induction width generalizing n with
  | zero => exact List.not_mem_nil
  | succ width ih =>
    have digit : newline ≠ hexDigit (n % 16) := by
      unfold newline hexDigit
      split <;> omega
    simp [hexadecimal, ih, digit]

theorem newline_not_numbered (c : Nat) : newline ∉ numbered c := by
  have plain (start : Text) (width : Nat) (clean : newline ∉ start) :
      newline ∉ start ++ hexadecimal width c := by
    simp [clean, newline_not_hexadecimal]
  unfold numbered
  split
  · exact plain _ _ (by decide)
  · split
    · exact plain _ _ (by decide)
    · exact plain _ _ (by decide)

theorem newline_not_quotedPoint {quote : Nat} (visible : quote ≠ newline) (c : Nat) :
    newline ∉ quotedPoint quote c := by
  unfold quotedPoint
  split
  · rename_i marked
    rcases marked with rfl | rfl
    · have other : newline ≠ backslash := by decide
      simp [Ne.symm visible, other]
    · decide
  split
  · decide
  split
  · decide
  split
  · decide
  split
  · rename_i other _ _ _
    exact fun same => other (List.mem_singleton.mp same).symm
  · exact newline_not_numbered c

/-- Quoted, every text is one line. -/
theorem newline_not_quoted (t : Text) : newline ∉ t.quoted := by
  have visible : t.quoteFor ≠ newline := by
    unfold quoteFor
    split <;> decide
  simp [quoted, Ne.symm visible, newline_not_quotedPoint visible]

end HoconRender.Text
