import HoconRender.Text.LowerCase

/-
Capitals of ASCII letters. None of them is left in lower case, so a text that was put in lower case
before stays as it is if its lower case is ASCII.
-/
namespace HoconRender.Text

/-- The capitals whose lower case is ASCII; the Kelvin sign is the capital of a small k too. -/
def IsAsciiCapital (c : Nat) : Prop := (0x41 ≤ c ∧ c ≤ 0x5A) ∨ c = 0x212A

theorem lowerIn_cases (c : Nat) (runs : List (Nat × Nat × Nat × Nat)) :
    lowerIn c runs = c ∨ ∃ run ∈ runs, run.1 ≤ c ∧ c ≤ run.2.1 ∧
      lowerIn c runs = run.2.2.2 + (c - run.1) := by
  induction runs with
  | nil => exact Or.inl rfl
  | cons run rest ih =>
    obtain ⟨first, last, step, lower⟩ := run
    unfold lowerIn
    split
    · exact Or.inl rfl
    split
    · rename_i notBefore inside
      simp only [Bool.and_eq_true, decide_eq_true_eq] at inside
      exact Or.inr ⟨_, List.mem_cons_self, by simpa using notBefore, inside.1, rfl⟩
    · refine ih.imp_right fun ⟨found, member, within⟩ => ?_
      exact ⟨found, List.mem_cons_of_mem _ member, within⟩

theorem capitalRuns_lower : ∀ run ∈ capitalRuns, 0x5A < run.2.2.2 ∧
    (run.2.2.2 + (run.2.1 - run.1) < 0x212A ∨ 0x212A < run.2.2.2) ∧
    (run.2.2.2 < 0x80 → run.1 = 0x212A ∧ run.2.1 = 0x212A) := by
  decide +kernel

theorem kelvin_lower : lowerIn 0x212A capitalRuns = 0x6B := by decide

theorem lowerPoint_uncapital {c d : Nat} (member : d ∈ lowerPoint c) : ¬ IsAsciiCapital d := by
  unfold IsAsciiCapital
  unfold lowerPoint at member
  split at member
  · rw [List.mem_singleton.mp member]
    split
    · rename_i capital
      simp only [Bool.and_eq_true, decide_eq_true_eq] at capital
      omega
    · rename_i small
      simp only [Bool.and_eq_true, decide_eq_true_eq] at small
      omega
  split at member
  · simp only [List.mem_cons, List.not_mem_nil, or_false] at member
    omega
  · rw [List.mem_singleton.mp member]
    by_cases kelvin : c = 0x212A
    · rw [kelvin, kelvin_lower]
      omega
    rcases lowerIn_cases c capitalRuns with same | ⟨run, inside, _, _, lowered⟩
    · rw [same]
      omega
    · have bounds := capitalRuns_lower run inside
      omega

theorem lowerBehind_uncapital (t : Text) (before : Bool) :
    ∀ c ∈ lowerBehind before t, ¬ IsAsciiCapital c := by
  induction t generalizing before with
  | nil => simp [lowerBehind]
  | cons c rest ih =>
    intro d member
    unfold lowerBehind at member
    rcases List.mem_append.mp member with here | behind
    · split at here
      · rw [List.mem_singleton.mp here]
        unfold IsAsciiCapital finalSigma
        omega
      · exact lowerPoint_uncapital here
    · exact ih _ d behind

theorem lower_uncapital (t : Text) : ∀ c ∈ lower t, ¬ IsAsciiCapital c :=
  lowerBehind_uncapital t false

theorem lowerPoint_settled {c : Nat} (uncapital : ¬ IsAsciiCapital c)
    (ascii : ∀ d ∈ lowerPoint c, d < 0x80) : lowerPoint c = [c] := by
  unfold IsAsciiCapital at uncapital
  unfold lowerPoint at ascii ⊢
  split
  · rw [if_neg]
    simp only [Bool.and_eq_true, decide_eq_true_eq]
    omega
  rename_i wide
  rw [if_neg wide] at ascii
  split
  · rename_i dotted
    rw [if_pos dotted] at ascii
    exact absurd (ascii 0x307 (by simp)) (by omega)
  · rename_i undotted
    rw [if_neg undotted] at ascii
    have small := ascii _ List.mem_cons_self
    rcases lowerIn_cases c capitalRuns with same | ⟨run, inside, start, stop, lowered⟩
    · rw [same]
    · have bounds := capitalRuns_lower run inside
      omega

theorem lowerBehind_settled {t : Text} (uncapital : ∀ c ∈ t, ¬ IsAsciiCapital c) {before : Bool}
    (ascii : ∀ c ∈ lowerBehind before t, c < 0x80) : lowerBehind before t = t := by
  induction t generalizing before with
  | nil => rfl
  | cons c rest ih =>
    obtain ⟨first, others⟩ := List.forall_mem_cons.mp uncapital
    unfold lowerBehind at ascii ⊢
    simp only [List.mem_append, or_imp, forall_and] at ascii
    obtain ⟨here, behind⟩ := ascii
    rw [ih others behind]
    split
    · rename_i sigma
      rw [if_pos sigma] at here
      exact absurd (here finalSigma (by simp)) (by decide)
    · rename_i other
      rw [if_neg other] at here
      rw [lowerPoint_settled first here]
      rfl

theorem lower_settled {t : Text} (uncapital : ∀ c ∈ t, ¬ IsAsciiCapital c)
    (ascii : ∀ c ∈ lower t, c < 0x80) : lower t = t :=
  lowerBehind_settled uncapital ascii

end HoconRender.Text
