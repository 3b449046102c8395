import HoconRender.Number.Binary64
import Mathlib.Tactic.Ring
import Mathlib.Tactic.Linarith

/-
Floating point numbers in the one form in which they are stored. Each is a whole multiple of the
least one above zero, and no two forms but those of the zeros stand for the same multiple. Every
number that comes out of rounding is in that form.
-/
namespace HoconRender.Binary64

def Canonical : Binary64 → Prop
  | .finite _ m e => m < twoTo 53 ∧ leastExponent ≤ e ∧ (e = leastExponent ∨ twoTo 52 ≤ m)
  | _ => True

instance : DecidablePred Canonical := fun
  | .finite _ _ _ => inferInstanceAs (Decidable (_ ∧ _ ∧ (_ ∨ _)))
  | .infinity _ => inferInstanceAs (Decidable True)
  | .nan => inferInstanceAs (Decidable True)

section Powers

variable {a b c d : Int}

theorem twoTo_pos (a : Int) : 0 < twoTo a := Nat.pow_pos Nat.two_pos

theorem twoTo_mono (le : a ≤ b) : twoTo a ≤ twoTo b :=
  Nat.pow_le_pow_right Nat.two_pos (Int.toNat_le_toNat le)

theorem twoTo_mul_eq (sums : a.toNat + b.toNat = c.toNat + d.toNat) :
    twoTo a * twoTo b = twoTo c * twoTo d := by
  change 2 ^ a.toNat * 2 ^ b.toNat = 2 ^ c.toNat * 2 ^ d.toNat
  rw [← Nat.pow_add, ← Nat.pow_add, sums]

end Powers

section Units

variable {m n : Nat} {e f : Int}

def signed (negative : Bool) (magnitude : Nat) : Int :=
  if negative then -(magnitude : Int) else magnitude

theorem signed_eq_iff (negative : Bool) (magnitude : Nat) (i : Int) :
    signed negative magnitude = i ↔ (magnitude : Int) = if negative then -i else i := by
  cases negative <;> simp [signed, neg_eq_iff_eq_neg]

theorem natAbs_signed (negative : Bool) (magnitude : Nat) :
    (signed negative magnitude).natAbs = magnitude := by
  cases negative <;> simp [signed]

theorem signed_sign {s t : Bool} {magnitude : Nat} (positive : 0 < magnitude)
    (same : signed s magnitude = signed t magnitude) : s = t := by
  cases s <;> cases t <;> simp [signed] at same ⊢ <;> omega

/-- How many times the least number above zero makes `m * 2 ^ e`. -/
def units (m : Nat) (e : Int) : Nat := m * twoTo (e - leastExponent)

/-- The number one in units. It is too large to be worked out along with other terms. -/
@[irreducible] def unitsOfOne : Nat := twoTo (-leastExponent)

theorem unitsOfOne_pos : 0 < unitsOfOne := by
  unfold unitsOfOne
  exact twoTo_pos _

theorem units_zero (e : Int) : units 0 e = 0 := Nat.zero_mul _

theorem units_pos (positive : 0 < m) (e : Int) : 0 < units m e := Nat.mul_pos positive (twoTo_pos _)

theorem exponent_not_below (fewBits : m < twoTo 53) (least : leastExponent ≤ e)
    (allBits : f = leastExponent ∨ twoTo 52 ≤ n) (same : units m e = units n f) : ¬ e < f := by
  intro below
  have top : twoTo 52 ≤ n := allBits.resolve_left (by omega)
  have step : twoTo (f - leastExponent) = twoTo (f - e) * twoTo (e - leastExponent) := by
    have zero : twoTo 0 = 1 := rfl
    have sums : (f - leastExponent).toNat + (0 : Int).toNat =
        (f - e).toNat + (e - leastExponent).toNat := by omega
    rw [← twoTo_mul_eq sums, zero, Nat.mul_one]
  have whole : m = n * twoTo (f - e) := by
    have scaled : m * twoTo (e - leastExponent) =
        n * twoTo (f - e) * twoTo (e - leastExponent) := by
      rw [Nat.mul_assoc, ← step]
      exact same
    exact Nat.eq_of_mul_eq_mul_right (twoTo_pos _) scaled
  have doubled : twoTo 1 ≤ twoTo (f - e) := twoTo_mono (by omega)
  have large : twoTo 52 * twoTo 1 ≤ m := whole ▸ Nat.mul_le_mul top doubled
  have bits : twoTo 52 * twoTo 1 = twoTo 53 := rfl
  omega

theorem units_injective {s t : Bool} (first : Canonical (.finite s m e))
    (second : Canonical (.finite t n f)) (same : units m e = units n f) : m = n ∧ e = f := by
  have notBelow := exponent_not_below first.1 first.2.1 second.2.2 same
  have notAbove := exponent_not_below second.1 second.2.1 first.2.2 same.symm
  have exponents : e = f := by omega
  subst f
  exact ⟨Nat.eq_of_mul_eq_mul_right (twoTo_pos _) same, rfl⟩

theorem whole_iff (least : leastExponent ≤ e) (k : Nat) :
    (m % twoTo (-e) = 0 ∧ m / twoTo (-e) * twoTo e = k) ↔ units m e = k * unitsOfOne := by
  have balance : twoTo (e - leastExponent) * twoTo (-e) = unitsOfOne * twoTo e := by
    unfold unitsOfOne
    apply twoTo_mul_eq
    unfold leastExponent at least ⊢
    omega
  have place : 0 < twoTo (-e) := twoTo_pos _
  constructor
  · rintro ⟨divides, rfl⟩
    obtain ⟨q, rfl⟩ := Nat.dvd_of_mod_eq_zero divides
    rw [Nat.mul_div_cancel_left q place]
    calc units (twoTo (-e) * q) e = q * (twoTo (e - leastExponent) * twoTo (-e)) := by
          unfold units; ring
      _ = q * (unitsOfOne * twoTo e) := by rw [balance]
      _ = q * twoTo e * unitsOfOne := by ring
  · intro same
    have scaled : m * twoTo e = k * twoTo (-e) := by
      apply Nat.eq_of_mul_eq_mul_right unitsOfOne_pos
      calc m * twoTo e * unitsOfOne = m * (unitsOfOne * twoTo e) := by ring
        _ = units m e * twoTo (-e) := by rw [← balance]; unfold units; ring
        _ = k * twoTo (-e) * unitsOfOne := by rw [same]; ring
    -- One of the two powers is one: a number is shifted either up or down.
    by_cases up : 0 ≤ e
    · have none : twoTo (-e) = 1 := by simp [twoTo, up]
      rw [none] at scaled ⊢
      simp [Nat.mod_one, scaled]
    · have none : twoTo e = 1 := by simp [twoTo, Int.toNat_of_nonpos (by omega : e ≤ 0)]
      rw [none, Nat.mul_one] at scaled
      simp [scaled, none, Nat.mul_div_cancel k place]

end Units

inductive Amount where
  | units (count : Int)
  | infinity (negative : Bool)
  | nan

def amount : Binary64 → Amount
  | .finite negative m e => .units (signed negative (units m e))
  | .infinity negative => .infinity negative
  | .nan => .nan

section Amount

variable {x y : Binary64}

theorem toInt?_eq_some_iff (canonical : x.Canonical) (i : Int) :
    x.toInt? = some i ↔ x.amount = .units (i * unitsOfOne) := by
  cases x with
  | infinity negative => simp [toInt?, amount]
  | nan => simp [toInt?, amount]
  | finite negative m e =>
    have read : (finite negative m e).toInt? = some i ↔
        m % twoTo (-e) = 0 ∧ signed negative (m / twoTo (-e) * twoTo e) = i := by
      simp [toInt?, signed]
    have counted : (finite negative m e).amount = .units (i * unitsOfOne) ↔
        signed negative (units m e) = i * unitsOfOne := by simp [amount]
    have moved : (if negative then -(i * unitsOfOne) else i * unitsOfOne) =
        (if negative then -i else i) * (unitsOfOne : Int) := by
      cases negative <;> simp
    rw [read, counted, signed_eq_iff, signed_eq_iff, moved]
    generalize (if negative then -i else i) = j
    have one : (0 : Int) < unitsOfOne := by exact_mod_cast unitsOfOne_pos
    by_cases natural : 0 ≤ j
    · obtain ⟨k, rfl⟩ := Int.eq_ofNat_of_zero_le natural
      rw [← Int.natCast_mul, Int.natCast_inj, Int.natCast_inj]
      exact whole_iff canonical.2.1 k
    · have below : j * unitsOfOne < 0 := Int.mul_neg_of_neg_of_pos (not_le.mp natural) one
      constructor
      · rintro ⟨_, same⟩
        exact absurd (same ▸ Int.natCast_nonneg _) natural
      · intro same
        exact absurd (same ▸ Int.natCast_nonneg _) (not_le.mpr below)

/-- Not-a-number is one with itself here, and the two zeros are one number. -/
theorem same_amount_iff (first : x.Canonical) (second : y.Canonical) :
    (x == y || x.numericEq y) = true ↔ x.amount = y.amount := by
  cases x with
  | infinity s => cases y <;> simp [numericEq, amount]
  | nan => cases y <;> simp [numericEq, amount]
  | finite s m e =>
    cases y with
    | infinity t => simp [numericEq, amount]
    | nan => simp [numericEq, amount]
    | finite t n f =>
      simp only [numericEq, amount, Bool.or_eq_true, beq_iff_eq, Bool.and_eq_true, finite.injEq,
        Amount.units.injEq]
      constructor
      · rintro (⟨rfl, rfl, rfl⟩ | ⟨rfl, rfl⟩ | ⟨⟨rfl, rfl⟩, rfl⟩)
        · rfl
        · simp [units_zero, signed]
        · rfl
      · intro same
        have magnitudes : units m e = units n f := by
          have absolute := congrArg Int.natAbs same
          simpa [natAbs_signed] using absolute
        obtain ⟨rfl, rfl⟩ := units_injective first second magnitudes
        by_cases zero : m = 0
        · exact Or.inr (Or.inl ⟨zero, zero⟩)
        · have positive := units_pos (Nat.pos_of_ne_zero zero) e
          exact Or.inl ⟨signed_sign positive same, rfl, rfl⟩

end Amount

section Rounding

variable {num den bound : Nat} {e f : Int}

theorem le_roundHalfEven (positive : 0 < den) (enough : bound * den ≤ num) :
    bound ≤ roundHalfEven num den := by
  have whole : bound ≤ num / den := (Nat.le_div_iff_mul_le positive).mpr enough
  unfold roundHalfEven
  dsimp only
  split_ifs <;> omega

theorem roundHalfEven_le (positive : 0 < den) (below : num < bound * den) :
    roundHalfEven num den ≤ bound := by
  have whole : num / den < bound := (Nat.div_lt_iff_lt_mul positive).mpr below
  unfold roundHalfEven
  dsimp only
  split_ifs <;> omega

theorem scaled_lowered (num den : Nat) (e : Int) :
    (num * twoTo (-(e - 1)) = 2 * (num * twoTo (-e)) ∧ den * twoTo (e - 1) = den * twoTo e) ∨
    (num * twoTo (-(e - 1)) = num * twoTo (-e) ∧ den * twoTo e = 2 * (den * twoTo (e - 1))) := by
  have one : twoTo 1 = 2 := rfl
  have none : twoTo 0 = 1 := rfl
  by_cases up : 1 ≤ e
  · right
    have up' : twoTo e = 2 * twoTo (e - 1) := by
      have sums : e.toNat + (0 : Int).toNat = (1 : Int).toNat + (e - 1).toNat := by omega
      have powers := twoTo_mul_eq sums
      rwa [none, one, Nat.mul_one] at powers
    have down : twoTo (-(e - 1)) = twoTo (-e) := congrArg (2 ^ ·) (by omega)
    exact ⟨by rw [down], by rw [up']; ring⟩
  · left
    have down : twoTo (-(e - 1)) = 2 * twoTo (-e) := by
      have sums : (-(e - 1)).toNat + (0 : Int).toNat = (1 : Int).toNat + (-e).toNat := by omega
      have powers := twoTo_mul_eq sums
      rwa [none, one, Nat.mul_one] at powers
    have up' : twoTo (e - 1) = twoTo e := congrArg (2 ^ ·) (by omega)
    exact ⟨by rw [down]; ring, by rw [up']⟩

theorem logs_bound (nonzero : num ≠ 0) (positive : den ≠ 0)
    (logs : e = (Nat.log2 num : Int) - Nat.log2 den - 52) :
    twoTo 52 * (den * twoTo e) < 2 * (num * twoTo (-e)) ∧
      num * twoTo (-e) < twoTo 53 * (den * twoTo e) := by
  have numLow := Nat.log2_self_le nonzero
  have numHigh := @Nat.lt_log2_self num
  have denLow := Nat.log2_self_le positive
  have denHigh := @Nat.lt_log2_self den
  have sums : Nat.log2 num + (-e).toNat = Nat.log2 den + 52 + e.toNat := by omega
  have upper : 0 < 2 ^ e.toNat := Nat.two_pow_pos _
  have lower : 0 < 2 ^ (-e).toNat := Nat.two_pow_pos _
  constructor
  · calc twoTo 52 * (den * twoTo e) = den * (2 ^ 52 * 2 ^ e.toNat) := by
          change 2 ^ 52 * (den * 2 ^ e.toNat) = _; ring
      _ < 2 ^ (Nat.log2 den + 1) * (2 ^ 52 * 2 ^ e.toNat) :=
          Nat.mul_lt_mul_of_pos_right denHigh (by positivity)
      _ = 2 * 2 ^ (Nat.log2 den + 52 + e.toNat) := by ring
      _ = 2 * (2 ^ Nat.log2 num * 2 ^ (-e).toNat) := by rw [← sums, Nat.pow_add]
      _ ≤ 2 * (num * twoTo (-e)) := Nat.mul_le_mul_left 2 (Nat.mul_le_mul_right _ numLow)
  · calc num * twoTo (-e) < 2 ^ (Nat.log2 num + 1) * 2 ^ (-e).toNat :=
          Nat.mul_lt_mul_of_pos_right numHigh lower
      _ = 2 * 2 ^ (Nat.log2 num + (-e).toNat) := by ring
      _ = 2 ^ 53 * (2 ^ Nat.log2 den * 2 ^ e.toNat) := by rw [sums]; ring
      _ ≤ twoTo 53 * (den * twoTo e) :=
          Nat.mul_le_mul_left _ (Nat.mul_le_mul_right _ denLow)

/-- At its exponent a quotient has exactly 53 bits before the point. -/
theorem exponentFor_bounds (nonzero : num ≠ 0) (positive : den ≠ 0)
    (exponent : e = exponentFor num den) :
    twoTo 52 * (den * twoTo e) ≤ num * twoTo (-e) ∧
      num * twoTo (-e) < twoTo 53 * (den * twoTo e) := by
  obtain ⟨low, high⟩ := logs_bound nonzero positive rfl
  have bits : twoTo 53 = 2 * twoTo 52 := rfl
  unfold exponentFor at exponent
  dsimp only at exponent
  split_ifs at exponent with short
  · subst exponent
    rcases scaled_lowered num den (Nat.log2 num - Nat.log2 den - 52) with ⟨up, same⟩ | ⟨same, up⟩
    · rw [up, same, bits]
      constructor
      · exact low.le
      · rw [Nat.mul_assoc]
        exact Nat.mul_lt_mul_of_pos_left short Nat.two_pos
    · rw [up, Nat.mul_left_comm] at low short
      rw [same, bits, Nat.mul_assoc]
      omega
  · subst exponent
    exact ⟨Nat.le_of_not_lt short, high⟩

theorem scaled_antitone (le : e ≤ f) (high : num * twoTo (-e) < bound * (den * twoTo e)) :
    num * twoTo (-f) < bound * (den * twoTo f) :=
  calc num * twoTo (-f) ≤ num * twoTo (-e) := Nat.mul_le_mul_left _ (twoTo_mono (by omega))
    _ < bound * (den * twoTo e) := high
    _ ≤ bound * (den * twoTo f) :=
      Nat.mul_le_mul_left _ (Nat.mul_le_mul_left _ (twoTo_mono le))

theorem zero_canonical (negative : Bool) : (zero negative).Canonical :=
  ⟨twoTo_pos 53, Int.le_refl _, Or.inl rfl⟩

theorem ofQuotient_canonical (negative : Bool) (positive : den ≠ 0) :
    (ofQuotient negative num den).Canonical := by
  unfold ofQuotient
  split_ifs with nothing
  · exact zero_canonical negative
  · generalize chosen : max (exponentFor num den) leastExponent = e
    obtain ⟨low, high⟩ := exponentFor_bounds nothing positive rfl
    have least : leastExponent ≤ e := chosen ▸ le_max_right ..
    have scale : 0 < den * twoTo e := Nat.mul_pos (Nat.pos_of_ne_zero positive) (twoTo_pos e)
    have few := roundHalfEven_le scale (scaled_antitone (chosen ▸ le_max_left ..) high)
    have many : e = leastExponent ∨
        twoTo 52 ≤ roundHalfEven (num * twoTo (-e)) (den * twoTo e) := by
      rcases max_choice (exponentFor num den) leastExponent with own | raised
      · have exponent : e = exponentFor num den := chosen ▸ own
        subst exponent
        exact Or.inr (le_roundHalfEven scale low)
      · exact Or.inl (chosen ▸ raised)
    dsimp only
    split_ifs with carried tooLarge tooLarge
    · trivial
    · have room : twoTo 52 < twoTo 53 := by decide
      exact ⟨room, by omega, Or.inr (Nat.le_refl _)⟩
    · trivial
    · exact ⟨lt_of_le_of_ne few carried, least, many⟩

theorem tenTo_ne_zero (e : Int) : tenTo e ≠ 0 := (Nat.pow_pos (by omega)).ne'

theorem ofDecimal_canonical (negative : Bool) (digits : Nat) (exponent : Int) :
    (ofDecimal negative digits exponent).Canonical := by
  unfold ofDecimal
  dsimp only
  split_ifs
  · exact zero_canonical negative
  · trivial
  · exact zero_canonical negative
  · exact ofQuotient_canonical negative (tenTo_ne_zero _)

end Rounding

end HoconRender.Binary64
