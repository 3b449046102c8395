/-
When a computation that may fail succeeds or fails, told from its parts.
-/
namespace HoconRender.Outcome

variable {ε δ α β : Type}

instance decidableEq [DecidableEq ε] [DecidableEq α] : DecidableEq (Except ε α)
  | .ok a, .ok b => decidable_of_iff (a = b) (by simp)
  | .error e, .error f => decidable_of_iff (e = f) (by simp)
  | .ok _, .error _ => isFalse (by simp)
  | .error _, .ok _ => isFalse (by simp)

theorem map_ok_iff {first : Except ε α} {f : α → β} {b : β} :
    first.map f = .ok b ↔ ∃ a, first = .ok a ∧ f a = b := by
  cases first with
  | ok a => simp [Except.map]
  | error e => simp [Except.map]

theorem bind_ok_iff {first : Except ε α} {next : α → Except ε β} {b : β} :
    first >>= next = .ok b ↔ ∃ a, first = .ok a ∧ next a = .ok b := by
  cases first with
  | ok a =>
    change next a = .ok b ↔ _
    simp
  | error e =>
    change Except.error e = .ok b ↔ _
    simp

theorem mapError_ok_iff {first : Except ε α} {f : ε → δ} {a : α} :
    first.mapError f = .ok a ↔ first = .ok a := by
  cases first with
  | ok b =>
    change Except.ok b = .ok a ↔ _
    simp
  | error e =>
    change Except.error (f e) = .ok a ↔ _
    simp

theorem mapError_error_iff {first : Except ε α} {f : ε → δ} {d : δ} :
    first.mapError f = .error d ↔ ∃ e, first = .error e ∧ f e = d := by
  cases first with
  | ok a =>
    change Except.ok a = .error d ↔ _
    simp
  | error e =>
    change Except.error (f e) = .error d ↔ _
    simp

end HoconRender.Outcome
