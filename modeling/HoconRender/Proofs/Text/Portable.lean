import HoconRender.Text.Utf8

/-
Texts that a file gives back as they were written: ASCII without carriage returns, which would end
lines.
-/
namespace HoconRender.Text

def isPortable (c : Nat) : Bool := c < 0x80 && c != 0x0D

def Portable (t : Text) : Prop := ∀ c ∈ t, isPortable c = true

instance decidablePortable (t : Text) : Decidable t.Portable :=
  inferInstanceAs (Decidable (∀ c ∈ t, isPortable c = true))

theorem portable_append {first second : Text} (left : Portable first) (right : Portable second) :
    Portable (first ++ second) := by
  intro c member
  rcases List.mem_append.mp member with before | behind
  · exact left c before
  · exact right c behind

theorem isPortable_iff (c : Nat) : isPortable c = true ↔ c < 0x80 ∧ c ≠ 0x0D := by
  simp [isPortable]

theorem encodeUtf8_portable {t : Text} (portable : Portable t) : encodeUtf8 t = t := by
  induction t with
  | nil => rfl
  | cons c rest ih =>
    obtain ⟨first, others⟩ := List.forall_mem_cons.mp portable
    have tail := ih others
    unfold encodeUtf8 at tail ⊢
    simp [encodePoint, ((isPortable_iff c).mp first).1, tail]

theorem decodeFrom_portable {t : Text} (portable : Portable t) (offset : Nat) :
    decodeFrom offset t = .ok t := by
  induction t generalizing offset with
  | nil => simp [decodeFrom]
  | cons c rest ih =>
    obtain ⟨first, others⟩ := List.forall_mem_cons.mp portable
    have single : sequenceLength? c = some 1 := by
      simp [sequenceLength?, ((isPortable_iff c).mp first).1]
    rw [decodeFrom, single]
    simp only [Nat.sub_self, continued, ↓reduceIte, List.take_zero, List.drop_zero, ih others]
    rfl

theorem unixLines_portable {t : Text} (portable : Portable t) : unixLines t = t := by
  induction t with
  | nil => rfl
  | cons c rest ih =>
    obtain ⟨first, others⟩ := List.forall_mem_cons.mp portable
    have noReturn := ((isPortable_iff c).mp first).2
    rw [unixLines]
    · simp [noReturn, ih others]
    · intro more same
      simp [noReturn] at same

end HoconRender.Text
