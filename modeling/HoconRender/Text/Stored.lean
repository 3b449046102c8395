import HoconRender.Text.Utf8

/-
Texts that the system keeps as bytes: names of files, and names and values of variables. A byte
that is no part of UTF-8 stands as a low surrogate from U+DC80 to U+DCFF. Where such surrogates
spell UTF-8 together, the text comes back with the character that they spell.
-/
namespace HoconRender.Text

def isRawByte (c : Nat) : Bool := 0xDC80 ≤ c && c < 0xDD00

def storedPoint (c : Nat) : List Nat := if isRawByte c then [c - 0xDC00] else encodePoint c

def storedBytes (t : Text) : List Nat := t.flatMap storedPoint

/-- The length of the sequence that a first byte and those behind it start with, if it is well
formed. -/
def wellFormedLength? (first : Nat) (rest : List Nat) : Option Nat :=
  match sequenceLength? first with
  | some length => if continued first (length - 1) rest = length - 1 then some length else none
  | none => none

def ofStored : List Nat → Text
  | [] => []
  | first :: rest =>
    match wellFormedLength? first rest with
    | some length =>
      sequenceValue length first (rest.take (length - 1)) :: ofStored (rest.drop (length - 1))
    | none => (0xDC00 + first) :: ofStored rest
termination_by bytes => bytes.length
decreasing_by
  · simp only [List.length_drop, List.length_cons]; omega
  · simp only [List.length_cons]; omega

def stored (t : Text) : Text := ofStored (storedBytes t)

theorem storedBytes_ascii (t : Text) (ascii : ∀ c ∈ t, c < 0x80) : storedBytes t = t := by
  induction t with
  | nil => rfl
  | cons c rest ih =>
    have low : c < 0x80 := ascii c (by simp)
    have tail : storedBytes rest = rest := ih fun d member => ascii d (by simp [member])
    have notRaw : isRawByte c = false := by simp [isRawByte]; omega
    simp only [storedBytes, List.flatMap_cons] at tail ⊢
    simp [tail, storedPoint, notRaw, encodePoint, low]

theorem ofStored_ascii (t : Text) (ascii : ∀ c ∈ t, c < 0x80) : ofStored t = t := by
  induction t with
  | nil => simp [ofStored]
  | cons c rest ih =>
    have low : c < 0x80 := ascii c (by simp)
    have one : wellFormedLength? c rest = some 1 := by
      simp [wellFormedLength?, sequenceLength?, low, continued]
    rw [ofStored, one]
    simp [sequenceValue, ih fun d member => ascii d (by simp [member])]

theorem stored_ascii (t : Text) (ascii : ∀ c ∈ t, c < 0x80) : stored t = t := by
  rw [stored, storedBytes_ascii t ascii, ofStored_ascii t ascii]

end HoconRender.Text
