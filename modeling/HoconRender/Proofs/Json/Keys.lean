import HoconRender.Json.Key
import HoconRender.Json.Reader
import HoconRender.Proofs.Number.Canonical
import HoconRender.Proofs.Outcome

/-
Keys of mappings by what they stand for. Two keys are one key exactly if they are the same amount,
or the same thing that is no number, so being one key is an equivalence. The numbers among keys
that are read are in stored form.
-/
namespace HoconRender

theorem Binary64.numericEq_comm (x y : Binary64) : x.numericEq y = y.numericEq x := by
  cases x <;> cases y <;> simp [numericEq, Bool.and_comm, BEq.comm]

namespace Key

open Binary64

theorem same_self (key : Key) : key.same key = true := by
  cases key <;> simp [same, number?, sameNumber]

theorem sameNumber_comm (m n : Number) : sameNumber m n = sameNumber n m := by
  cases m with
  | int i =>
    cases n with
    | int j => exact BEq.comm
    | float y => rfl
  | float x =>
    cases n with
    | int j => rfl
    | float y =>
      change (x == y || x.numericEq y) = (y == x || y.numericEq x)
      rw [Binary64.numericEq_comm, BEq.comm]

theorem same_comm (a b : Key) : a.same b = b.same a := by
  unfold same
  cases a.number? with
  | none =>
    cases b.number? with
    | none => exact BEq.comm
    | some n => rfl
  | some m =>
    cases b.number? with
    | none => rfl
    | some n => exact sameNumber_comm m n

def Canonical : Key → Prop
  | .float x => x.Canonical
  | _ => True

instance : DecidablePred Canonical := fun
  | .float x => inferInstanceAs (Decidable x.Canonical)
  | .null | .bool _ | .int _ | .text _ | .flag _ | .other _ => inferInstanceAs (Decidable True)

section Worth

def Number.Canonical : Number → Prop
  | .int _ => True
  | .float x => x.Canonical

def Number.amount : Number → Amount
  | .int i => .units (i * unitsOfOne)
  | .float x => x.amount

/-- What a key stands for. Truth values and numbers of both kinds stand for amounts. -/
def worth (key : Key) : Key ⊕ Amount :=
  match key.number? with
  | some n => .inr n.amount
  | none => .inl key.bare

theorem Canonical.number {key : Key} (canonical : key.Canonical) {n : Number}
    (found : key.number? = some n) : n.Canonical := by
  cases key with
  | null => cases found
  | text t => cases found
  | flag f => cases found
  | other value => cases found
  | bool b => cases found; trivial
  | int i => cases found; trivial
  | float x => cases found; exact canonical

theorem sameNumber_iff {m n : Number} (first : m.Canonical) (second : n.Canonical) :
    sameNumber m n = true ↔ m.amount = n.amount := by
  cases m with
  | int i =>
    cases n with
    | int j => simp [sameNumber, Number.amount, unitsOfOne_pos.ne']
    | float y =>
      unfold sameNumber
      rw [beq_iff_eq, toInt?_eq_some_iff second, eq_comm]
      rfl
  | float x =>
    cases n with
    | int j =>
      unfold sameNumber
      rw [beq_iff_eq, toInt?_eq_some_iff first]
      rfl
    | float y => exact same_amount_iff first second

variable {a b c : Key}

theorem same_iff (first : a.Canonical) (second : b.Canonical) :
    a.same b = true ↔ a.worth = b.worth := by
  unfold same worth
  cases left : a.number? with
  | none =>
    cases right : b.number? with
    | none => simp
    | some n => simp
  | some m =>
    cases right : b.number? with
    | none => simp
    | some n => simpa using sameNumber_iff (first.number left) (second.number right)

theorem same_trans (first : a.Canonical) (second : b.Canonical) (third : c.Canonical)
    (near : a.same b = true) (far : b.same c = true) : a.same c = true := by
  rw [same_iff first second] at near
  rw [same_iff second third] at far
  exact (same_iff first third).mpr (near.trans far)

end Worth

section Read

variable {here next : Json.Cursor} {x : Binary64}

theorem constants_canonical {name : Text} (member : (name, Json.float x) ∈ Json.constants) :
    x.Canonical := by
  simp only [Json.constants, List.mem_cons, Prod.mk.injEq, reduceCtorEq, and_false, false_or,
    Json.float.injEq, List.not_mem_nil, or_false] at member
  rcases member with ⟨_, rfl⟩ | ⟨_, rfl⟩ | ⟨_, rfl⟩ <;> trivial

theorem readMagnitude_canonical {negative : Bool} {start : Nat}
    (read : Json.readMagnitude negative start here = .ok (.float x, next)) : x.Canonical := by
  unfold Json.readMagnitude at read
  repeat' split at read
  all_goals cases read
  all_goals exact ofDecimal_canonical ..

theorem readScalar_canonical (read : Json.readScalar here = .ok (.float x, next)) :
    x.Canonical := by
  unfold Json.readScalar at read
  split at read
  · rename_i constant
    cases read
    obtain ⟨⟨name, value⟩, member, made⟩ := List.exists_of_findSome?_eq_some constant
    obtain ⟨rest, _, same⟩ := Option.map_eq_some_iff.mp made
    cases same
    exact constants_canonical member
  · split at read
    · obtain ⟨text, _, same⟩ := Outcome.map_ok_iff.mp read
      cases same
    · exact readMagnitude_canonical read
    · exact readMagnitude_canonical read

/-- Keys that are read have their numbers in stored form. -/
theorem canonical_of_read {value : Json} {key : Key}
    (read : Json.readScalar here = .ok (value, next)) (taken : ofJson? value = some key) :
    key.Canonical := by
  cases key with
  | float x =>
    obtain rfl : value = .float x := by
      cases value <;> cases taken
      rfl
    exact readScalar_canonical read
  | _ => trivial

end Read

end Key
end HoconRender
