import HoconRender.Json.Reader
import HoconRender.Proofs.Entries
import HoconRender.Proofs.Outcome

/-
Values whose objects have each key once, at every level. Whatever is read is such a value, since a
repeated key only changes what stands under it.
-/
namespace HoconRender.Json

mutual
def Distinct : Json → Prop
  | .arr items => DistinctItems items
  | .obj members => (Entries.keys members).Nodup ∧ DistinctMembers members
  | _ => True
def DistinctItems : List Json → Prop
  | [] => True
  | item :: rest => Distinct item ∧ DistinctItems rest
def DistinctMembers : List (Text × Json) → Prop
  | [] => True
  | (_, value) :: rest => Distinct value ∧ DistinctMembers rest
end

theorem distinctMembers_iff (members : Members) :
    DistinctMembers members ↔ ∀ entry ∈ members, entry.2.Distinct := by
  induction members with
  | nil => simp [DistinctMembers]
  | cons entry rest ih =>
    obtain ⟨key, value⟩ := entry
    simp [DistinctMembers, ih]

theorem distinct_empty : (obj []).Distinct := by simp [Distinct, DistinctMembers, Entries.keys]

theorem distinct_keys {members : Members} (distinct : (obj members).Distinct) :
    (Entries.keys members).Nodup := by
  simp only [Distinct] at distinct
  exact distinct.1

theorem distinct_get? {members : Members} (distinct : (obj members).Distinct) {key : Text}
    {value : Json} (found : Entries.get? members key = some value) : value.Distinct := by
  simp only [Distinct] at distinct
  exact (distinctMembers_iff members).mp distinct.2 _ (Entries.mem_of_get? found)

theorem distinct_put {members : Members} (distinct : (obj members).Distinct) (key : Text)
    {value : Json} (inner : value.Distinct) : (obj (Entries.put members key value)).Distinct := by
  simp only [Distinct] at distinct ⊢
  refine ⟨Entries.nodup_keys_put key value distinct.1, ?_⟩
  rw [distinctMembers_iff]
  intro entry member
  rcases Entries.mem_put member with kept | written
  · exact (distinctMembers_iff members).mp distinct.2 entry kept
  · subst entry
    exact inner

theorem constants_distinct : ∀ entry ∈ constants, entry.2.Distinct := by
  simp [constants, Distinct]

theorem readMagnitude_distinct {negative : Bool} {start : Nat} {here next : Cursor} {value : Json}
    (found : readMagnitude negative start here = .ok (value, next)) : value.Distinct := by
  unfold readMagnitude at found
  repeat' split at found
  all_goals cases found <;> simp [Distinct]

theorem readScalar_distinct {here next : Cursor} {value : Json}
    (found : readScalar here = .ok (value, next)) : value.Distinct := by
  unfold readScalar at found
  split at found
  · rename_i constant
    cases found
    obtain ⟨entry, member, read⟩ := List.exists_of_findSome?_eq_some constant
    obtain ⟨rest, _, same⟩ := Option.map_eq_some_iff.mp read
    cases same
    exact constants_distinct entry member
  · split at found
    · obtain ⟨text, _, same⟩ := Outcome.map_ok_iff.mp found
      cases same
      simp [Distinct]
    · exact readMagnitude_distinct found
    · exact readMagnitude_distinct found

theorem readMembers_distinct {item : Cursor → Except Stop (Json × Cursor)}
    (inner : ∀ {here value next}, item here = .ok (value, next) → value.Distinct)
    {size : Nat} {found members : Members} {here next : Cursor} (distinct : (obj found).Distinct)
    (read : readMembers item size found here = .ok (members, next)) : (obj members).Distinct := by
  induction size generalizing found here with
  | zero => simp [readMembers] at read
  | succ size ih =>
    unfold readMembers at read
    split at read
    · obtain ⟨⟨name, after⟩, _, read⟩ := Outcome.bind_ok_iff.mp read
      dsimp only at read
      split at read
      · obtain ⟨⟨value, behind⟩, taken, read⟩ := Outcome.bind_ok_iff.mp read
        have larger := distinct_put distinct name (inner taken)
        dsimp only at read
        split at read
        · cases read
          exact larger
        · exact ih larger read
        · cases read
      · cases read
    · cases read

theorem readItems_distinct {item : Cursor → Except Stop (Json × Cursor)}
    (inner : ∀ {here value next}, item here = .ok (value, next) → value.Distinct)
    {size : Nat} {items : List Json} {here next : Cursor}
    (read : readItems item size here = .ok (items, next)) : (arr items).Distinct := by
  induction size generalizing items here next with
  | zero => simp [readItems] at read
  | succ size ih =>
    unfold readItems at read
    obtain ⟨⟨value, after⟩, taken, read⟩ := Outcome.bind_ok_iff.mp read
    have head := inner taken
    dsimp only at read
    split at read
    · cases read
      simp [Distinct, DistinctItems, head]
    · obtain ⟨⟨rest, behind⟩, more, read⟩ := Outcome.bind_ok_iff.mp read
      have tail := ih more
      cases read
      simp only [Distinct] at tail
      simp [Distinct, DistinctItems, head, tail]
    · cases read

theorem readValue_distinct {size depth : Nat} {here next : Cursor} {value : Json}
    (read : readValue size depth here = .ok (value, next)) : value.Distinct := by
  induction depth generalizing here value next with
  | zero =>
    unfold readValue at read
    split at read
    · cases read
    · cases read
    · exact readScalar_distinct read
  | succ depth ih =>
    unfold readValue at read
    split at read
    · dsimp only at read
      split at read
      · cases read
        exact distinct_empty
      · obtain ⟨⟨members, after⟩, taken, same⟩ := Outcome.map_ok_iff.mp read
        cases same
        exact readMembers_distinct ih distinct_empty taken
    · dsimp only at read
      split at read
      · cases read
        simp [Distinct, DistinctItems]
      · obtain ⟨⟨items, after⟩, taken, same⟩ := Outcome.map_ok_iff.mp read
        cases same
        exact readItems_distinct ih taken
    · exact readScalar_distinct read

theorem read_distinct {document : Text} {value : Json} (found : read document = .ok value) :
    value.Distinct := by
  unfold read at found
  split at found
  · rename_i whole
    cases found
    unfold readDocument at whole
    split at whole
    · cases whole
    · obtain ⟨⟨value, next⟩, taken, rest⟩ := Outcome.bind_ok_iff.mp whole
      dsimp only at rest
      split at rest
      · cases rest
        exact readValue_distinct taken
      · cases rest
  · cases found
  · cases found
  · cases found

end HoconRender.Json
