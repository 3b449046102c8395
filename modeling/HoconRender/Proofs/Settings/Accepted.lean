import HoconRender.Proofs.Settings.Exported

/-
The values that fields of settings take. The preset has to be one by name; a switch may be unset, a
truth value, or a number or word that stands for one; a comment prefix may be unset or any text of
characters that is not empty.
-/
namespace HoconRender

namespace Field

open RenderSettings

inductive Accepts : Field → Json → Prop where
  | preset (preset : Preset) : Accepts .preset (.str preset.name)
  | unset {field : Field} (optional : field ≠ .preset) : Accepts field .null
  | bool (flag : Flag) (value : Bool) : Accepts (.switch flag) (.bool value)
  | int (flag : Flag) {i : Int} (bit : i = 0 ∨ i = 1) : Accepts (.switch flag) (.int i)
  | float (flag : Flag) {x : Binary64} (bit : x.toInt? = some 0 ∨ x.toInt? = some 1) :
      Accepts (.switch flag) (.float x)
  | word (flag : Flag) {t : Text} (known : lowerAscii t ∈ wordsForFalse ++ wordsForTrue) :
      Accepts (.switch flag) (.str t)
  | text {t : Text} (characters : t.WellFormed) (present : t ≠ []) :
      Accepts .commentPrefix (.str t)

end Field

namespace RenderSettings

theorem presetOf_ok_iff (value : Json) (preset : Preset) :
    presetOf value = .ok preset ↔ value = .str preset.name := by
  constructor
  · intro taken
    cases value with
    | str name =>
      by_cases characters : name.WellFormed
      · simp only [presetOf, characters, not_true_eq_false, ↓reduceIte] at taken
        cases found : Preset.ofName? name with
        | none => simp [found] at taken
        | some known =>
          obtain rfl : known = preset := by simpa [found] using taken
          have same := List.find?_some found
          exact congrArg Json.str (eq_of_beq same).symm
      · simp [presetOf, characters] at taken
    | _ => cases taken
  · rintro rfl
    cases preset <;> decide

theorem wellFormed_of_lowerAscii {t : Text} (lowered : (lowerAscii t).WellFormed) :
    t.WellFormed := by
  intro c member
  have scalar := lowered _ (List.mem_map_of_mem member)
  split at scalar
  · rename_i capital
    simp only [Text.isScalar, Bool.or_eq_true, decide_eq_true_eq]
    omega
  · exact scalar

theorem boolOfText_ok_iff (t : Text) :
    (∃ b, boolOfText t = .ok b) ↔ lowerAscii t ∈ wordsForFalse ++ wordsForTrue := by
  have words : ∀ word ∈ wordsForFalse ++ wordsForTrue, word.WellFormed := by decide
  unfold boolOfText
  rw [List.mem_append]
  by_cases characters : t.WellFormed
  · by_cases no : lowerAscii t ∈ wordsForFalse
    · simp [characters, no]
    · by_cases yes : lowerAscii t ∈ wordsForTrue <;> simp [characters, no, yes]
  · have unknown : lowerAscii t ∉ wordsForFalse ++ wordsForTrue :=
      fun known => characters (wellFormed_of_lowerAscii (words _ known))
    rw [List.mem_append] at unknown
    simp [characters, unknown]

theorem boolOfInt_ok_iff (i : Int) : (∃ b, boolOfInt i = .ok b) ↔ i = 0 ∨ i = 1 := by
  unfold boolOfInt
  split
  · simp [*]
  · split
    · simp [*]
    · split <;> simp [*]

theorem boolOfFloat_ok_iff (x : Binary64) :
    (∃ b, boolOfFloat x = .ok b) ↔ x.toInt? = some 0 ∨ x.toInt? = some 1 := by
  unfold boolOfFloat
  cases x.toInt? with
  | none => simp
  | some i =>
    rw [Option.some.injEq, Option.some.injEq, ← boolOfInt_ok_iff]
    by_cases inside : -0x8000000000000000 < i
    · simp only [inside, ↓reduceIte]
    · have other : ¬ ∃ b, boolOfInt i = .ok b := by
        rw [boolOfInt_ok_iff]
        omega
      simpa [inside] using other

theorem preset_accepts_iff (value : Json) :
    (∃ preset, presetOf value = .ok preset) ↔ Field.Accepts .preset value := by
  simp only [presetOf_ok_iff]
  constructor
  · rintro ⟨preset, rfl⟩
    exact .preset preset
  · intro accepted
    cases accepted with
    | preset preset => exact ⟨preset, rfl⟩
    | unset optional => exact absurd rfl optional

theorem switchOf_ok_iff {value : Json} (present : value ≠ .null) :
    (∃ set, switchOf value = .ok set) ↔ ∃ b, boolOf value = .ok b := by
  have read : switchOf value = (boolOf value).map some := by
    cases value <;> first | rfl | exact absurd rfl present
  rw [read]
  cases boolOf value <;> simp [Except.map]

theorem switch_accepts_iff (flag : Flag) (value : Json) :
    (∃ set, switchOf value = .ok set) ↔ Field.Accepts (.switch flag) value := by
  have optional : Field.switch flag ≠ .preset := by simp
  constructor
  · rintro ⟨set, taken⟩
    cases value with
    | null => exact .unset optional
    | bool b => exact .bool flag b
    | int i =>
      exact .int flag ((boolOfInt_ok_iff i).mp ((switchOf_ok_iff (by simp)).mp ⟨set, taken⟩))
    | float x =>
      exact .float flag ((boolOfFloat_ok_iff x).mp ((switchOf_ok_iff (by simp)).mp ⟨set, taken⟩))
    | str t =>
      exact .word flag ((boolOfText_ok_iff t).mp ((switchOf_ok_iff (by simp)).mp ⟨set, taken⟩))
    | _ => cases taken
  · intro accepted
    cases accepted with
    | unset => exact ⟨none, rfl⟩
    | bool _ b => exact ⟨some b, rfl⟩
    | int _ bit => exact (switchOf_ok_iff (by simp)).mpr ((boolOfInt_ok_iff _).mpr bit)
    | float _ bit => exact (switchOf_ok_iff (by simp)).mpr ((boolOfFloat_ok_iff _).mpr bit)
    | word _ known => exact (switchOf_ok_iff (by simp)).mpr ((boolOfText_ok_iff _).mpr known)

theorem commentPrefixOf_str_ok {t : Text} {set : Option Text}
    (taken : commentPrefixOf (.str t) = .ok set) : set = some t := by
  unfold commentPrefixOf at taken
  by_cases characters : t.WellFormed
  · cases empty : t.isEmpty <;> simp_all
  · simp [characters] at taken

theorem commentPrefix_accepts_iff (value : Json) :
    (∃ set, commentPrefixOf value = .ok set) ↔ Field.Accepts .commentPrefix value := by
  constructor
  · rintro ⟨set, taken⟩
    cases value with
    | null => exact .unset (by simp)
    | str t =>
      rw [commentPrefixOf_str_ok taken, commentPrefixOf_ok_some_iff] at taken
      exact .text taken.2.1 taken.2.2
    | _ => cases taken
  · intro accepted
    cases accepted with
    | unset => exact ⟨none, rfl⟩
    | text characters present =>
      exact ⟨_, (commentPrefixOf_ok_some_iff _ _).mpr ⟨rfl, characters, present⟩⟩

end RenderSettings

namespace Field

open RenderSettings

def refusal {α : Type} : Except Complaint α → Option Complaint
  | .ok _ => none
  | .error complaint => some complaint

theorem refusal_none_iff {α : Type} (taken : Except Complaint α) :
    refusal taken = none ↔ ∃ a, taken = .ok a := by
  cases taken <;> simp [refusal]

/-- What a field has against a value. -/
def complaint? : Field → Json → Option Complaint
  | .preset, value => refusal (presetOf value)
  | .switch _, value => refusal (switchOf value)
  | .commentPrefix, value => refusal (commentPrefixOf value)

theorem complaint?_none_iff (field : Field) (value : Json) :
    field.complaint? value = none ↔ field.Accepts value := by
  cases field with
  | preset => exact (refusal_none_iff _).trans (preset_accepts_iff value)
  | switch flag => exact (refusal_none_iff _).trans (switch_accepts_iff flag value)
  | commentPrefix => exact (refusal_none_iff _).trans (commentPrefix_accepts_iff value)

end Field

end HoconRender
