import HoconRender.Proofs.Settings.Accepted
import Mathlib.Data.List.Forall2

/-
Verdicts on the members of an object, field by field. Settings are read if every field takes the
value that is found for it; otherwise there is one fault for each field that does not. A field that
may be unset takes null for nothing at all, and keys of no field do not matter.
-/
namespace HoconRender

namespace Field

theorem mem_all (field : Field) : field ∈ all := by
  cases field with
  | preset => exact List.mem_cons_self
  | switch flag =>
    exact List.mem_append_left _ (List.mem_cons_of_mem _ (List.mem_map_of_mem (Flag.mem_all flag)))
  | commentPrefix => exact List.mem_append_right _ List.mem_cons_self

/-- A field is judged by the value that is found for it, under the first of its keys that is
there. -/
def Valid (field : Field) (members : Members) : Prop :=
  ∀ key value, field.find? members = some (key, value) → field.Accepts value

/-- The fault of a field: the key under which its value was found, the complaint and the value. -/
inductive Reports (members : Members) : Field → FieldFault → Prop where
  | refused {field : Field} {key : Text} {value : Json} {complaint : Complaint}
      (found : field.find? members = some (key, value))
      (complains : field.complaint? value = some complaint) :
      Reports members field ⟨[key], complaint, value⟩

def fault? (members : Members) (field : Field) : Option FieldFault :=
  (field.find? members).bind fun found =>
    (field.complaint? found.2).map fun complaint => ⟨[found.1], complaint, found.2⟩

theorem fault?_none_iff (field : Field) (members : Members) :
    field.fault? members = none ↔ field.Valid members := by
  unfold fault? Valid
  cases found : field.find? members with
  | none => simp
  | some entry =>
    obtain ⟨key, value⟩ := entry
    simp [complaint?_none_iff]

instance (field : Field) (members : Members) : Decidable (field.Valid members) :=
  decidable_of_iff _ (fault?_none_iff field members)

theorem reports_of_fault? {field : Field} {members : Members} {fault : FieldFault}
    (faulty : field.fault? members = some fault) : Reports members field fault := by
  obtain ⟨⟨key, value⟩, found, told⟩ := Option.bind_eq_some_iff.mp faulty
  obtain ⟨complaint, complains, rfl⟩ := Option.map_eq_some_iff.mp told
  exact .refused found complains

def faults (members : Members) : List FieldFault := all.filterMap (fault? members)

theorem faults_nil_iff (members : Members) :
    faults members = [] ↔ ∀ field : Field, field.Valid members := by
  unfold faults
  rw [List.filterMap_eq_nil_iff]
  simp only [fault?_none_iff]
  exact ⟨fun valid field => valid field field.mem_all, fun valid field _ => valid field⟩

theorem reports_faults (members : Members) (fields : List Field) :
    List.Forall₂ (Reports members) (fields.filter fun field => ¬ field.Valid members)
      (fields.filterMap (fault? members)) := by
  induction fields with
  | nil => exact .nil
  | cons field rest ih =>
    cases faulty : field.fault? members with
    | none =>
      have valid := (fault?_none_iff field members).mp faulty
      rw [List.filterMap_cons_none faulty, List.filter_cons_of_neg (by simpa using valid)]
      exact ih
    | some fault =>
      have invalid : ¬ field.Valid members := by
        rw [← fault?_none_iff, faulty]
        simp
      rw [List.filterMap_cons_some faulty, List.filter_cons_of_pos (by simpa using invalid)]
      exact .cons (reports_of_fault? faulty) ih

end Field

namespace RenderSettings

theorem faultsOf_readField {α : Type} (members : Members) (field : Field) (default : α)
    {check : Json → Except Complaint α}
    (same : ∀ value, Field.refusal (check value) = field.complaint? value) :
    faultsOf (readField members field default check) = (field.fault? members).toList := by
  unfold readField Field.fault?
  cases field.find? members with
  | none => rfl
  | some found =>
    rw [Option.bind_some, ← same]
    change faultsOf ((check found.2).mapError _) = _
    cases check found.2 <;> rfl

/-- Reading fails with the faults of the fields, as long as there are any. -/
theorem ofMembers_error_iff (members : Members) (faults : List FieldFault) :
    ofMembers members = .error faults ↔ Field.faults members = faults ∧ faults ≠ [] := by
  have listed : faultsOf (readField members .preset .defaults presetOf) ++
      (Flag.all.flatMap fun flag => faultsOf (readField members (.switch flag) none switchOf)) ++
      faultsOf (readField members .commentPrefix none commentPrefixOf) = Field.faults members := by
    unfold Field.faults Field.all
    rw [List.filterMap_eq_flatMap_toList, List.flatMap_append, List.flatMap_cons,
      List.flatMap_map, List.flatMap_singleton, faultsOf_readField members .preset _ fun _ => rfl,
      faultsOf_readField members .commentPrefix _ fun _ => rfl]
    congr 2
    refine congrArg (Flag.all.flatMap ·) (funext fun flag => ?_)
    exact faultsOf_readField members (.switch flag) none fun _ => rfl
  have refused (some : Field.faults members ≠ []) :
      (Except.error (Field.faults members) : Except _ RenderSettings) = .error faults ↔
        Field.faults members = faults ∧ faults ≠ [] := by
    rw [Except.error.injEq]
    exact ⟨fun same => ⟨same, same ▸ some⟩, fun both => both.1⟩
  unfold ofMembers
  dsimp only
  rw [listed]
  cases preset : readField members .preset .defaults presetOf with
  | error fault =>
    apply refused
    rw [← listed, preset]
    simp [faultsOf]
  | ok preset =>
    cases commentPrefix : readField members .commentPrefix none commentPrefixOf with
    | error fault =>
      apply refused
      rw [← listed, commentPrefix]
      simp [faultsOf]
    | ok commentPrefix =>
      dsimp only
      cases empty : (Field.faults members).isEmpty with
      | true =>
        rw [List.isEmpty_iff.mp empty]
        simp
      | false => exact refused (by simpa using empty)

theorem ofMembers_succeeds_iff (members : Members) :
    (∃ settings, ofMembers members = .ok settings) ↔ ∀ field : Field, field.Valid members := by
  rw [← Field.faults_nil_iff]
  cases read : ofMembers members with
  | ok settings =>
    refine ⟨fun _ => ?_, fun _ => ⟨settings, rfl⟩⟩
    apply Decidable.byContradiction
    intro faulty
    cases read.symm.trans ((ofMembers_error_iff ..).mpr ⟨rfl, faulty⟩)
  | error faults =>
    obtain ⟨listed, some⟩ := (ofMembers_error_iff ..).mp read
    simp [listed, some]

end RenderSettings

section Unaltered

variable {members other : Members}

namespace Field

def isKey (key : Text) : Bool := all.any fun field => field.keys.contains key

theorem isKey_of_mem {field : Field} {key : Text} (own : key ∈ field.keys) :
    isKey key = true := by
  unfold isKey
  rw [List.any_eq_true]
  exact ⟨field, field.mem_all, List.contains_iff_mem.mpr own⟩

theorem keys_apart {field another : Field} {key : Text} (own : key ∈ field.keys)
    (also : key ∈ another.keys) : field = another := by
  have apart : ∀ a ∈ all, ∀ b ∈ all, ∀ key ∈ a.keys, key ∈ b.keys → a = b := by decide
  exact apart field field.mem_all another another.mem_all key own also

theorem find?_none_iff (field : Field) (members : Members) :
    field.find? members = none ↔ ∀ key ∈ field.keys, Entries.get? members key = none := by
  simp [find?]

theorem find?_same {field : Field}
    (same : ∀ key ∈ field.keys, Entries.get? other key = Entries.get? members key) :
    field.find? other = field.find? members := by
  unfold find?
  generalize field.keys = keys at same
  induction keys with
  | nil => rfl
  | cons key rest ih =>
    obtain ⟨first, later⟩ := List.forall_mem_cons.mp same
    rw [List.findSome?_cons, List.findSome?_cons, first, ih later]

theorem find?_only {field : Field} {key : Text} {value : Json} (own : key ∈ field.keys)
    (found : Entries.get? members key = some value)
    (others : ∀ k ∈ field.keys, k ≠ key → Entries.get? members k = none) :
    field.find? members = some (key, value) := by
  obtain ⟨front, behind, keys, fresh⟩ := List.eq_append_cons_of_mem own
  unfold find?
  rw [List.findSome?_eq_some_iff]
  refine ⟨front, key, behind, keys, by simp [found], fun k member => ?_⟩
  have inside : k ∈ field.keys := by simp [keys, member]
  rw [others k inside fun same => fresh (same ▸ member)]
  rfl

def FoundAlike (members other : Members) (field : Field) : Prop :=
  field.find? other = field.find? members ∨
    field ≠ .preset ∧ field.find? members = none ∧ ∃ key, field.find? other = some (key, .null)

end Field

namespace RenderSettings

theorem readField_alike {α : Type} {field : Field} (alike : field.FoundAlike members other)
    {default : α} {check : Json → Except Complaint α}
    (unset : field ≠ .preset → check .null = .ok default) :
    readField other field default check = readField members field default check := by
  unfold readField
  rcases alike with same | ⟨optional, absent, key, null⟩
  · rw [same]
  · rw [absent, null]
    change (check .null).mapError _ = .ok default
    rw [unset optional]
    rfl

theorem ofMembers_alike (alike : ∀ field : Field, field.FoundAlike members other) :
    ofMembers other = ofMembers members := by
  have preset : readField other .preset .defaults presetOf =
      readField members .preset .defaults presetOf := readField_alike (alike .preset) (absurd rfl)
  have switch (flag : Flag) : readField other (.switch flag) none switchOf =
      readField members (.switch flag) none switchOf :=
    readField_alike (alike (.switch flag)) fun _ => rfl
  have commentPrefix : readField other .commentPrefix none commentPrefixOf =
      readField members .commentPrefix none commentPrefixOf :=
    readField_alike (alike .commentPrefix) fun _ => rfl
  unfold ofMembers
  simp only [preset, switch, commentPrefix]

theorem ofMembers_perm (distinct : (Entries.keys members).Nodup) (perm : members.Perm other) :
    ofMembers other = ofMembers members :=
  ofMembers_alike fun _ =>
    Or.inl (Field.find?_same fun key _ => (Entries.get?_perm perm distinct key).symm)

theorem ofMembers_unknown
    (same : other.filter (fun member => Field.isKey member.1) =
      members.filter fun member => Field.isKey member.1) :
    ofMembers other = ofMembers members := by
  refine ofMembers_alike fun field => Or.inl (Field.find?_same fun key own => ?_)
  have lookup (entries : Members) : Entries.get? entries key =
      Entries.get? (entries.filter fun member => Field.isKey member.1) key := by
    rw [Entries.get?_filter, if_pos (Field.isKey_of_mem own)]
  rw [lookup other, lookup members, same]

theorem ofMembers_nulled {front behind : Members} {field : Field} (optional : field ≠ .preset)
    (absent : field.find? (front ++ behind) = none) {key : Text} (own : key ∈ field.keys) :
    ofMembers (front ++ (key, .null) :: behind) = ofMembers (front ++ behind) := by
  have without := (Field.find?_none_iff field _).mp absent
  have inserted (other : Text) : Entries.get? (front ++ (key, .null) :: behind) other =
      if key = other then some .null else Entries.get? (front ++ behind) other := by
    rw [Entries.get?_append, Entries.get?_append, Entries.get?]
    by_cases same : key = other
    · subst other
      have before : Entries.get? front key = none := by
        have nowhere := without key own
        rw [Entries.get?_append, Option.or_eq_none_iff] at nowhere
        exact nowhere.1
      simp [before]
    · simp [same]
  refine ofMembers_alike fun wanted => ?_
  by_cases same : wanted = field
  · subst wanted
    refine Or.inr ⟨optional, absent, key, Field.find?_only own ?_ fun other inside apart => ?_⟩
    · rw [inserted, if_pos rfl]
    · rw [inserted, if_neg (Ne.symm apart)]
      exact without other inside
  · refine Or.inl (Field.find?_same fun other inside => ?_)
    rw [inserted, if_neg]
    rintro rfl
    exact same (Field.keys_apart inside own)

end RenderSettings

end Unaltered

namespace RenderSettings

/-- What becomes of an object's members, told by their verdicts. -/
structure FieldByField (members : Members) : Prop where
  accepted : (∃ settings, ofMembers members = .ok settings) ↔ ∀ field : Field, field.Valid members
  refused : ∀ faults, ofMembers members = .error faults → List.Forall₂ (Field.Reports members)
    (Field.all.filter fun field => ¬ field.Valid members) faults
  reordered : ∀ other, members.Perm other → ofMembers other = ofMembers members
  unknown : ∀ other : Members, other.filter (fun member => Field.isKey member.1) =
    members.filter (fun member => Field.isKey member.1) → ofMembers other = ofMembers members
  nulled : ∀ field : Field, field ≠ .preset → field.find? members = none → ∀ key ∈ field.keys,
    ∀ front behind, members = front ++ behind →
      ofMembers (front ++ (key, .null) :: behind) = ofMembers members

theorem settings_field_by_field (members : Members) (distinct : (Entries.keys members).Nodup) :
    FieldByField members := by
  refine ⟨ofMembers_succeeds_iff members, fun faults failed => ?_, ?_, ?_, ?_⟩
  · rw [← ((ofMembers_error_iff ..).mp failed).1]
    exact Field.reports_faults members Field.all
  · exact fun other perm => ofMembers_perm distinct perm
  · exact fun other same => ofMembers_unknown same
  · rintro field optional absent key own front behind rfl
    exact ofMembers_nulled optional absent own

section Sample

def disputedMembers : Members := [
  ("comment_prefix", ""), ("json_syntax", .int 7), ("colour", .null), ("json", "YES"),
  ("preset", .null)]

theorem disputed_members_judged :
    (∃ faults, ofMembers disputedMembers = .error faults ∧
      List.Forall₂ (Field.Reports disputedMembers) [.preset, .commentPrefix] faults) ∧
    ofMembers disputedMembers.reverse = ofMembers disputedMembers ∧
    ofMembers (("comments", .null) :: disputedMembers) = ofMembers disputedMembers := by
  have judged := settings_field_by_field disputedMembers (by decide)
  have failed : ofMembers disputedMembers = .error
      [⟨["preset"], .unknownPreset, .null⟩, ⟨["comment_prefix"], .emptyText, ""⟩] := by
    decide
  have invalid : (Field.all.filter fun field => ¬ field.Valid disputedMembers) =
      [.preset, .commentPrefix] := by decide
  refine ⟨⟨_, failed, invalid ▸ judged.refused _ failed⟩, ?_, ?_⟩
  · exact judged.reordered _ (List.reverse_perm _).symm
  · exact judged.nulled (.switch .comments) (by decide) (by decide) "comments"
      (by decide) [] disputedMembers rfl

end Sample

end RenderSettings

end HoconRender
