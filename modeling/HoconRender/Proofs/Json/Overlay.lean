import HoconRender.Environment
import HoconRender.Proofs.Json.Distinct

/-
What stands under a key once several values are laid over one another. A value that is not an
object is the one of the highest layer that has the key; of objects only this much is said, since
their members go together.
-/
namespace HoconRender.Json

mutual
theorem overlay_none : ∀ value : Json, value.Distinct → overlay none value = value
  | .obj source, distinct => by
    simp only [Distinct] at distinct
    have whole := merge_fresh source [] distinct.2 distinct.1
    rw [List.nil_append] at whole
    exact congrArg Json.obj whole
  | .null, _ => rfl
  | .bool _, _ => rfl
  | .int _, _ => rfl
  | .float _, _ => rfl
  | .str _, _ => rfl
  | .arr _, _ => rfl
theorem merge_fresh : ∀ source target : List (Text × Json), DistinctMembers source →
    (Entries.keys (target ++ source)).Nodup → merge target source = target ++ source
  | [], target, _, _ => (List.append_nil target).symm
  | (key, value) :: rest, target, distinct, keys => by
    simp only [DistinctMembers] at distinct
    have absent := Entries.not_mem_keys_front keys
    rw [merge, (Entries.get?_eq_none_iff target key).mpr absent, overlay_none value distinct.1,
      Entries.put_absent value absent]
    have whole := merge_fresh rest (target ++ [(key, value)]) distinct.2
    rw [List.append_assoc] at whole
    exact whole keys
end

theorem merge_empty {source : Members} (distinct : (obj source).Distinct) :
    merge [] source = source :=
  obj.inj (overlay_none (.obj source) distinct)

theorem distinct_members {value : Json} (distinct : value.Distinct) :
    (obj value.members).Distinct := by
  cases value with
  | obj members => exact distinct
  | _ => exact distinct_empty

mutual
theorem distinct_overlay {existing : Option Json}
    (below : ∀ found, existing = some found → found.Distinct) :
    ∀ value : Json, value.Distinct → (overlay existing value).Distinct
  | .obj source, distinct => by
    simp only [Distinct] at distinct
    refine distinct_merge source ?_ distinct.2
    cases existing with
    | none => exact distinct_empty
    | some found => exact distinct_members (below found rfl)
  | .null, distinct => distinct
  | .bool _, distinct => distinct
  | .int _, distinct => distinct
  | .float _, distinct => distinct
  | .str _, distinct => distinct
  | .arr _, distinct => distinct
theorem distinct_merge : ∀ (source : List (Text × Json)) {target : Members},
    (obj target).Distinct → DistinctMembers source → (obj (merge target source)).Distinct
  | [], _, below, _ => below
  | (key, value) :: rest, _, below, distinct => by
    simp only [DistinctMembers] at distinct
    rw [merge]
    refine distinct_merge rest (distinct_put below key ?_) distinct.2
    exact distinct_overlay (fun _ found => distinct_get? below found) value distinct.1
end

theorem get?_merge {source : Members} (distinct : (Entries.keys source).Nodup) (target : Members)
    (key : Text) :
    Entries.get? (merge target source) key =
      Config.layered (Entries.get? target key) (Entries.get? source key) := by
  induction source generalizing target with
  | nil => rfl
  | cons entry rest ih =>
    obtain ⟨k, value⟩ := entry
    simp only [Entries.keys, List.map_cons, List.nodup_cons] at distinct
    rw [merge, ih distinct.2, Entries.get?_put]
    by_cases same : k = key
    · subst k
      have later : Entries.get? rest key = none :=
        (Entries.get?_eq_none_iff rest key).mpr distinct.1
      simp [later, Entries.get?, Config.layered]
    · simp [same, Entries.get?]

theorem nodup_keys_merge {target : Members} (distinct : (Entries.keys target).Nodup)
    (source : Members) : (Entries.keys (merge target source)).Nodup := by
  induction source generalizing target with
  | nil => exact distinct
  | cons entry rest ih =>
    obtain ⟨key, value⟩ := entry
    rw [merge]
    exact ih (Entries.nodup_keys_put key _ distinct)

theorem keys_merge {source : Members} (distinct : (Entries.keys source).Nodup)
    (target : Members) :
    Entries.keys (merge target source) =
      Entries.keys target ++ (Entries.keys source).filter fun key => key ∉ Entries.keys target := by
  induction source generalizing target with
  | nil => exact (List.append_nil _).symm
  | cons entry rest ih =>
    obtain ⟨key, value⟩ := entry
    obtain ⟨apart, later⟩ := List.nodup_cons.mp distinct
    rw [merge, ih later]
    by_cases present : key ∈ Entries.keys target
    · rw [Entries.keys_put_present _ present]
      simp [Entries.keys, show key ∈ target.map (·.1) from present]
    · rw [Entries.keys_put_absent _ present, List.append_assoc]
      congr 1
      have fresh : (Entries.keys rest).filter (fun k => k ∉ Entries.keys target ++ [key]) =
          (Entries.keys rest).filter fun k => k ∉ Entries.keys target := by
        apply List.filter_congr
        intro k member
        have other : k ≠ key := fun same => apart (same ▸ member)
        simp [other]
      rw [fresh]
      simp [Entries.keys, show key ∉ target.map (·.1) from present]

theorem mem_keys_merge {target source : Members} {key : Text}
    (member : key ∈ Entries.keys (merge target source)) :
    key ∈ Entries.keys target ∨ key ∈ Entries.keys source := by
  induction source generalizing target with
  | nil => exact Or.inl member
  | cons entry rest ih =>
    obtain ⟨k, value⟩ := entry
    rw [merge] at member
    rcases ih member with before | after
    · by_cases present : k ∈ Entries.keys target
      · rw [Entries.keys_put_present _ present] at before
        exact Or.inl before
      · rw [Entries.keys_put_absent _ present, List.mem_append, List.mem_singleton] at before
        rcases before with old | new
        · exact Or.inl old
        · exact Or.inr (by simp [Entries.keys, new])
    · exact Or.inr (by simp only [Entries.keys, List.map_cons]; exact List.mem_cons_of_mem _ after)

def isObject : Json → Bool
  | .obj _ => true
  | _ => false

/-- A value without what an object holds. -/
def outline : Json → Json
  | .obj _ => .obj []
  | value => value

theorem isObject_iff (value : Json) : value.isObject = true ↔ ∃ members, value = .obj members := by
  cases value <;> simp [isObject]

theorem plain_or_object (value : Json) :
    value.isObject = false ∨ ∃ members, value = .obj members := by
  cases value <;> simp [isObject]

theorem found_cases (found : Option Json) :
    found = none ∨ (∃ value, found = some value ∧ value.isObject = false) ∨
      ∃ members, found = some (.obj members) := by
  cases found with
  | none => exact Or.inl rfl
  | some value =>
    rcases plain_or_object value with plain | ⟨members, rfl⟩
    · exact Or.inr (Or.inl ⟨value, rfl, plain⟩)
    · exact Or.inr (Or.inr ⟨members, rfl⟩)

theorem isObject_outline (value : Json) : value.outline.isObject = value.isObject := by
  cases value <;> rfl

theorem outline_overlay (existing : Option Json) (value : Json) :
    (overlay existing value).outline = value.outline := by
  cases value <;> simp [overlay, outline]

theorem outline_layered (below above : Option Json) :
    (Config.layered below above).map outline = (above.or below).map outline := by
  cases above with
  | none => rfl
  | some value => simp [Config.layered, outline_overlay]

def SameOutlines (first second : Members) : Prop :=
  ∀ key, (Entries.get? first key).map outline = (Entries.get? second key).map outline

theorem SameOutlines.mem_keys_iff {first second : Members} (same : SameOutlines first second)
    (key : Text) : key ∈ Entries.keys first ↔ key ∈ Entries.keys second := by
  have absent : key ∉ Entries.keys first ↔ key ∉ Entries.keys second := by
    rw [← Entries.get?_eq_none_iff, ← Entries.get?_eq_none_iff,
      ← Option.map_eq_none_iff, same key, Option.map_eq_none_iff]
  exact Decidable.not_iff_not.mp absent

theorem SameOutlines.isEmpty_eq {first second : Members} (same : SameOutlines first second) :
    first.isEmpty = second.isEmpty := by
  cases first with
  | nil =>
    cases second with
    | nil => rfl
    | cons entry rest =>
      exact absurd ((same.mem_keys_iff entry.1).mpr List.mem_cons_self) List.not_mem_nil
  | cons entry rest =>
    cases second with
    | nil => exact absurd ((same.mem_keys_iff entry.1).mp List.mem_cons_self) List.not_mem_nil
    | cons other more => rfl

theorem merge_outlines {first second : Members} (same : SameOutlines first second)
    (source : Members) : SameOutlines (merge first source) (merge second source) := by
  induction source generalizing first second with
  | nil => exact same
  | cons entry rest ih =>
    obtain ⟨name, value⟩ := entry
    rw [merge, merge]
    apply ih
    intro other
    rw [Entries.get?_put, Entries.get?_put]
    split
    · exact congrArg some (by rw [outline_overlay, outline_overlay])
    · exact same other

def held (value : Option Json) : Members := (value.map members).getD []

theorem get?_held_layered {source : Members} (distinct : (Entries.keys source).Nodup)
    (below : Option Json) (key : Text) :
    Entries.get? (held (Config.layered below (some (.obj source)))) key =
      Config.layered (Entries.get? (held below) key) (Entries.get? source key) := by
  rw [← get?_merge distinct]
  rfl

/-- Two values of which a configuration reads the same: their outlines, and the outlines of their
members. -/
structure SameFields (first second : Option Json) : Prop where
  whole : first.map outline = second.map outline
  member : SameOutlines (held first) (held second)

theorem SameFields.refl (value : Option Json) : SameFields value value := ⟨rfl, fun _ => rfl⟩

theorem sameFields_obj {first second : Members} (same : SameOutlines first second) :
    SameFields (some (.obj first)) (some (.obj second)) := ⟨rfl, same⟩

theorem SameFields.layered {first second : Option Json} (same : SameFields first second)
    (given : Option Json) :
    SameFields (Config.layered first given) (Config.layered second given) := by
  cases given with
  | none => exact same
  | some value =>
    cases value with
    | obj source => exact sameFields_obj (merge_outlines same.member source)
    | _ => exact SameFields.refl _

def combined : List (Option Json) → Option Json
  | [] => none
  | value :: below => Config.layered (combined below) value

/-- The objects on top, down to the first value that is not an object: it hides what is below. -/
def inSight : List (Option Json) → List Members
  | [] => []
  | none :: below => inSight below
  | some (.obj members) :: below => members :: inSight below
  | some _ :: _ => []

theorem outline_combined (values : List (Option Json)) :
    (combined values).map outline = (values.findSome? id).map outline := by
  induction values with
  | nil => rfl
  | cons value below ih =>
    rw [combined, outline_layered]
    cases value with
    | none => simpa using ih
    | some value => simp

theorem combined_keys {values : List (Option Json)}
    (distinct : ∀ members, some (.obj members) ∈ values → (Entries.keys members).Nodup) :
    (Entries.keys (held (combined values))).Nodup := by
  induction values with
  | nil => simp [combined, held, Entries.keys]
  | cons value below ih =>
    have lower := ih fun members member => distinct members (List.mem_cons_of_mem _ member)
    cases value with
    | none => exact lower
    | some value =>
      cases value with
      | obj source => exact nodup_keys_merge lower source
      | _ => simp [combined, Config.layered, overlay, held, members, Entries.keys]

/-- Under a key stands what the highest object in sight that has the key holds under it. -/
theorem get?_held_combined {values : List (Option Json)}
    (distinct : ∀ members, some (.obj members) ∈ values → (Entries.keys members).Nodup)
    (key : Text) :
    (Entries.get? (held (combined values)) key).map outline =
      ((inSight values).findSome? fun members => Entries.get? members key).map outline := by
  induction values with
  | nil => rfl
  | cons value below ih =>
    have lower := ih fun members member => distinct members (List.mem_cons_of_mem _ member)
    cases value with
    | none => exact lower
    | some value =>
      cases value with
      | obj source =>
        rw [combined, get?_held_layered (distinct source (by simp)), outline_layered, inSight,
          List.findSome?_cons]
        cases Entries.get? source key with
        | none => simpa using lower
        | some value => simp
      | _ => simp [combined, Config.layered, overlay, held, members, Entries.get?, inSight]

theorem inSight_of_combined_none {values : List (Option Json)} (nothing : combined values = none) :
    inSight values = [] := by
  induction values with
  | nil => rfl
  | cons value below ih =>
    cases value with
    | none => exact ih nothing
    | some value => simp [combined, Config.layered] at nothing

theorem get?_held_whole {values : List (Option Json)}
    (distinct : ∀ members, some (.obj members) ∈ values → (Entries.keys members).Nodup)
    {bottom : Option Json}
    (object : ∀ value, Config.layered bottom (combined values) = some value → value.isObject = true)
    (key : Text) :
    (Entries.get? (held (Config.layered bottom (combined values))) key).map outline =
      ((inSight values ++ [held bottom]).findSome? fun members =>
        Entries.get? members key).map outline := by
  have top := get?_held_combined distinct key
  have keys := combined_keys distinct
  rw [List.findSome?_append, List.findSome?_singleton]
  cases whole : combined values with
  | none => simp [inSight_of_combined_none whole, Config.layered]
  | some value =>
    rw [whole] at top keys object
    cases value with
    | obj source =>
      have keys : (Entries.keys source).Nodup := keys
      rw [get?_held_layered keys, outline_layered, Option.map_or, Option.map_or, ← top]
      rfl
    | _ => simp [Config.layered, overlay, isObject] at object

end HoconRender.Json
