import HoconRender.Proofs.Json.Collected
import HoconRender.Proofs.Options.Mappings

/-
Mappings with their entries in another order. The order may change what is reported, but not
whether options are read; where no field is named twice, it does not change the options either.
An entry behind all others that says what its field holds already changes nothing.
-/
namespace HoconRender

namespace Mapping

variable {mapping other : Mapping}

theorem Proper.perm (proper : mapping.Proper) (perm : mapping.Perm other) : other.Proper := by
  have symmetric {a b : MappingKey} (apart : (a == b) = false) : (b == a) = false :=
    (Key.same_comm b.key a.key).trans apart
  exact ((perm.map _).pairwise_iff symmetric).mp proper

theorem get?_preset_iff (proper : mapping.Proper) (value : Json) :
    mapping.get? presetKey = some value ↔
      ∃ entry ∈ mapping, entry.1.key = presetKey.key ∧ entry.2 = value := by
  refine ⟨mem_of_get?_preset, ?_⟩
  rintro ⟨entry, member, own, rfl⟩
  have key : entry.1 = presetKey := congrArg MappingKey.mk own
  rw [← key]
  exact get?_of_mem proper member

theorem get?_preset_same (proper : mapping.Proper) (also : other.Proper)
    (same : ∀ entry : MappingKey × Json, entry.1.key = presetKey.key →
      (entry ∈ mapping ↔ entry ∈ other)) :
    mapping.get? presetKey = other.get? presetKey := by
  apply Option.ext
  intro value
  rw [get?_preset_iff proper, get?_preset_iff also]
  constructor
  · rintro ⟨entry, member, own, held⟩
    exact ⟨entry, (same entry own).mp member, own, held⟩
  · rintro ⟨entry, member, own, held⟩
    exact ⟨entry, (same entry own).mpr member, own, held⟩

end Mapping

namespace RenderOptions

variable {mapping other : Mapping}

theorem Starts.same_preset {preset : Preset} (starts : Starts mapping preset)
    (same : mapping.get? Mapping.presetKey = other.get? Mapping.presetKey) :
    Starts other preset := by
  cases starts with
  | unnamed absent => exact .unnamed (same ▸ absent)
  | named found => exact .named (same ▸ found)

/-- No field is named by two entries, be it under its two names. -/
def NamedOnce (mapping : Mapping) : Prop :=
  (mapping.filterMap fun entry => entry.1.key.part?).Nodup

theorem NamedOnce.perm (once : NamedOnce mapping) (perm : mapping.Perm other) :
    NamedOnce other := (perm.filterMap _).nodup_iff.mp once

theorem NamedOnce.elsewhere {first : MappingKey × Json} {rest : Mapping} {part : Part}
    (once : NamedOnce (first :: rest)) (named : first.1.key.Names part) :
    ∀ entry ∈ rest, ¬ entry.1.key.Names part := by
  intro entry member also
  rw [← Key.part?_eq_some_iff] at named also
  have parts : (first :: rest).filterMap (fun entry => entry.1.key.part?) =
      part :: rest.filterMap fun entry => entry.1.key.part? := List.filterMap_cons_some named
  unfold NamedOnce at once
  rw [parts] at once
  exact (List.nodup_cons.mp once).1 (List.mem_filterMap.mpr ⟨entry, member, also⟩)

theorem lastNamed?_eq_none_iff (mapping : Mapping) (part : Part) :
    lastNamed? mapping part = none ↔ ∀ entry ∈ mapping, ¬ entry.1.key.Names part := by
  simp [lastNamed?]

theorem NamedOnce.lastNamed?_iff (once : NamedOnce mapping) (part : Part) (value : Json) :
    lastNamed? mapping part = some value ↔
      ∃ entry ∈ mapping, entry.1.key.Names part ∧ entry.2 = value := by
  induction mapping with
  | nil => simp [lastNamed?]
  | cons first rest ih =>
    have later : NamedOnce rest := once.sublist ((List.sublist_cons_self first rest).filterMap _)
    rw [lastNamed?_cons, Option.or_eq_some_iff, ih later]
    by_cases named : first.1.key.Names part
    · have unnamed := (lastNamed?_eq_none_iff rest part).mpr (once.elsewhere named)
      simp [named, unnamed, or_comm]
    · simp [named]

theorem lastNamed?_perm (once : NamedOnce mapping) (perm : mapping.Perm other) (part : Part) :
    lastNamed? mapping part = lastNamed? other part := by
  apply Option.ext
  intro value
  rw [once.lastNamed?_iff, (once.perm perm).lastNamed?_iff]
  constructor
  · rintro ⟨entry, member, facts⟩
    exact ⟨entry, perm.mem_iff.mp member, facts⟩
  · rintro ⟨entry, member, facts⟩
    exact ⟨entry, perm.mem_iff.mpr member, facts⟩

theorem lastNamed?_append_one (mapping : Mapping) (entry : MappingKey × Json) (part : Part) :
    lastNamed? (mapping ++ [entry]) part =
      if entry.1.key.Names part then some entry.2 else lastNamed? mapping part := by
  unfold lastNamed?
  rw [List.reverse_append]
  by_cases named : entry.1.key.Names part <;> simp [named]

theorem starts_perm (proper : mapping.Proper) (perm : mapping.Perm other) {preset : Preset}
    (starts : Starts mapping preset) : Starts other preset :=
  starts.same_preset (Mapping.get?_preset_same proper (proper.perm perm) fun _ _ => perm.mem_iff)

theorem read_perm (proper : mapping.Proper) (perm : mapping.Perm other)
    (read : ∃ options, ofMapping mapping = .ok options) :
    ∃ options, ofMapping other = .ok options := by
  obtain ⟨options, found⟩ := read
  obtain ⟨preset, starts, all, _⟩ := (ofMapping_ok_iff proper options).mp found
  obtain ⟨again, readOther, _⟩ := ofMapping_admissible (proper.perm perm)
    (starts_perm proper perm starts) fun entry member => all entry (perm.mem_iff.mpr member)
  exact ⟨again, readOther⟩

theorem ofMapping_perm (proper : mapping.Proper) (once : NamedOnce mapping)
    (perm : mapping.Perm other) {options : RenderOptions}
    (read : ofMapping mapping = .ok options) : ofMapping other = .ok options := by
  obtain ⟨preset, starts, all, fields⟩ := (ofMapping_ok_iff proper options).mp read
  refine (ofMapping_ok_iff (proper.perm perm) options).mpr
    ⟨preset, starts_perm proper perm starts, fun entry member => ?_, fun part => ?_⟩
  · exact all entry (perm.mem_iff.mpr member)
  · rw [fields, lastNamed?_perm once perm]

theorem ofMapping_restated (proper : mapping.Proper) {options : RenderOptions}
    (read : ofMapping mapping = .ok options) {part : Part} {key : MappingKey}
    (named : key.key.Names part) (absent : ∀ known ∈ mapping.keys, (known == key) = false) :
    ofMapping (mapping ++ [(key, options.part part)]) = .ok options := by
  obtain ⟨preset, starts, all, fields⟩ := (ofMapping_ok_iff proper options).mp read
  have extended : Mapping.Proper (mapping ++ [(key, options.part part)]) := by
    unfold Mapping.Proper Entries.keys
    rw [List.map_append, List.pairwise_append]
    refine ⟨proper, List.pairwise_singleton .., fun known member added last => ?_⟩
    rw [List.mem_singleton.mp last]
    exact absent known member
  have other : key.key ≠ Mapping.presetKey.key :=
    fun same => Mapping.presetKey_names_nothing part (same ▸ named)
  have presets : mapping.get? Mapping.presetKey =
      Entries.get? (mapping ++ [(key, options.part part)]) Mapping.presetKey := by
    refine Mapping.get?_preset_same proper extended fun entry own => ?_
    have old : entry ≠ (key, options.part part) := by
      rintro rfl
      exact other own
    simp [old]
  refine (ofMapping_ok_iff extended options).mpr
    ⟨preset, starts.same_preset presets, fun entry member => ?_, fun wanted => ?_⟩
  · rcases List.mem_append.mp member with old | added
    · exact all entry old
    · rw [List.mem_singleton.mp added]
      exact fun _ => ⟨part, named, options.takes_part part⟩
  · rw [lastNamed?_append_one]
    by_cases also : key.key.Names wanted
    · rw [if_pos also, named.unique also]
      rfl
    · rw [if_neg also]
      exact fields wanted

structure OrderFree (mapping : Mapping) : Prop where
  reordered : ∀ other, mapping.Perm other →
    ((∃ options, ofMapping mapping = .ok options) ↔ ∃ options, ofMapping other = .ok options)
  same : NamedOnce mapping → ∀ other, mapping.Perm other → ∀ options,
    (ofMapping mapping = .ok options ↔ ofMapping other = .ok options)
  restated : ∀ options, ofMapping mapping = .ok options → ∀ (part : Part) (key : MappingKey),
    key.key.Names part → (∀ known ∈ mapping.keys, (known == key) = false) →
    ofMapping (mapping ++ [(key, options.part part)]) = .ok options

/-- Whether a mapping is read does not depend on the order of its entries, and what it is read as
does so only where two entries name one field. -/
theorem entry_order_free (mapping : Mapping) (proper : mapping.Proper) : OrderFree mapping := by
  refine ⟨fun other perm => ⟨?_, ?_⟩, fun once other perm options => ⟨?_, ?_⟩, ?_⟩
  · exact read_perm proper perm
  · exact read_perm (proper.perm perm) perm.symm
  · exact ofMapping_perm proper once perm
  · exact ofMapping_perm (proper.perm perm) (once.perm perm) perm.symm
  · intro options read part key named absent
    exact ofMapping_restated proper read named absent

section Sample

def scatteredMapping : Mapping := .ofEntries [
  (.text "comments", .bool true), (.text "preset", "concise"), (.text "commentPrefix", "//"),
  (.text "origin_comments", .bool false)]

theorem scattered_mapping_read :
    ∃ options, ofMapping scatteredMapping = .ok options ∧
      ofMapping scatteredMapping.reverse = .ok options ∧
      ofMapping (scatteredMapping ++ ([("comment_prefix", "//")] : Mapping)) = .ok options := by
  have free := entry_order_free scatteredMapping (Mapping.proper_ofEntries _)
  have once : NamedOnce scatteredMapping := by
    unfold NamedOnce
    decide
  have read : ofMapping scatteredMapping =
      .ok ⟨⟨false, true, false, true, true⟩, Text.ofString "//"⟩ := by decide
  refine ⟨_, read, ?_, ?_⟩
  · exact (free.same once _ (List.reverse_perm _).symm _).mp read
  · exact free.restated _ read .commentPrefix "comment_prefix" (Key.names_fieldName .commentPrefix)
      (by decide)

end Sample

end RenderOptions
end HoconRender
