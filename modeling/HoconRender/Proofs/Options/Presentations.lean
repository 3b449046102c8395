import HoconRender.Proofs.Options.Mappings

/-
Options read back from what they are written as. The entries may stand in any order, each key may
have either spelling of its field, and a preset may stand anywhere among them: every field is named,
so that nothing of the preset is left.
-/
namespace HoconRender

theorem Key.part?_of_same {a b : Key} (same : a.same b = true) : a.part? = b.part? := by
  cases b with
  | text name => rw [(same_text_iff a name).mp same]
  | flag chosen => rw [(same_flag_iff a chosen).mp same]
  | _ => cases a <;> first | rfl | cases same

namespace RenderOptions

inductive Presentation (options : RenderOptions) : Mapping → Prop where
  | written : Presentation options options.toMapping
  | reordered {mapping other : Mapping} (known : Presentation options mapping)
      (perm : mapping.Perm other) : Presentation options other
  | renamed {front behind : Mapping} {part : Part} {value : Json}
      (known : Presentation options (front ++ (⟨.text part.fieldName⟩, value) :: behind)) :
      Presentation options (front ++ (⟨.text part.displayName⟩, value) :: behind)
  | begun {front behind : Mapping} (preset : Preset)
      (known : Presentation options (front ++ behind))
      (absent : ∀ entry ∈ front ++ behind, entry.1.key ≠ Mapping.presetKey.key) :
      Presentation options (front ++ (Mapping.presetKey, .str preset.name) :: behind)

def IsPreset (entry : MappingKey × Json) : Prop :=
  entry.1.key = Mapping.presetKey.key ∧ ∃ preset : Preset, entry.2 = .str preset.name

def Tells (options : RenderOptions) (entry : MappingKey × Json) : Prop :=
  ∃ part : Part, entry.1.key.Names part ∧ entry.2 = options.part part

structure Faithful (options : RenderOptions) (mapping : Mapping) : Prop where
  once : (mapping.map fun entry => entry.1.key.part?).Nodup
  entries : ∀ entry ∈ mapping, options.Tells entry ∨ IsPreset entry
  complete : ∀ part, ∃ entry ∈ mapping, entry.1.key.Names part

section Faithful

variable {options : RenderOptions} {mapping rest : Mapping}

theorem toMapping_eq_parts (options : RenderOptions) :
    options.toMapping =
      Part.all.map fun part => (⟨.text part.fieldName⟩, options.part part) := by rfl

theorem faithful_toMapping (options : RenderOptions) : Faithful options options.toMapping := by
  rw [toMapping_eq_parts]
  refine ⟨?_, fun entry member => ?_, fun part => ?_⟩
  · have parts : (fun part : Part => (Key.text part.fieldName).part?) = some :=
      funext fun part => (Key.part?_eq_some_iff ..).mpr (Key.names_fieldName part)
    rw [List.map_map]
    change (Part.all.map fun part : Part => (Key.text part.fieldName).part?).Nodup
    rw [parts]
    decide
  · obtain ⟨part, _, rfl⟩ := List.mem_map.mp member
    exact Or.inl ⟨part, Key.names_fieldName part, rfl⟩
  · exact ⟨_, List.mem_map_of_mem part.mem_all, Key.names_fieldName part⟩

theorem Faithful.reordered (faithful : Faithful options mapping) {other : Mapping}
    (perm : mapping.Perm other) : Faithful options other := by
  refine ⟨?_, fun entry member => ?_, fun part => ?_⟩
  · exact (perm.map _).nodup_iff.mp faithful.once
  · exact faithful.entries entry (perm.mem_iff.mpr member)
  · obtain ⟨entry, member, named⟩ := faithful.complete part
    exact ⟨entry, perm.mem_iff.mp member, named⟩

theorem Faithful.renamed {key other : MappingKey} {part : Part} {value : Json}
    (faithful : Faithful options ((key, value) :: rest)) (named : key.key.Names part)
    (also : other.key.Names part) : Faithful options ((other, value) :: rest) := by
  have same : other.key.part? = key.key.part? := by
    rw [(Key.part?_eq_some_iff ..).mpr named, (Key.part?_eq_some_iff ..).mpr also]
  refine ⟨?_, List.forall_mem_cons.mpr ⟨?_, fun entry member => ?_⟩, fun wanted => ?_⟩
  · have once := faithful.once
    rw [List.map_cons] at once ⊢
    rw [same]
    exact once
  · rcases faithful.entries _ List.mem_cons_self with ⟨own, ownNamed, told⟩ | ⟨preset, _⟩
    · exact Or.inl ⟨part, also, named.unique ownNamed ▸ told⟩
    · exact absurd (preset ▸ named) (Mapping.presetKey_names_nothing part)
  · exact faithful.entries entry (List.mem_cons_of_mem _ member)
  · obtain ⟨entry, member, found⟩ := faithful.complete wanted
    rcases List.mem_cons.mp member with rfl | later
    · exact ⟨_, List.mem_cons_self, found.unique named ▸ also⟩
    · exact ⟨entry, List.mem_cons_of_mem _ later, found⟩

theorem Faithful.begun (faithful : Faithful options rest) (preset : Preset)
    (absent : ∀ entry ∈ rest, entry.1.key ≠ Mapping.presetKey.key) :
    Faithful options ((Mapping.presetKey, .str preset.name) :: rest) := by
  refine ⟨?_, List.forall_mem_cons.mpr ⟨Or.inr ⟨rfl, preset, rfl⟩, faithful.entries⟩,
    fun part => ?_⟩
  · rw [List.map_cons, List.nodup_cons]
    refine ⟨fun member => ?_, faithful.once⟩
    obtain ⟨entry, inside, unnamed⟩ := List.mem_map.mp member
    rcases faithful.entries entry inside with ⟨part, named, _⟩ | ⟨again, _⟩
    · have found := (Key.part?_eq_some_iff ..).mpr named
      exact Mapping.presetKey_names_nothing part
        ((Key.part?_eq_some_iff ..).mp (unnamed.symm.trans found))
    · exact absent entry inside again
  · obtain ⟨entry, member, named⟩ := faithful.complete part
    exact ⟨entry, List.mem_cons_of_mem _ member, named⟩

/-- Where the changed entry stands makes no difference, so it is taken to the front. -/
theorem Presentation.faithful (known : Presentation options mapping) :
    Faithful options mapping := by
  induction known with
  | written => exact faithful_toMapping options
  | reordered _ perm ih => exact ih.reordered perm
  | @renamed front behind part value _ ih =>
    have renamed : Faithful options ((⟨.text part.displayName⟩, value) :: (front ++ behind)) :=
      (ih.reordered List.perm_middle).renamed (Key.names_fieldName part)
        (Key.names_displayName part)
    exact renamed.reordered List.perm_middle.symm
  | begun preset _ absent ih => exact (ih.begun preset absent).reordered List.perm_middle.symm

theorem Faithful.proper (faithful : Faithful options mapping) : mapping.Proper := by
  refine List.pairwise_map.mpr ((List.pairwise_map.mp faithful.once).imp fun {a b} apart => ?_)
  exact Bool.eq_false_iff.mpr fun same => apart (Key.part?_of_same same)

theorem Faithful.starts (faithful : Faithful options mapping) :
    ∃ preset, Starts mapping preset := by
  cases found : mapping.get? Mapping.presetKey with
  | none => exact ⟨_, .unnamed found⟩
  | some value =>
    obtain ⟨entry, member, own, rfl⟩ := Mapping.mem_of_get?_preset found
    rcases faithful.entries entry member with ⟨part, named, _⟩ | ⟨_, preset, told⟩
    · exact absurd (own ▸ named) (Mapping.presetKey_names_nothing part)
    · exact ⟨preset, .named (told ▸ found)⟩

theorem Faithful.admissible (faithful : Faithful options mapping) :
    ∀ entry ∈ mapping, Admissible entry := by
  intro entry member other
  rcases faithful.entries entry member with ⟨part, named, told⟩ | ⟨own, _⟩
  · exact ⟨part, named, told ▸ options.takes_part part⟩
  · exact absurd own other

theorem Faithful.lastNamed? (faithful : Faithful options mapping) (part : Part) :
    lastNamed? mapping part = some (options.part part) := by
  unfold RenderOptions.lastNamed?
  cases last : mapping.reverse.find? fun entry => entry.1.key.Names part with
  | none =>
    obtain ⟨entry, member, named⟩ := faithful.complete part
    have unnamed := List.find?_eq_none.mp last entry (List.mem_reverse.mpr member)
    exact absurd (decide_eq_true named) unnamed
  | some entry =>
    have found := List.find?_some last
    have named : entry.1.key.Names part := of_decide_eq_true found
    have member := List.mem_reverse.mp (List.mem_of_find?_eq_some last)
    rcases faithful.entries entry member with ⟨own, ownNamed, told⟩ | ⟨preset, _⟩
    · rw [named.unique ownNamed, ← told]
      rfl
    · exact absurd (preset ▸ named) (Mapping.presetKey_names_nothing part)

theorem Faithful.read (faithful : Faithful options mapping) : ofMapping mapping = .ok options := by
  obtain ⟨preset, starts⟩ := faithful.starts
  obtain ⟨found, read, fields⟩ := ofMapping_admissible faithful.proper starts faithful.admissible
  rw [read]
  congr 1
  apply ext_parts
  intro part
  rw [fields, faithful.lastNamed?]
  rfl

end Faithful

/-- Options are read back from each of their presentations, and written again as before. -/
theorem presentations_read_back (options : RenderOptions) :
    (∀ mapping, Presentation options mapping →
      mapping.Proper ∧ ofMapping mapping = .ok options) ∧
    (ofMapping options.toMapping).map toMapping = .ok options.toMapping := by
  constructor
  · intro mapping known
    exact ⟨known.faithful.proper, known.faithful.read⟩
  · rw [ofMapping_toMapping]
    rfl

section Sample

def prefixless : RenderOptions := ⟨⟨false, true, false, true, false⟩, ""⟩

def presentedPrefixless : Mapping := [
  ("commentPrefix", ""), ("showEnvVariableValues", .bool false), ("json", .bool true),
  ("preset", "concise"), ("formatted", .bool false), ("comments", .bool true),
  ("origin_comments", .bool false)]

theorem prefixless_read_back :
    presentedPrefixless.Proper ∧ ofMapping presentedPrefixless = .ok prefixless := by
  have reversed : Presentation prefixless prefixless.toMapping.reverse :=
    .reordered .written (List.reverse_perm _).symm
  have prefixRenamed : Presentation prefixless
      (("commentPrefix", "") :: prefixless.toMapping.reverse.tail) :=
    @Presentation.renamed prefixless [] _ .commentPrefix "" reversed
  have flagRenamed : Presentation prefixless (("commentPrefix", "") ::
      ("showEnvVariableValues", .bool false) :: prefixless.toMapping.reverse.drop 2) :=
    @Presentation.renamed prefixless [("commentPrefix", "")] _ (.flag .showEnvVariableValues) _
      prefixRenamed
  have begun : Presentation prefixless presentedPrefixless :=
    @Presentation.begun prefixless (presentedPrefixless.take 3) (presentedPrefixless.drop 4)
      .concise flagRenamed (by decide)
  exact (presentations_read_back prefixless).1 _ begun

end Sample

end RenderOptions
end HoconRender
