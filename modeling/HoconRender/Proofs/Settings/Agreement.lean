import HoconRender.Proofs.Options.EntryOrder
import HoconRender.Proofs.Settings.Verdicts

/-
Two ways from one object to options: its members are applied one after another as the entries of a
mapping, or they are looked up as the fields of settings. Where each member has the name of a field
and a value that stands for itself, both ways lead to the same options, in whatever order.
-/
namespace HoconRender

def Members.toMapping (members : Members) : Mapping :=
  members.map fun (name, value) => (⟨.text name⟩, value)

/-- Members that both ways take as they are. -/
inductive Direct : Text × Json → Prop where
  | preset (preset : Preset) : Direct (Text.ofString "preset", .str preset.name)
  | flag (flag : Flag) (value : Bool) : Direct (flag.fieldName, .bool value)
  | commentPrefix {t : Text} (characters : t.WellFormed) (present : t ≠ []) :
      Direct (Text.ofString "comment_prefix", .str t)

namespace Direct

variable {key : Text} {value : Json}

theorem named (direct : Direct (key, value)) {part : Part} (names : (Key.text key).Names part) :
    key = part.fieldName ∧ part.takes value = true := by
  cases direct with
  | preset => exact absurd names (Mapping.presetKey_names_nothing part)
  | flag flag b =>
    cases names.unique (Key.names_fieldName (.flag flag))
    exact ⟨rfl, rfl⟩
  | commentPrefix =>
    cases names.unique (Key.names_fieldName .commentPrefix)
    exact ⟨rfl, rfl⟩

theorem admissible (direct : Direct (key, value)) :
    RenderOptions.Admissible (⟨.text key⟩, value) := by
  intro other
  cases direct with
  | preset => exact absurd rfl other
  | flag flag b => exact ⟨.flag flag, Key.names_fieldName (.flag flag), rfl⟩
  | commentPrefix => exact ⟨.commentPrefix, Key.names_fieldName .commentPrefix, rfl⟩

theorem accepted (direct : Direct (key, value)) {field : Field} (own : key ∈ field.keys) :
    field.Accepts value := by
  cases direct with
  | preset preset =>
    obtain rfl := Field.keys_apart own (by decide : _ ∈ Field.preset.keys)
    exact .preset preset
  | flag flag b =>
    have also : flag.fieldName ∈ (Field.switch flag).keys := by cases flag <;> decide
    obtain rfl := Field.keys_apart own also
    exact .bool flag b
  | commentPrefix characters present =>
    obtain rfl := Field.keys_apart own (by decide : _ ∈ Field.commentPrefix.keys)
    exact .text characters present

theorem not_second_key (direct : Direct (key, value)) : key ≠ Text.ofString "json_syntax" := by
  cases direct with
  | preset => decide
  | flag flag => cases flag <;> decide
  | commentPrefix => decide

end Direct

namespace Members

theorem proper_toMapping {members : Members} (distinct : (Entries.keys members).Nodup) :
    members.toMapping.Proper := by
  unfold Mapping.Proper toMapping Entries.keys
  rw [List.map_map, List.pairwise_map]
  refine (List.pairwise_map.mp distinct).imp fun apart => Bool.eq_false_iff.mpr fun same => ?_
  exact apart (Key.text.inj ((Key.same_text_iff ..).mp same))

theorem get?_toMapping (members : Members) (name : Text) :
    members.toMapping.get? ⟨.text name⟩ = Entries.get? members name := by
  induction members with
  | nil => rfl
  | cons member rest ih =>
    obtain ⟨key, value⟩ := member
    by_cases same : key = name
    · subst name
      have found : ((⟨.text key⟩ : MappingKey) == ⟨.text key⟩) = true :=
        (Key.same_text_iff ..).mpr rfl
      simp [toMapping, Entries.get?, found]
    · have passed : ((⟨.text key⟩ : MappingKey) == ⟨.text name⟩) = false :=
        Bool.eq_false_iff.mpr fun found => same (Key.text.inj ((Key.same_text_iff ..).mp found))
      simpa [toMapping, Entries.get?, passed, same] using ih

variable {members : Members} (direct : ∀ member ∈ members, Direct member)

include direct

theorem namedOnce_toMapping (distinct : (Entries.keys members).Nodup) :
    RenderOptions.NamedOnce members.toMapping := by
  unfold RenderOptions.NamedOnce toMapping List.Nodup
  rw [List.filterMap_map, List.pairwise_filterMap]
  refine (List.pairwise_map.mp distinct).imp_of_mem fun {a b} left right apart => ?_
  intro part own another also same
  rw [Function.comp_apply, Key.part?_eq_some_iff] at own also
  have first := ((direct a left).named own).1
  have second := ((direct b right).named also).1
  exact apart (first.trans (same ▸ second.symm))

theorem lastNamed?_toMapping (distinct : (Entries.keys members).Nodup) (part : Part) :
    RenderOptions.lastNamed? members.toMapping part = Entries.get? members part.fieldName := by
  apply Option.ext
  intro value
  rw [(namedOnce_toMapping direct distinct).lastNamed?_iff]
  constructor
  · rintro ⟨entry, member, named, rfl⟩
    obtain ⟨⟨key, value⟩, inside, rfl⟩ := List.mem_map.mp member
    obtain ⟨rfl, _⟩ := (direct _ inside).named named
    exact Entries.get?_of_mem distinct inside
  · intro found
    exact ⟨_, List.mem_map_of_mem (Entries.mem_of_get? found), Key.names_fieldName part, rfl⟩

theorem admissible_toMapping :
    ∀ entry ∈ members.toMapping, RenderOptions.Admissible entry := by
  intro entry member
  obtain ⟨inside, known, rfl⟩ := List.mem_map.mp member
  exact (direct inside known).admissible

theorem takes_of_direct {part : Part} {value : Json}
    (found : Entries.get? members part.fieldName = some value) : part.takes value = true :=
  ((direct _ (Entries.mem_of_get? found)).named (Key.names_fieldName part)).2

theorem valid_of_direct (field : Field) : field.Valid members := by
  intro key value found
  obtain ⟨name, own, looked⟩ := List.exists_of_findSome?_eq_some found
  obtain ⟨held, present, same⟩ := Option.map_eq_some_iff.mp looked
  cases same
  exact (direct _ (Entries.mem_of_get? present)).accepted own

theorem value?_switch (flag : Flag) :
    (Field.switch flag).value? (Entries.get? members) = Entries.get? members flag.fieldName := by
  cases flag with
  | json =>
    have second : Entries.get? members (Text.ofString "json_syntax") = none := by
      rw [Entries.get?_eq_none_iff]
      intro member
      obtain ⟨⟨key, value⟩, inside, same⟩ := List.mem_map.mp member
      exact (direct _ inside).not_second_key same
    change [Text.ofString "json", Text.ofString "json_syntax"].findSome? (Entries.get? members) = _
    rw [List.findSome?_cons, List.findSome?_singleton, second]
    cases found : Entries.get? members (Text.ofString "json") <;> exact found.symm
  | _ => exact List.findSome?_singleton

end Members

namespace RenderSettings

variable {members : Members} {settings : RenderSettings}

theorem starts_toMapping
    (settles : Settles (fun field => field.value? (Entries.get? members)) settings) :
    RenderOptions.Starts members.toMapping settings.preset := by
  have taken := settles.preset
  have value : Field.preset.value? (Entries.get? members) =
      members.toMapping.get? Mapping.presetKey :=
    List.findSome?_singleton.trans (members.get?_toMapping _).symm
  rw [value] at taken
  cases found : members.toMapping.get? Mapping.presetKey with
  | none =>
    rw [found] at taken
    have unset : Preset.defaults = settings.preset := Except.ok.inj taken
    exact unset ▸ .unnamed found
  | some value =>
    rw [found] at taken
    exact .named (found.trans (congrArg some ((presetOf_ok_iff value _).mp taken)))

theorem toOptions_part (direct : ∀ member ∈ members, Direct member)
    (settles : Settles (fun field => field.value? (Entries.get? members)) settings) (part : Part) :
    settings.toOptions.part part =
      (Entries.get? members part.fieldName).getD (settings.preset.options.part part) := by
  cases part with
  | flag flag =>
    have taken := settles.switch flag
    rw [Members.value?_switch direct] at taken
    change Json.bool (settings.toOptions.get flag) = (Entries.get? members flag.fieldName).getD _
    rw [toOptions_get]
    cases found : Entries.get? members flag.fieldName with
    | none =>
      rw [found] at taken
      rw [← Except.ok.inj taken]
      rfl
    | some value =>
      have takes : (Part.flag flag).takes value = true := Members.takes_of_direct direct found
      cases value with
      | bool b =>
        rw [found] at taken
        rw [← Except.ok.inj taken]
        rfl
      | _ => cases takes
  | commentPrefix =>
    have taken := settles.commentPrefix
    have looked : Field.commentPrefix.value? (Entries.get? members) =
        Entries.get? members Part.commentPrefix.fieldName := List.findSome?_singleton
    rw [looked] at taken
    change Json.str settings.toOptions.commentPrefix = _
    rw [toOptions_commentPrefix]
    cases found : Entries.get? members Part.commentPrefix.fieldName with
    | none =>
      rw [found] at taken
      rw [← Except.ok.inj taken]
      rfl
    | some value =>
      have takes := Members.takes_of_direct direct found
      cases value with
      | str t =>
        rw [found] at taken
        rw [commentPrefixOf_str_ok taken]
        rfl
      | _ => cases takes

end RenderSettings

/-- Members that both ways take as they are come to the same options. -/
theorem readings_agree {members : Members} (distinct : (Entries.keys members).Nodup)
    (direct : ∀ member ∈ members, Direct member) :
    ∃ settings, RenderSettings.ofMembers members = .ok settings ∧
      RenderOptions.ofMapping members.toMapping = .ok settings.toOptions := by
  obtain ⟨settings, read⟩ :=
    (RenderSettings.ofMembers_succeeds_iff members).mpr (Members.valid_of_direct direct)
  have settles := (RenderSettings.ofMembers_ok_iff ..).mp read
  refine ⟨settings, read, (RenderOptions.ofMapping_ok_iff (Members.proper_toMapping distinct) _).mpr
    ⟨settings.preset, RenderSettings.starts_toMapping settles,
      Members.admissible_toMapping direct, fun part => ?_⟩⟩
  rw [Members.lastNamed?_toMapping direct distinct]
  exact RenderSettings.toOptions_part direct settles part

section Sample

def directMembers : Members := [
  ("json", .bool false), ("comment_prefix", "//"), ("comments", .bool true),
  ("preset", "concise"), ("formatted", .bool false)]

theorem direct_members_agree :
    ∃ settings, RenderSettings.ofMembers directMembers = .ok settings ∧
      RenderOptions.ofMapping directMembers.toMapping = .ok settings.toOptions ∧
      settings.toOptions = ⟨⟨false, true, false, false, true⟩, Text.ofString "//"⟩ := by
  have direct : ∀ member ∈ directMembers, Direct member := by
    simp only [directMembers, List.forall_mem_cons, List.not_mem_nil, IsEmpty.forall_iff,
      implies_true, and_true]
    exact ⟨.flag .json false, .commentPrefix (by decide) (by decide), .flag .comments true,
      .preset .concise, .flag .formatted false⟩
  obtain ⟨settings, read, same⟩ := readings_agree (by decide : (Entries.keys directMembers).Nodup)
    direct
  have known : RenderSettings.ofMembers directMembers = .ok ⟨.concise,
      ⟨none, some true, some false, some false, none⟩, some "//"⟩ := by decide
  obtain rfl := Except.ok.inj (known.symm.trans read)
  exact ⟨_, read, same, by decide⟩

end Sample

end HoconRender
