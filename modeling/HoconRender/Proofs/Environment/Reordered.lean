import HoconRender.Proofs.Environment.Nested
import HoconRender.Proofs.Loading.BareWorld
import HoconRender.Proofs.Text.AsciiCapitals

/-
Variables in another order. The program reads its own ones by name, but for those that write a
single setting, and of these the order only shows in the order of keys. No two keys are the same
setting, since what is left of a name in lower case spells a setting exactly or not at all.
-/
namespace HoconRender.Environment

theorem dropHead?_some {head t rest : Text} (dropped : Text.dropHead? head t = some rest) :
    t = head ++ rest := by
  induction head generalizing t with
  | nil =>
    cases dropped
    rfl
  | cons h head ih =>
    cases t with
    | nil => cases dropped
    | cons c t =>
      unfold Text.dropHead? at dropped
      split at dropped
      · rename_i same
        rw [same, ih dropped]
        rfl
      · cases dropped

theorem nestedStart_own {name rest : Text} (nested : Text.dropHead? nestedStart name = some rest) :
    Text.startsWith name ownStart = true := by
  have start : nestedStart = ownStart ++ Text.ofString "render__" := by decide
  rw [start, Text.dropHead?_append] at nested
  unfold Text.startsWith
  cases own : Text.dropHead? ownStart name with
  | none => simp [own] at nested
  | some rest => rfl

def lowerNames (environment : Environment) : Environment :=
  environment.map fun entry => (entry.1.lower, entry.2)

def own (environment : Environment) : Environment :=
  environment.filter fun entry => Text.startsWith entry.1 ownStart

def written (environment : Environment) : Assignments :=
  environment.filterMap fun entry =>
    (Text.dropHead? nestedStart entry.1).map fun rest => (keyPath rest, entry.2)

/-- The same variables set in another order. Every variable is set once, and the names of the
program's own ones differ in more than case. -/
structure Reordered (first second : Environment) : Prop where
  perm : List.Perm first second
  once : (Entries.keys first).Nodup
  apart : (((Entries.keys first).map Text.lower).filter fun name =>
    Text.startsWith name ownStart).Nodup

section Own

variable {environment : Environment}

theorem get?_own {name : Text} (ours : Text.startsWith name ownStart = true) :
    Entries.get? environment.own name = Entries.get? environment name := by
  have found := Entries.get?_filter environment (fun name => Text.startsWith name ownStart) name
  rw [if_pos ours] at found
  exact found

theorem keys_own_lowerNames (environment : Environment) :
    Entries.keys environment.lowerNames.own =
      ((Entries.keys environment).map Text.lower).filter fun name =>
        Text.startsWith name ownStart := by
  induction environment with
  | nil => rfl
  | cons entry rest ih =>
    unfold own lowerNames Entries.keys at ih ⊢
    cases ours : Text.startsWith entry.1.lower ownStart <;> simp [ours, ih]

theorem own_lowered (apart : (Entries.keys environment.lowerNames.own).Nodup) :
    environment.lowered.own = environment.lowerNames.own :=
  (Entries.filter_ofList environment.lowerNames fun name => Text.startsWith name ownStart).trans
    (Entries.ofList_distinct apart)

theorem written_filter (environment : Environment) {keep : Text → Bool}
    (kept : ∀ {name rest}, Text.dropHead? nestedStart name = some rest → keep name = true) :
    written (environment.filter fun entry => keep entry.1) = environment.written := by
  unfold written
  rw [List.filterMap_filter]
  congr 1
  funext entry
  split
  · rfl
  · rename_i dropped
    cases nested : Text.dropHead? nestedStart entry.1 with
    | none => rfl
    | some rest => exact absurd (kept nested) dropped

theorem written_own (environment : Environment) :
    environment.own.written = environment.written :=
  written_filter environment nestedStart_own

theorem nested_eq_assignAll (environment : Environment) :
    environment.nested = assignAll environment.written [] := by
  unfold nested assignAll written
  rw [List.foldl_filterMap]
  congr 1
  funext members entry
  obtain ⟨name, value⟩ := entry
  dsimp only
  cases Text.dropHead? nestedStart name <;> rfl

theorem written_distinct (distinct : (Entries.keys environment).Nodup) :
    (environment.written.map (·.1)).Nodup := by
  unfold Entries.keys List.Nodup at distinct
  unfold written List.Nodup
  rw [List.pairwise_map] at distinct ⊢
  refine distinct.filterMap _ fun entry other apart _ writes _ writesToo same => ?_
  obtain ⟨rest, dropped, rfl⟩ := Option.map_eq_some_iff.mp writes
  obtain ⟨tail, droppedToo, rfl⟩ := Option.map_eq_some_iff.mp writesToo
  apply apart
  rw [dropHead?_some dropped, dropHead?_some droppedToo, keyPath_injective same]

end Own

namespace Reordered

variable {first second : Environment} (reordered : first.Reordered second)
include reordered

theorem own_distinct : (Entries.keys first.lowered.own).Nodup := by
  have apart := reordered.apart
  rw [← keys_own_lowerNames] at apart
  rw [own_lowered apart]
  exact apart

theorem own_perm : List.Perm first.lowered.own second.lowered.own := by
  have apart := reordered.apart
  rw [← keys_own_lowerNames] at apart
  have perm : List.Perm first.lowerNames.own second.lowerNames.own :=
    (reordered.perm.map _).filter _
  rw [own_lowered apart, own_lowered ((Entries.keys_perm perm).nodup_iff.mp apart)]
  exact perm

theorem get?_lowered {name : Text} (ours : Text.startsWith name ownStart = true) :
    Entries.get? first.lowered name = Entries.get? second.lowered name := by
  rw [← get?_own ours, Entries.get?_perm reordered.own_perm reordered.own_distinct name,
    get?_own ours]

theorem debug? : first.debug? = second.debug? := by
  unfold Environment.debug?
  rw [reordered.get?_lowered (by decide)]

/-- Whatever the order, there is the same at every path, up to the order of keys. -/
theorem nested_at? (path : List Text) :
    ((Json.obj first.lowered.nested).at? path).map Json.outline =
      ((Json.obj second.lowered.nested).at? path).map Json.outline := by
  rw [nested_eq_assignAll, nested_eq_assignAll, ← written_own, ← written_own second.lowered]
  exact assignAll_perm (reordered.own_perm.filterMap _) (written_distinct reordered.own_distinct)
    path

theorem nested_outlines : Json.SameOutlines first.lowered.nested second.lowered.nested := by
  intro key
  have one (members : Members) : (Json.obj members).at? [key] = Entries.get? members key :=
    Option.bind_fun_some (Entries.get? members key)
  rw [← one, ← one]
  exact reordered.nested_at? [key]

end Reordered

section SettingKeys

theorem settingKeys_ascii : ∀ name ∈ settingKeys, ∀ c ∈ name, c < 0x80 := by decide

theorem settingKey_uncapital {name : Text} (uncapital : ∀ c ∈ name, ¬ Text.IsAsciiCapital c) :
    settingKey name = name := by
  unfold settingKey
  cases found : settingKeys.find? (· == name.lower) with
  | none => rfl
  | some key =>
    have same : key = name.lower := by simpa using List.find?_some found
    have ascii := settingKeys_ascii key (List.mem_of_find?_eq_some found)
    rw [Option.getD_some, same]
    rw [same] at ascii
    exact Text.lower_settled uncapital ascii

theorem nodup_keys_nested (environment : Environment) :
    (Entries.keys environment.nested).Nodup := by
  rw [nested_eq_assignAll]
  exact nodup_keys_assignAll _ List.nodup_nil

theorem settingKey_nested {environment : Environment} {key : Text}
    (member : key ∈ Entries.keys environment.lowered.nested) : settingKey key = key := by
  apply settingKey_uncapital
  intro c inside
  by_cases started : ∃ entry ∈ environment.lowered.written, key ∈ entry.1
  · obtain ⟨entry, writes, part⟩ := started
    obtain ⟨⟨name, value⟩, present, made⟩ := List.mem_filterMap.mp writes
    obtain ⟨rest, dropped, rfl⟩ := Option.map_eq_some_iff.mp made
    obtain ⟨⟨given, _⟩, _, same⟩ := List.mem_map.mp (Entries.mem_ofList present)
    cases same
    have whole : given.lower = nestedStart ++ rest := dropHead?_some dropped
    apply Text.lower_uncapital given
    rw [whole]
    exact List.mem_append_right _ (mem_of_mem_keyPath part inside)
  · have nothing := get?_assignAll_unstarted
      (fun entry writes part => started ⟨entry, writes, part⟩) []
    rw [← nested_eq_assignAll] at nothing
    exact absurd member ((Entries.get?_eq_none_iff ..).mp nothing)

theorem get?_underSettingKeys {members : Members} (distinct : (Entries.keys members).Nodup)
    (key : Text) :
    Entries.get? (underSettingKeys members) key =
      ((Entries.keys members).reverse.find? fun k => settingKey k == key).bind
        (Entries.get? members) := by
  have reversed : Entries.get? members.reverse = Entries.get? members := by
    funext other
    exact (Entries.get?_perm members.reverse_perm.symm distinct other).symm
  have keys : Entries.keys members.reverse = (Entries.keys members).reverse := List.map_reverse
  unfold underSettingKeys
  rw [Entries.get?_ofList, ← List.map_reverse, ← keys, ← reversed]
  exact Entries.get?_rekeyed settingKey members.reverse key

theorem find?_settled {keys : List Text} (settled : ∀ k ∈ keys, settingKey k = k) (key : Text) :
    (keys.find? fun k => settingKey k == key) = if key ∈ keys then some key else none := by
  induction keys with
  | nil => rfl
  | cons first rest ih =>
    obtain ⟨here, later⟩ := List.forall_mem_cons.mp settled
    by_cases same : first = key
    · subst first
      simp [here]
    · simp [here, same, Ne.symm same, ih later]

/-- Members with the same outlines, of which the keys in front are spelled in any way and stand in
one order, and those behind in lower case and in any order. -/
structure SameSettings (first second : Members) (front freshFirst freshSecond : List Text) :
    Prop where
  outlines : Json.SameOutlines first second
  distinctFirst : (Entries.keys first).Nodup
  distinctSecond : (Entries.keys second).Nodup
  keysFirst : Entries.keys first = front ++ freshFirst
  keysSecond : Entries.keys second = front ++ freshSecond
  settledFirst : ∀ k ∈ freshFirst, settingKey k = k
  settledSecond : ∀ k ∈ freshSecond, settingKey k = k

theorem mem_fresh_iff {members : Members} {front fresh : List Text} {key : Text}
    (distinct : (Entries.keys members).Nodup) (keys : Entries.keys members = front ++ fresh) :
    key ∈ fresh ↔ key ∈ Entries.keys members ∧ key ∉ front := by
  rw [keys] at distinct ⊢
  constructor
  · intro member
    exact ⟨List.mem_append_right _ member, fun inFront =>
      (List.nodup_append.mp distinct).2.2 key inFront key member rfl⟩
  · rintro ⟨member, apart⟩
    exact (List.mem_append.mp member).resolve_left apart

theorem last_spelling {front fresh : List Text} (settled : ∀ k ∈ fresh, settingKey k = k)
    (key : Text) :
    ((front ++ fresh).reverse.find? fun k => settingKey k == key) =
      (if key ∈ fresh then some key else none).or
        (front.reverse.find? fun k => settingKey k == key) := by
  rw [List.reverse_append, List.find?_append,
    find?_settled fun k member => settled k (List.mem_reverse.mp member)]
  simp only [List.mem_reverse]

theorem SameSettings.underSettingKeys {first second : Members}
    {front freshFirst freshSecond : List Text}
    (same : SameSettings first second front freshFirst freshSecond) :
    Json.SameOutlines (underSettingKeys first) (underSettingKeys second) := by
  intro key
  have fresh : key ∈ freshFirst ↔ key ∈ freshSecond := by
    rw [mem_fresh_iff same.distinctFirst same.keysFirst,
      mem_fresh_iff same.distinctSecond same.keysSecond, same.outlines.mem_keys_iff]
  rw [get?_underSettingKeys same.distinctFirst, get?_underSettingKeys same.distinctSecond,
    same.keysFirst, same.keysSecond, last_spelling same.settledFirst,
    last_spelling same.settledSecond]
  simp only [fresh]
  cases (if key ∈ freshSecond then some key else none).or
      (front.reverse.find? fun k => settingKey k == key) with
  | none => rfl
  | some read => exact same.outlines read

end SettingKeys

namespace Reordered

variable {first second : Environment} (reordered : first.Reordered second)
include reordered

theorem nested_alone : SameSettings first.lowered.nested second.lowered.nested []
    (Entries.keys first.lowered.nested) (Entries.keys second.lowered.nested) :=
  ⟨reordered.nested_outlines, nodup_keys_nested _, nodup_keys_nested _, rfl, rfl,
    fun _ => settingKey_nested, fun _ => settingKey_nested⟩

theorem nested_over {members : Members} (distinct : (Entries.keys members).Nodup) :
    ∃ freshFirst freshSecond, SameSettings (Json.merge members first.lowered.nested)
      (Json.merge members second.lowered.nested) (Entries.keys members) freshFirst freshSecond := by
  have among (environment : Environment) (k : Text)
      (member : k ∈ (Entries.keys environment.lowered.nested).filter fun key =>
        key ∉ Entries.keys members) : settingKey k = k :=
    settingKey_nested (List.mem_filter.mp member).1
  refine ⟨_, _, fun key => ?_, Json.nodup_keys_merge distinct _,
    Json.nodup_keys_merge distinct _, Json.keys_merge (nodup_keys_nested _) members,
    Json.keys_merge (nodup_keys_nested _) members, among first, among second⟩
  rw [Json.get?_merge (nodup_keys_nested _), Json.get?_merge (nodup_keys_nested _),
    Json.outline_layered, Json.outline_layered, Option.map_or, Option.map_or,
    reordered.nested_outlines key]

/-- The environment fails in the same way, or gives render settings with the same fields. -/
theorem render? :
    (∃ fault, first.render? = .error fault ∧ second.render? = .error fault) ∨
    ∃ below below', first.render? = .ok below ∧ second.render? = .ok below' ∧
      Json.SameFields below below' := by
  unfold Environment.render?
  dsimp only
  rw [reordered.get?_lowered (by decide)]
  cases Entries.get? second.lowered renderVariable with
  | none =>
    have alone := reordered.nested_alone.underSettingKeys
    dsimp only
    rw [reordered.nested_outlines.isEmpty_eq]
    split
    · exact Or.inr ⟨none, none, rfl, rfl, Json.SameFields.refl none⟩
    · exact Or.inr ⟨_, _, rfl, rfl, Json.sameFields_obj alone⟩
  | some text =>
    dsimp only
    cases read : Json.read text with
    | error stop => cases stop <;> exact Or.inl ⟨_, rfl, rfl⟩
    | ok value =>
      cases value with
      | obj members =>
        have distinct := Json.distinct_keys (Json.read_distinct read)
        obtain ⟨_, _, laid⟩ := reordered.nested_over distinct
        exact Or.inr ⟨_, _, rfl, rfl, Json.sameFields_obj laid.underSettingKeys⟩
      | _ => exact Or.inr ⟨_, _, rfl, rfl, Json.SameFields.refl _⟩

end Reordered

end HoconRender.Environment
