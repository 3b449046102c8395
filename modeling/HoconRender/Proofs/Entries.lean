import HoconRender.Entries

/-
Lookups and keys of ordered mappings after a key is written. A mapping that has each of its keys
once keeps them so, and a new key stands behind the old ones.
-/
namespace HoconRender.Entries

variable {κ α : Type} [BEq κ] [LawfulBEq κ]

theorem get?_put [DecidableEq κ] (entries : Entries κ α) (key other : κ) (a : α) :
    get? (put entries key a) other = if key = other then some a else get? entries other := by
  by_cases same : key = other
  · subst other
    simp [get?_put_same]
  · simp [same, get?_put_other entries a same]

theorem get?_eq_none_iff (entries : Entries κ α) (key : κ) :
    get? entries key = none ↔ key ∉ keys entries := by
  induction entries with
  | nil => simp [get?, keys]
  | cons entry rest ih =>
    obtain ⟨k, a⟩ := entry
    by_cases same : k = key
    · subst k
      simp [get?, keys]
    · have tail : get? ((k, a) :: rest) key = get? rest key := by simp [get?, same]
      rw [tail, ih]
      simp [keys, Ne.symm same]

omit [LawfulBEq κ] in
theorem get?_append (first second : Entries κ α) (key : κ) :
    get? (first ++ second) key = (get? first key).or (get? second key) := by
  induction first with
  | nil => rfl
  | cons entry rest ih =>
    obtain ⟨k, a⟩ := entry
    by_cases same : (k == key) = true
    · simp [get?, same]
    · simp [get?, same, ih]

theorem get?_filter (entries : Entries κ α) (keep : κ → Bool) (key : κ) :
    get? (entries.filter fun entry => keep entry.1) key =
      if keep key then get? entries key else none := by
  induction entries with
  | nil => simp [get?]
  | cons entry rest ih =>
    obtain ⟨k, a⟩ := entry
    by_cases same : k = key
    · subst k
      cases kept : keep key with
      | true => simp [get?, kept]
      | false => simpa [kept] using ih
    · cases kept : keep k with
      | true => simpa [get?, kept, same] using ih
      | false => simpa [get?, kept, same] using ih

theorem mem_of_get? {entries : Entries κ α} {key : κ} {a : α}
    (found : get? entries key = some a) : (key, a) ∈ entries := by
  induction entries with
  | nil => simp [get?] at found
  | cons entry rest ih =>
    obtain ⟨k, b⟩ := entry
    by_cases same : k = key
    · subst k
      have value : b = a := by simpa [get?] using found
      simp [value]
    · have later : get? rest key = some a := by simpa [get?, same] using found
      exact List.mem_cons_of_mem _ (ih later)

theorem get?_of_mem {entries : Entries κ α} (distinct : (keys entries).Nodup) {key : κ} {a : α}
    (member : (key, a) ∈ entries) : get? entries key = some a := by
  induction entries with
  | nil => cases member
  | cons entry rest ih =>
    obtain ⟨k, b⟩ := entry
    obtain ⟨fresh, later⟩ := List.nodup_cons.mp distinct
    rcases List.mem_cons.mp member with same | behind
    · cases same
      simp [get?]
    · have apart : k ≠ key := by
        rintro rfl
        have again : k ∈ keys rest := List.mem_map_of_mem behind
        exact fresh again
      simpa [get?, apart] using ih later behind

omit [BEq κ] [LawfulBEq κ] in
theorem keys_perm {first second : Entries κ α} (perm : first.Perm second) :
    (keys first).Perm (keys second) := perm.map Prod.fst

theorem get?_perm {first second : Entries κ α} (perm : first.Perm second)
    (distinct : (keys first).Nodup) (key : κ) : get? first key = get? second key := by
  cases found : get? first key with
  | some a =>
    have reordered := (keys_perm perm).nodup_iff.mp distinct
    exact (get?_of_mem reordered (perm.mem_iff.mp (mem_of_get? found))).symm
  | none =>
    symm
    rw [get?_eq_none_iff] at found ⊢
    exact mt (keys_perm perm).mem_iff.mpr found

/-- Under other keys, the first entry whose key becomes the one that is looked up answers. -/
theorem get?_rekeyed {ι : Type} [BEq ι] [LawfulBEq ι] (rekey : ι → κ) (entries : Entries ι α)
    (key : κ) :
    get? (entries.map fun entry => (rekey entry.1, entry.2)) key =
      ((keys entries).find? fun k => rekey k == key).bind (get? entries) := by
  induction entries with
  | nil => rfl
  | cons entry rest ih =>
    obtain ⟨k, a⟩ := entry
    by_cases same : rekey k = key
    · simp [get?, keys, same]
    · have later : (keys ((k, a) :: rest)).find? (fun k => rekey k == key) =
          (keys rest).find? fun k => rekey k == key := by
        simp [keys, same]
      have behind : get? (((k, a) :: rest).map fun entry => (rekey entry.1, entry.2)) key =
          get? (rest.map fun entry => (rekey entry.1, entry.2)) key := by
        simp [get?, same]
      rw [later, behind, ih]
      cases first : (keys rest).find? fun k => rekey k == key with
      | none => rfl
      | some other =>
        have apart : k ≠ other := by
          rintro rfl
          exact same (by simpa using List.find?_some first)
        simp [get?, apart]

theorem ext_get? {first second : Entries κ α} (same : keys first = keys second)
    (distinct : (keys first).Nodup) (alike : ∀ key, get? first key = get? second key) :
    first = second := by
  induction first generalizing second with
  | nil => exact (List.map_eq_nil_iff.mp same.symm).symm
  | cons entry rest ih =>
    obtain ⟨key, a⟩ := entry
    cases second with
    | nil => cases same
    | cons other more =>
      obtain ⟨k, b⟩ := other
      obtain ⟨rfl, later⟩ := List.cons.inj same
      obtain ⟨fresh, distinct⟩ := List.nodup_cons.mp distinct
      obtain rfl : a = b := by simpa [get?] using alike key
      congr 1
      refine ih later distinct fun name => ?_
      by_cases front : key = name
      · subst name
        rw [(get?_eq_none_iff rest key).mpr fresh]
        exact ((get?_eq_none_iff more key).mpr fun member => fresh (later ▸ member)).symm
      · simpa [get?, front] using alike name

theorem mem_put {entries : Entries κ α} {key : κ} {a : α} {entry : κ × α}
    (member : entry ∈ put entries key a) : entry ∈ entries ∨ entry = (key, a) := by
  induction entries with
  | nil => exact Or.inr (by simpa [put] using member)
  | cons first rest ih =>
    obtain ⟨k, b⟩ := first
    by_cases same : k = key
    · subst k
      simp only [put, beq_self_eq_true, ↓reduceIte, List.mem_cons] at member
      rcases member with written | kept
      · exact Or.inr written
      · exact Or.inl (List.mem_cons_of_mem _ kept)
    · have other : (k == key) = false := beq_eq_false_iff_ne.mpr same
      simp only [put, other, Bool.false_eq_true, ↓reduceIte, List.mem_cons] at member
      rcases member with front | later
      · exact Or.inl (List.mem_cons.mpr (Or.inl front))
      · rcases ih later with kept | written
        · exact Or.inl (List.mem_cons_of_mem _ kept)
        · exact Or.inr written

theorem mem_ofList {assignments : List (κ × α)} {entry : κ × α}
    (member : entry ∈ ofList assignments) : entry ∈ assignments := by
  have folded (entries : Entries κ α)
      (present : entry ∈ assignments.foldl (fun all next => put all next.1 next.2) entries) :
      entry ∈ entries ∨ entry ∈ assignments := by
    clear member
    induction assignments generalizing entries with
    | nil => exact Or.inl present
    | cons first rest ih =>
      rcases ih (put entries first.1 first.2) present with before | later
      · rcases mem_put before with old | new
        · exact Or.inl old
        · exact Or.inr (List.mem_cons.mpr (Or.inl new))
      · exact Or.inr (List.mem_cons_of_mem _ later)
  rcases folded [] member with none | assigned
  · cases none
  · exact assigned

section AnyKeys

omit [LawfulBEq κ]

theorem isSome_get? (entries : Entries κ α) (key : κ) :
    (get? entries key).isSome = (keys entries).any (· == key) := by
  induction entries with
  | nil => rfl
  | cons entry rest ih =>
    obtain ⟨k, b⟩ := entry
    unfold keys at ih ⊢
    by_cases same : (k == key) = true
    · simp [get?, same]
    · simp [get?, same, ih]

/-- A key that is there keeps its place and its spelling, and a new one stands behind the others. -/
theorem keys_put (entries : Entries κ α) (key : κ) (a : α) :
    keys (put entries key a) =
      if (keys entries).any (· == key) then keys entries else keys entries ++ [key] := by
  induction entries with
  | nil => rfl
  | cons entry rest ih =>
    obtain ⟨k, b⟩ := entry
    unfold keys at ih ⊢
    by_cases same : (k == key) = true
    · simp [put, same]
    · by_cases later : (rest.map (·.1)).any (· == key) = true
      · simp [put, same, ih, later]
      · simp [put, same, ih, later]

theorem put_fresh {entries : Entries κ α} {key : κ} (a : α)
    (fresh : ∀ known ∈ keys entries, (known == key) = false) :
    put entries key a = entries ++ [(key, a)] := by
  induction entries with
  | nil => rfl
  | cons entry rest ih =>
    obtain ⟨k, b⟩ := entry
    have apart : (k == key) = false := fresh k List.mem_cons_self
    have behind := ih fun known member => fresh known (List.mem_cons_of_mem k member)
    simp [put, apart, behind]

end AnyKeys

theorem keys_put_present {entries : Entries κ α} {key : κ} (a : α)
    (present : key ∈ keys entries) : keys (put entries key a) = keys entries := by
  have found : (keys entries).any (· == key) = true := by simpa using present
  rw [keys_put, if_pos found]

theorem keys_put_absent {entries : Entries κ α} {key : κ} (a : α)
    (absent : key ∉ keys entries) : keys (put entries key a) = keys entries ++ [key] := by
  have missing : ¬ (keys entries).any (· == key) = true := by simpa using absent
  rw [keys_put, if_neg missing]

theorem put_absent {entries : Entries κ α} {key : κ} (a : α) (absent : key ∉ keys entries) :
    put entries key a = entries ++ [(key, a)] := by
  apply put_fresh
  intro known member
  exact beq_eq_false_iff_ne.mpr fun same => absent (same ▸ member)

omit [BEq κ] [LawfulBEq κ] in
theorem not_mem_keys_front {front behind : Entries κ α} {key : κ} {a : α}
    (distinct : (keys (front ++ (key, a) :: behind)).Nodup) : key ∉ keys front := by
  intro member
  unfold keys at distinct member
  rw [List.map_append, List.map_cons, List.nodup_append] at distinct
  exact distinct.2.2 key member key List.mem_cons_self rfl

theorem get?_ofList (assignments : List (κ × α)) (key : κ) :
    get? (ofList assignments) key = get? assignments.reverse key := by
  have folded (entries : Entries κ α) :
      get? (assignments.foldl (fun all next => put all next.1 next.2) entries) key =
        (get? assignments.reverse key).or (get? entries key) := by
    induction assignments generalizing entries with
    | nil => rfl
    | cons first rest ih =>
      rw [List.foldl_cons, ih, List.reverse_cons, get?_append, Option.or_assoc]
      congr 1
      by_cases same : first.1 = key
      · subst key
        simp [get?_put_same, get?]
      · simp [get?_put_other entries first.2 same, get?, same]
  have whole := folded []
  rw [show get? ([] : Entries κ α) key = none from rfl, Option.or_none] at whole
  exact whole

theorem filter_put (entries : Entries κ α) (keep : κ → Bool) (key : κ) (a : α) :
    (put entries key a).filter (fun entry => keep entry.1) =
      if keep key then put (entries.filter fun entry => keep entry.1) key a
      else entries.filter fun entry => keep entry.1 := by
  induction entries with
  | nil => cases kept : keep key <;> simp [put, kept]
  | cons entry rest ih =>
    obtain ⟨k, b⟩ := entry
    by_cases same : k = key
    · subst k
      cases kept : keep key <;> simp [put, kept]
    · cases own : keep k <;> cases kept : keep key <;> simp [put, same, own, kept, ih]

theorem filter_ofList (assignments : List (κ × α)) (keep : κ → Bool) :
    (ofList assignments).filter (fun entry => keep entry.1) =
      ofList (assignments.filter fun entry => keep entry.1) := by
  have folded (entries : Entries κ α) :
      (assignments.foldl (fun all next => put all next.1 next.2) entries).filter
          (fun entry => keep entry.1) =
        (assignments.filter fun entry => keep entry.1).foldl
          (fun all next => put all next.1 next.2) (entries.filter fun entry => keep entry.1) := by
    induction assignments generalizing entries with
    | nil => rfl
    | cons first rest ih =>
      rw [List.foldl_cons, ih, filter_put]
      cases kept : keep first.1 <;> simp [kept]
  exact folded []

theorem ofList_distinct {assignments : Entries κ α} (distinct : (keys assignments).Nodup) :
    ofList assignments = assignments := by
  have folded (entries : Entries κ α) (apart : (keys (entries ++ assignments)).Nodup) :
      assignments.foldl (fun all next => put all next.1 next.2) entries =
        entries ++ assignments := by
    clear distinct
    induction assignments generalizing entries with
    | nil => exact (List.append_nil entries).symm
    | cons first rest ih =>
      obtain ⟨key, a⟩ := first
      have absent := not_mem_keys_front apart
      have front : entries ++ (key, a) :: rest = (entries ++ [(key, a)]) ++ rest := by simp
      rw [List.foldl_cons, put_absent a absent, front]
      exact ih (entries ++ [(key, a)]) (front ▸ apart)
  exact folded [] distinct

theorem erase_absent {entries : Entries κ α} {key : κ} (absent : key ∉ keys entries) :
    erase entries key = entries := by
  induction entries with
  | nil => rfl
  | cons entry rest ih =>
    obtain ⟨k, b⟩ := entry
    simp only [keys, List.map_cons, List.mem_cons, not_or] at absent
    simp [erase, Ne.symm absent.1, ih absent.2]

theorem nodup_keys_put {entries : Entries κ α} (key : κ) (a : α)
    (distinct : (keys entries).Nodup) : (keys (put entries key a)).Nodup := by
  by_cases present : key ∈ keys entries
  · rw [keys_put_present a present]
    exact distinct
  · rw [keys_put_absent a present, List.nodup_append]
    refine ⟨distinct, by simp, ?_⟩
    intro k member l last same
    have equal : l = key := by simpa using last
    subst l
    subst k
    exact present member

section Keyed

variable {ι : Type} {items : List ι} {key : ι → κ}

/-- The entries of the items that have a value, each under its own key. -/
def keyed (key : ι → κ) (value? : ι → Option α) (items : List ι) : Entries κ α :=
  items.filterMap fun item => (value? item).map fun value => (key item, value)

omit [BEq κ] [LawfulBEq κ] in
theorem keys_keyed_sublist (key : ι → κ) (value? : ι → Option α) (items : List ι) :
    (keys (keyed key value? items)).Sublist (items.map key) := by
  induction items with
  | nil => exact List.Sublist.slnil
  | cons item rest ih =>
    unfold keyed at ih ⊢
    cases found : value? item with
    | none => simpa [found] using ih.cons (key item)
    | some value => simpa [found, keys] using ih

theorem get?_keyed (distinct : (items.map key).Nodup) (value? : ι → Option α) {item : ι}
    (member : item ∈ items) : get? (keyed key value? items) (key item) = value? item := by
  induction items with
  | nil => simp at member
  | cons first rest ih =>
    simp only [List.map_cons, List.nodup_cons] at distinct
    have behind : item ∈ rest → get? (keyed key value? rest) (key item) = value? item :=
      ih distinct.2
    have absent : get? (keyed key value? rest) (key first) = none := by
      apply (get?_eq_none_iff ..).mpr
      intro inside
      exact distinct.1 ((keys_keyed_sublist key value? rest).subset inside)
    unfold keyed at behind absent ⊢
    rcases List.mem_cons.mp member with rfl | later
    · cases found : value? item with
      | none => simpa [found] using absent
      | some value => simp [found, get?]
    · have apart : key first ≠ key item := by
        intro same
        exact distinct.1 (same ▸ List.mem_map_of_mem later)
      cases found : value? first with
      | none => simpa [found] using behind later
      | some value => simpa [found, get?, apart] using behind later

end Keyed

end HoconRender.Entries
