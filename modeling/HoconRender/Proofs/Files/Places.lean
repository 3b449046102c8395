import HoconRender.Files
import HoconRender.Proofs.Entries

/-
The places that names reach in a tree of files. What the names lead to depends on nothing but what
stands there: two trees that are the same at these places lead to the same, and where one of them
is taken away, the names lead to nothing.
-/
namespace HoconRender.Files

/-- The directories that names lead through and the place that the last of them stands for, be
there something or not. -/
def reached (files : Files) (location : Location) : List Text → List Location
  | [] => []
  | name :: rest =>
    if name = Path.parent then reached files location.dropLast rest
    else if nameLimit < nameSize name then []
    else
      let next := location ++ [name.stored]
      if files.node? next = some .directory then next :: reached files next rest
      else if rest.isEmpty then [next] else []

theorem reached_ne_root (files : Files) (location : Location) (names : List Text) :
    ∀ place ∈ files.reached location names, place ≠ [] := by
  induction names generalizing location with
  | nil => simp [reached]
  | cons name rest ih =>
    intro place member
    unfold reached at member
    dsimp only at member
    split at member
    · exact ih location.dropLast place member
    split at member
    · cases member
    split at member
    · rcases List.mem_cons.mp member with rfl | later
      · simp
      · exact ih _ place later
    split at member
    · rw [List.mem_singleton.mp member]
      simp
    · cases member

theorem walk_stuck {files : Files} {location : Location} {name : Text} {rest : List Text}
    (proper : name ≠ Path.parent) (short : ¬ nameLimit < nameSize name) (more : rest ≠ [])
    (noDirectory : files.node? (location ++ [name.stored]) ≠ some .directory) :
    files.walk location (name :: rest) = .absent := by
  unfold walk
  simp only [proper, short, ↓reduceIte]
  split
  · rfl
  · contradiction
  · rw [if_neg (by simp [more])]

theorem walk_agree {first second : Files} {location : Location} {names : List Text}
    (same : ∀ place, place ∈ first.reached location names ∨ place ∈ second.reached location names →
      second.node? place = first.node? place) :
    second.walk location names = first.walk location names := by
  induction names generalizing location with
  | nil => rfl
  | cons name rest ih =>
    unfold reached at same
    dsimp only at same
    by_cases up : name = Path.parent
    · unfold walk
      simp only [up, ↓reduceIte] at same ⊢
      exact ih same
    by_cases long : nameLimit < nameSize name
    · unfold walk
      simp only [up, long, ↓reduceIte]
    simp only [up, long, ↓reduceIte] at same
    by_cases agrees :
        second.node? (location ++ [name.stored]) = first.node? (location ++ [name.stored])
    · unfold walk
      simp only [up, long, ↓reduceIte]
      rw [agrees] at same ⊢
      cases found : first.node? (location ++ [name.stored]) with
      | none => rfl
      | some node =>
        cases node with
        | file bytes => rfl
        | directory =>
          simp only [found, ↓reduceIte, List.mem_cons] at same
          exact ih fun place member => same place (member.imp Or.inr Or.inr)
    · -- the names do not get here, so neither tree has a directory here, and names are to come
      have inFirst : first.node? (location ++ [name.stored]) ≠ some .directory := fun directory =>
        agrees (same _ (by simp [directory]))
      have inSecond : second.node? (location ++ [name.stored]) ≠ some .directory :=
        fun directory => agrees (same _ (by simp [directory]))
      have more : rest ≠ [] := fun last => agrees (same _ (by simp [inFirst, last]))
      rw [walk_stuck up long more inFirst, walk_stuck up long more inSecond]

theorem walk_absent {first second : Files} {location : Location} {names : List Text}
    (kept : ∀ place, second.node? place = first.node? place ∨ second.node? place = none)
    (lost : ∃ place ∈ first.reached location names, second.node? place = none) :
    second.walk location names = .absent := by
  induction names generalizing location with
  | nil =>
    obtain ⟨_, member, _⟩ := lost
    cases member
  | cons name rest ih =>
    unfold reached at lost
    unfold walk
    dsimp only at lost ⊢
    by_cases up : name = Path.parent
    · simp only [up, ↓reduceIte] at lost ⊢
      exact ih lost
    by_cases long : nameLimit < nameSize name
    · simp [up, long] at lost
    simp only [up, long, ↓reduceIte] at lost ⊢
    cases found : second.node? (location ++ [name.stored]) with
    | none => rfl
    | some node =>
      have held : first.node? (location ++ [name.stored]) = some node := by
        rcases kept (location ++ [name.stored]) with same | gone
        · rw [← same, found]
        · rw [gone] at found
          cases found
      cases node with
      | directory =>
        simp only [held, ↓reduceIte, List.mem_cons, exists_eq_or_imp] at lost
        exact ih (lost.resolve_left (by simp [found]))
      | file bytes =>
        obtain ⟨place, member, gone⟩ := lost
        simp only [held, Option.some.injEq, reduceCtorEq, ↓reduceIte] at member
        split at member
        · rw [List.mem_singleton.mp member, found] at gone
          cases gone
        · cases member

theorem mem_reached_of_walk {files : Files} {location place : Location} {front : List Text}
    {name : Text} {node : Node} (proper : name ≠ Path.parent)
    (leads : files.walk location (front ++ [name]) = .node node place) :
    place ∈ files.reached location (front ++ [name]) := by
  induction front generalizing location with
  | nil =>
    rw [List.nil_append] at leads ⊢
    unfold walk at leads
    unfold reached
    simp only [proper, ↓reduceIte] at leads ⊢
    split at leads
    · cases leads
    rename_i short
    simp only [short, ↓reduceIte]
    split at leads
    · cases leads
    · rename_i found
      unfold walk at leads
      cases leads
      rw [if_pos found]
      exact List.mem_cons_self
    · rename_i found
      cases leads
      rw [if_neg (by simp [found])]
      exact List.mem_cons_self
  | cons first rest ih =>
    rw [List.cons_append] at leads ⊢
    unfold walk at leads
    unfold reached
    by_cases up : first = Path.parent
    · simp only [up, ↓reduceIte] at leads ⊢
      exact ih leads
    by_cases long : nameLimit < nameSize first
    · simp [up, long] at leads
    simp only [up, long, ↓reduceIte] at leads ⊢
    cases found : files.node? (location ++ [first.stored]) with
    | none => simp [found] at leads
    | some node =>
      cases node with
      | directory =>
        simp only [found, ↓reduceIte] at leads ⊢
        exact List.mem_cons_of_mem _ (ih leads)
      | file bytes => simp [found] at leads

theorem last_of_mem_reached {files : Files} {location place : Location} {front : List Text}
    {name : Text} (noDirectory : files.node? place ≠ some .directory)
    (member : place ∈ files.reached location (front ++ [name])) :
    place.getLast? = some name.stored := by
  induction front generalizing location with
  | nil =>
    rw [List.nil_append] at member
    unfold reached at member
    dsimp only at member
    split at member
    · cases member
    split at member
    · cases member
    have here : place = location ++ [name.stored] := by
      split at member
      · exact List.mem_singleton.mp member
      · exact List.mem_singleton.mp member
    rw [here, List.getLast?_concat]
  | cons first rest ih =>
    rw [List.cons_append] at member
    unfold reached at member
    dsimp only at member
    split at member
    · exact ih member
    split at member
    · cases member
    split at member
    · rename_i directory
      rcases List.mem_cons.mp member with rfl | later
      · exact absurd directory noDirectory
      · exact ih later
    · simp at member

/-- Taking a location away takes away what lies below it, and nothing else. -/
theorem node?_remove (files : Files) (location : Location) {place : Location} (below : place ≠ []) :
    (files.remove location).node? place =
      if location.isPrefixOf place then none else files.node? place := by
  have found := Entries.get?_filter files (fun other => !location.isPrefixOf other) place
  unfold node?
  simp only [List.isEmpty_iff, below, ↓reduceIte]
  unfold remove
  rw [found]
  cases location.isPrefixOf place <;> rfl

theorem node?_removes (files : Files) (gone : List Location) {place : Location}
    (below : place ≠ []) :
    (gone.foldl remove files).node? place =
      if gone.any (·.isPrefixOf place) then none else files.node? place := by
  induction gone generalizing files with
  | nil => rfl
  | cons first rest ih =>
    rw [List.foldl_cons, ih, node?_remove files first below, List.any_cons]
    cases first.isPrefixOf place <;> cases rest.any (·.isPrefixOf place) <;> rfl

theorem node?_removes_kept (files : Files) (gone : List Location) (place : Location) :
    (gone.foldl remove files).node? place = files.node? place ∨
      (gone.foldl remove files).node? place = none := by
  by_cases root : place = []
  · subst root
    exact Or.inl rfl
  · rw [node?_removes files gone root]
    split
    · exact Or.inr rfl
    · exact Or.inl rfl

def reachedBy (files : Files) (directory : Location) (path : Path) : List Location :=
  files.reached (if path.isAbsolute then [] else directory) path.parts

theorem target_agree {first second : Files} {directory : Location} {path : Path}
    (same : ∀ place, place ∈ first.reachedBy directory path ∨
      place ∈ second.reachedBy directory path → second.node? place = first.node? place) :
    second.target directory path = first.target directory path := by
  unfold target
  rw [walk_agree same]

theorem target_removed {files : Files} {directory place : Location} {path : Path} {node : Node}
    {front : List Text} {name : Text} (named : path.parts = front ++ [name])
    (proper : name ≠ Path.parent) (leads : files.target directory path = .node node place)
    {gone : List Location} (member : place ∈ gone) :
    (gone.foldl remove files).target directory path = .absent := by
  unfold target at leads ⊢
  split at leads
  · cases leads
  split at leads
  · cases leads
  rename_i nameable short
  rw [if_neg nameable, if_neg short]
  have inside : place ∈ files.reachedBy directory path := by
    unfold reachedBy
    rw [named] at leads ⊢
    exact mem_reached_of_walk proper leads
  apply walk_absent (node?_removes_kept files gone)
  refine ⟨place, inside, ?_⟩
  have covered : gone.any (·.isPrefixOf place) = true :=
    List.any_eq_true.mpr ⟨place, member, by simp⟩
  rw [node?_removes files gone (reached_ne_root files _ _ place inside), covered]
  rfl

end HoconRender.Files
