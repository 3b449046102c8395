import HoconRender.ErrorReport
import HoconRender.Proofs.Json.Collected

/-
Errors that are given context, over any number of calls. Whatever is added goes into one mapping,
which an error says behind its message: each key once, where it first stood and as it was first
written, with the value given last. Nothing is said if one of them has no form. Where a non-empty
mapping was handed in, that is the mapping, so its owner sees what is added; an empty one stays as
it was. Keys are in the form in which they are read (`Key.canonical_of_read`).
-/
namespace HoconRender.ErrorReport

open Mapping (Collects)

def addAll (report : ErrorReport) (calls : List (Key × Json)) : ErrorReport :=
  calls.foldl (fun report call => report.addContext call.1 call.2) report

def assigned (calls : List (Key × Json)) : Mapping :=
  calls.map fun (key, value) => (⟨key⟩, value)

def given (handedIn : Option Mapping) (calls : List (Key × Json)) : Mapping :=
  handedIn.getD [] ++ assigned calls

section Calls

structure Extends (report : ErrorReport) (assignments : Mapping) (later : ErrorReport) : Prop where
  message : later.message = report.message
  shared : later.shared = report.shared
  context : later.context = report.context.assignAll assignments
  handedIn : later.handedIn =
    if report.shared then report.handedIn.map (·.assignAll assignments) else report.handedIn

variable {report middle later : ErrorReport} {first second : Mapping}

theorem extends_self (report : ErrorReport) : report.Extends [] report := by
  refine ⟨rfl, rfl, rfl, ?_⟩
  have same : (fun mapping : Mapping => mapping.assignAll []) = id := rfl
  rw [same, Option.map_id, id_eq, ite_self]

theorem Extends.trans (before : report.Extends first middle)
    (after : middle.Extends second later) : report.Extends (first ++ second) later where
  message := after.message.trans before.message
  shared := after.shared.trans before.shared
  context := by rw [after.context, before.context, Mapping.assignAll_append]
  handedIn := by
    rw [after.handedIn, before.handedIn, before.shared]
    cases report.shared with
    | false => rfl
    | true =>
      simp only [if_true, Option.map_map]
      congr 1
      funext mapping
      exact (Mapping.assignAll_append mapping).symm

theorem extends_addContext (report : ErrorReport) (key : Key) (value : Json) :
    report.Extends [(⟨key⟩, value)] (report.addContext key value) := ⟨rfl, rfl, rfl, rfl⟩

theorem extends_addAll (report : ErrorReport) (calls : List (Key × Json)) :
    report.Extends (assigned calls) (report.addAll calls) := by
  induction calls generalizing report with
  | nil => exact extends_self report
  | cons call rest ih => exact (extends_addContext report call.1 call.2).trans (ih _)

end Calls

section Context

variable {subject : ErrorSubject} {handedIn : Option Mapping} {calls : List (Key × Json)}

theorem collects_given (proper : ∀ mapping ∈ handedIn, mapping.Proper)
    (canonical : (given handedIn calls).Canonical) :
    Collects (given handedIn calls) ((ofSubject subject handedIn).addAll calls).context := by
  have distinct : Mapping.Proper (handedIn.getD []) := by
    cases handedIn with
    | none => exact List.Pairwise.nil
    | some mapping => exact proper mapping rfl
  rw [(extends_addAll (ofSubject subject handedIn) calls).context]
  exact Mapping.collects_assignAll distinct canonical

end Context

section Text

variable {report : ErrorReport}

theorem text_bare_iff : report.text = report.message.plain ↔ report.context = [] := by
  unfold text
  cases shown : report.context with
  | nil => simp
  | cons entry rest =>
    have opening : Text.ofString " (context: " ≠ [] := by decide
    simp [opening]

theorem text_of_context (present : report.context ≠ []) :
    report.text = report.message.plain ++ Text.ofString " (context: "
      ++ contextText report.context ++ Text.ofString ")" := by
  unfold text
  rw [List.isEmpty_eq_false_iff.mpr present]
  rfl

theorem contextFault?_none_iff (context : Mapping) : contextFault? context = none ↔
    ∀ entry ∈ context, entry.1.key.fault? = none ∧ entry.2.fault? = none := by
  simp [contextFault?, List.findSome?_eq_none_iff]

theorem fault?_bare_iff (bare : report.context = []) :
    report.fault? = none ↔ ∃ t, report.message = .str t := by
  unfold fault?
  rw [bare]
  cases report.message <;> simp

theorem fault?_of_context (present : report.context ≠ []) : report.fault? = none ↔
    (∀ entry ∈ report.context, entry.1.key.fault? = none ∧ entry.2.fault? = none) ∧
      report.message.fault? = none := by
  rw [← contextFault?_none_iff]
  unfold fault?
  cases context : report.context with
  | nil => exact absurd context present
  | cons entry rest => simp

end Text

/-- What an error says after some pairs were given to it. -/
structure Says (report : ErrorReport) (message : Json) (given : Mapping) : Prop where
  unchanged : report.message = message
  bare : report.text = message.plain ↔ given = []
  shownBare : given = [] → (report.fault? = none ↔ ∃ t, message = .str t)
  pairs : given ≠ [] → ∃ pairs : Mapping, Collects given pairs ∧
    report.text = message.plain ++ Text.ofString " (context: "
      ++ Text.join (Text.ofString ", ")
        (pairs.map fun (key, value) => key.key.plain ++ Text.ofString "=" ++ value.plain)
      ++ Text.ofString ")" ∧
    (report.fault? = none ↔
      (∀ entry ∈ pairs, entry.1.key.fault? = none ∧ entry.2.fault? = none) ∧
        message.fault? = none)

/-- After any calls an error says its message and each distinct key it was given. -/
theorem given_pairs_said (subject : ErrorSubject) (handedIn : Option Mapping)
    (calls : List (Key × Json)) (proper : ∀ mapping ∈ handedIn, mapping.Proper)
    (canonical : (given handedIn calls).Canonical) :
    ((ofSubject subject handedIn).addAll calls).Says subject.message (given handedIn calls) := by
  have follows := extends_addAll (ofSubject subject handedIn) calls
  have collects : Collects _ ((ofSubject subject handedIn).addAll calls).context :=
    collects_given proper canonical
  generalize (ofSubject subject handedIn).addAll calls = report at follows collects ⊢
  have message : report.message = subject.message := follows.message
  have empty := collects.eq_nil_iff
  refine ⟨message, ?_, fun none => ?_, fun present => ⟨report.context, collects, ?_, ?_⟩⟩
  · rw [← message, text_bare_iff, empty]
  · rw [← message]
    exact fault?_bare_iff (empty.mpr none)
  · rw [← message]
    exact text_of_context (mt empty.mp present)
  · rw [← message]
    exact fault?_of_context (mt empty.mp present)

section Sample

def collidingSubject : ErrorSubject := .configuration "render" "Unknown preset"

def collidingContext : Mapping := .ofEntries [(.int 1, "first"), (.text "field", .null)]

def collidingCalls : List (Key × Json) := [
  (.float (.ofDecimal false 10 (-1)), "second"), (.text "file", .arr [.bool true]),
  (.text "field", "comments"), (.bool true, .int 3)]

theorem colliding_canonical : (given (some collidingContext) collidingCalls).Canonical := by
  decide

theorem colliding_keys_said :
    ((ofSubject collidingSubject (some collidingContext)).addAll collidingCalls).Says
      collidingSubject.message (given (some collidingContext) collidingCalls) ∧
    ((ofSubject collidingSubject (some collidingContext)).addAll collidingCalls).text =
      Text.ofString "Configuration error for 'render': Unknown preset" ++
        Text.ofString " (context: 1=3, field=comments, file=[True])" ∧
    ((ofSubject collidingSubject (some collidingContext)).addAll collidingCalls).fault? = none := by
  refine ⟨?_, by decide +kernel, by decide +kernel⟩
  refine given_pairs_said collidingSubject (some collidingContext) collidingCalls ?_
    colliding_canonical
  rintro _ ⟨⟩
  exact Mapping.proper_ofEntries _

end Sample

/-- What becomes of a mapping that is handed in. -/
structure Carried (mapping : Mapping) (calls : List (Key × Json)) (report : ErrorReport) :
    Prop where
  empty : mapping = [] → report.handedIn = some []
  context : mapping ≠ [] → report.handedIn = some report.context ∧
    Collects (given (some mapping) calls) report.context
  unchanged : report.handedIn = some mapping ↔ mapping = [] ∨ ∀ entry ∈ assigned calls,
    mapping.get? entry.1 = Entries.get? (assigned calls).reverse entry.1

/-- A non-empty mapping that is handed in is the context from then on, and an empty one is left
alone. -/
theorem handed_in_mapping_carried (subject : ErrorSubject) (mapping : Mapping)
    (calls : List (Key × Json)) (proper : mapping.Proper)
    (canonical : (given (some mapping) calls).Canonical) :
    Carried mapping calls ((ofSubject subject (some mapping)).addAll calls) := by
  have follows := extends_addAll (ofSubject subject (some mapping)) calls
  have collects : Collects _ ((ofSubject subject (some mapping)).addAll calls).context :=
    collects_given (by rintro _ ⟨⟩; exact proper) canonical
  generalize (ofSubject subject (some mapping)).addAll calls = report at follows collects ⊢
  have handed := follows.handedIn
  have context := follows.context
  cases mapping with
  | nil =>
    have same : report.handedIn = some [] := handed
    exact ⟨fun _ => same, fun present => absurd rfl present, ⟨fun _ => Or.inl rfl, fun _ => same⟩⟩
  | cons entry rest =>
    have shared : report.handedIn = some report.context := by rw [context]; exact handed
    refine ⟨nofun, fun _ => ⟨shared, collects⟩, ?_⟩
    have restated := Mapping.assignAll_eq_self_iff proper canonical
    rw [shared, context, Option.some.injEq, or_iff_right (List.cons_ne_nil _ _)]
    exact restated

section Sample

def collidingWritten : Mapping :=
  [(⟨.int 1⟩, .int 3), ("field", "comments"), ("file", .arr [.bool true])]

theorem colliding_mapping_carried :
    Carried collidingContext collidingCalls
      ((ofSubject collidingSubject (some collidingContext)).addAll collidingCalls) ∧
    ((ofSubject collidingSubject (some collidingContext)).addAll collidingCalls).handedIn =
      some collidingWritten :=
  ⟨handed_in_mapping_carried collidingSubject collidingContext collidingCalls
    (Mapping.proper_ofEntries _) colliding_canonical, rfl⟩

def smallContext : Mapping := [("a", .int 1)]

theorem handed_in_mapping_grows :
    ((ofSubject (.general "bad value") (some smallContext)).addAll
      [(.text "b", .int 2)]).handedIn ≠ some smallContext := by
  intro same
  have lengths := congrArg (Option.map List.length) same
  revert lengths
  decide

end Sample

end HoconRender.ErrorReport
