import HoconRender.Session

/-
The shared configuration over whole sessions. What the slot holds is told by the past alone: the
object of the last installing event, if nothing was reset after it. A configuration that is asked
for installs itself only where the past left the slot empty.
-/
namespace HoconRender.Session

abbrev Past := List (Event × Answer)

def lastInstalled : Past → Option Installed
  | [] => none
  | (.resetConfig, _) :: _ => none
  | (.setConfig _, .built (.ok installed)) :: _ => some installed
  | (.getConfig, .loaded ⟨_, .ok installed⟩) :: earlier =>
    (lastInstalled earlier).or (some installed)
  | _ :: earlier => lastInstalled earlier

def shown? : Answer → Option Installed
  | .loaded ⟨_, .ok installed⟩ => some installed
  | .built (.ok installed) => some installed
  | _ => none

def shown (past : Past) : List Installed := past.filterMap fun (_, answer) => shown? answer

/-- Events that leave the slot as it was: those that do not concern it, and those that fail. -/
def leavesSlot : Event → Answer → Bool
  | .change _, _ => true
  | .load _, _ => true
  | .parse _, _ => true
  | .run _, _ => true
  | .getConfig, .loaded ⟨_, .error _⟩ => true
  | .setConfig _, .built (.error _) => true
  | _, _ => false

def past (session : Session) (events : List Event) : Past :=
  (events.zip (session.steps events).2).reverse

/-- What the past tells of a session: its slot, and that objects are told apart by their numbers. -/
structure Follows (session : Session) (past : Past) : Prop where
  slot : session.slot = lastInstalled past
  made : ∀ installed ∈ shown past, installed.number < session.made
  same : ∀ first ∈ shown past, ∀ second ∈ shown past, first.number = second.number → first = second

variable {session : Session} {past : Past}

theorem start_follows (world : World) : Follows (start world) [] := by
  constructor <;> simp [start, lastInstalled, shown]

theorem shown_of_lastInstalled {installed : Installed} (last : lastInstalled past = some installed) :
    installed ∈ shown past := by
  induction past using lastInstalled.induct with
  | case1 => simp [lastInstalled] at last
  | case2 => simp [lastInstalled] at last
  | case3 => simp_all [lastInstalled, shown, shown?]
  | case4 log found earlier ih =>
    rw [lastInstalled] at last
    cases before : lastInstalled earlier with
    | none =>
      simp_all [shown, shown?]
    | some other =>
      simp_all [shown, shown?]
  | case5 => simp_all [lastInstalled, shown, shown?]

theorem shown_cons (event : Event) (answer : Answer) (past : Past) :
    shown ((event, answer) :: past) = (shown? answer).toList ++ shown past := by
  cases answered : shown? answer <;> simp [shown, answered]

theorem follows_known (follows : Follows session past) {next : Session} {event : Event}
    {answer : Answer} (known : ∀ installed ∈ shown? answer, installed ∈ shown past)
    (made : next.made = session.made) (slot : next.slot = lastInstalled ((event, answer) :: past)) :
    Follows next ((event, answer) :: past) := by
  have before (installed : Installed) (member : installed ∈ shown ((event, answer) :: past)) :
      installed ∈ shown past := by
    rw [shown_cons, List.mem_append, Option.mem_toList] at member
    rcases member with now | old
    · exact known installed now
    · exact old
  refine ⟨slot, ?_, ?_⟩
  · intro installed member
    rw [made]
    exact follows.made installed (before installed member)
  · intro first firstMember second secondMember
    exact follows.same first (before first firstMember) second (before second secondMember)

theorem follows_new (follows : Follows session past) {next : Session} {event : Event}
    {answer : Answer} {config : Config} (answered : shown? answer = some ⟨session.made, config⟩)
    (made : next.made = session.made + 1)
    (slot : next.slot = lastInstalled ((event, answer) :: past)) :
    Follows next ((event, answer) :: past) := by
  have objects : shown ((event, answer) :: past) = ⟨session.made, config⟩ :: shown past := by
    rw [shown_cons, answered]
    rfl
  have apart (old : Installed) (member : old ∈ shown past) : old.number ≠ session.made :=
    Nat.ne_of_lt (follows.made old member)
  refine ⟨slot, ?_, ?_⟩
  · rw [objects, made]
    intro installed member
    rcases List.mem_cons.mp member with rfl | old
    · exact Nat.lt_succ_self session.made
    · exact Nat.lt_succ_of_lt (follows.made installed old)
  · rw [objects]
    intro first firstMember second secondMember equal
    rcases List.mem_cons.mp firstMember with rfl | firstOld
    · rcases List.mem_cons.mp secondMember with rfl | secondOld
      · rfl
      · exact False.elim (apart second secondOld equal.symm)
    · rcases List.mem_cons.mp secondMember with rfl | secondOld
      · exact False.elim (apart first firstOld equal)
      · exact follows.same first firstOld second secondOld equal

theorem load_answer (session : Session) (request : Request) :
    (session.load request).2 = ⟨(HoconRender.load session.world request).log,
      (HoconRender.load session.world request).result.map (Installed.mk session.made)⟩ := by
  unfold load
  dsimp only
  cases (HoconRender.load session.world request).result with
  | ok config => rfl
  | error failure => rfl

theorem setConfig_answer (session : Session) (members : Members) :
    (session.setConfig members).2 =
      (Config.build session.world.environment members).map (Installed.mk session.made) := by
  unfold setConfig
  cases Config.build session.world.environment members with
  | ok config => rfl
  | error fault => rfl

theorem load_cases (session : Session) (request : Request) :
    (∃ log config, session.load request =
      ({ session with made := session.made + 1 }, ⟨log, .ok ⟨session.made, config⟩⟩)) ∨
    ∃ log failure, session.load request = (session, ⟨log, .error failure⟩) := by
  unfold load
  dsimp only
  cases (HoconRender.load session.world request).result with
  | ok config => exact Or.inl ⟨_, config, rfl⟩
  | error failure => exact Or.inr ⟨_, failure, rfl⟩

theorem getConfig_filled {installed : Installed} (filled : session.slot = some installed) :
    session.getConfig = (session, .ok installed) := by
  unfold getConfig
  rw [filled]

theorem getConfig_empty (empty : session.slot = none) :
    session.getConfig =
      ({ (session.load .plain).1 with slot := (session.load .plain).2.result.toOption },
        (session.load .plain).2) := by
  obtain ⟨world, slot, made⟩ := session
  cases empty
  unfold getConfig
  dsimp only
  rcases load_cases ⟨world, none, made⟩ .plain with ⟨log, config, loaded⟩ | ⟨log, failure, failed⟩
  · rw [loaded]
    rfl
  · rw [failed]
    rfl

theorem getConfig_holds {installed : Installed}
    (answered : session.getConfig.2.result = .ok installed) :
    session.getConfig.1.slot = some installed := by
  cases slot : session.slot with
  | some held =>
    rw [getConfig_filled slot] at answered ⊢
    cases answered
    exact slot
  | none =>
    rw [getConfig_empty slot] at answered ⊢
    dsimp only at answered ⊢
    rw [answered]
    rfl

theorem follows_load (follows : Follows session past) (request : Request) :
    Follows (session.step (.load request)).1
      ((.load request, (session.step (.load request)).2) :: past) := by
  change Follows (session.load request).1 ((.load request, .loaded (session.load request).2) :: past)
  rcases load_cases session request with ⟨log, config, loaded⟩ | ⟨log, failure, failed⟩
  · rw [loaded]
    exact follows_new follows rfl rfl follows.slot
  · rw [failed]
    exact follows_known follows (by simp [shown?]) rfl follows.slot

theorem follows_getConfig (follows : Follows session past) :
    Follows (session.step .getConfig).1
      ((.getConfig, (session.step .getConfig).2) :: past) := by
  change Follows session.getConfig.1 ((.getConfig, .loaded session.getConfig.2) :: past)
  cases slot : session.slot with
  | some installed =>
    have last : lastInstalled past = some installed := follows.slot.symm.trans slot
    rw [getConfig_filled slot]
    apply follows_known follows
    · intro other again
      cases again
      exact shown_of_lastInstalled last
    · rfl
    · rw [slot]
      change _ = (lastInstalled past).or (some installed)
      rw [last]
      rfl
  | none =>
    have nothing : lastInstalled past = none := follows.slot.symm.trans slot
    rw [getConfig_empty slot]
    rcases load_cases session .plain with ⟨log, config, loaded⟩ | ⟨log, failure, failed⟩
    · rw [loaded]
      apply follows_new follows rfl rfl
      change _ = (lastInstalled past).or (some _)
      rw [nothing]
      rfl
    · rw [failed]
      exact follows_known follows (by simp [shown?]) rfl nothing.symm

theorem follows_setConfig (follows : Follows session past) (members : Members) :
    Follows (session.step (.setConfig members)).1
      ((.setConfig members, (session.step (.setConfig members)).2) :: past) := by
  change Follows (session.setConfig members).1
    ((.setConfig members, .built (session.setConfig members).2) :: past)
  unfold setConfig
  cases Config.build session.world.environment members with
  | ok config => exact follows_new follows rfl rfl rfl
  | error fault => exact follows_known follows (by simp [shown?]) rfl follows.slot

theorem follows_step (follows : Follows session past) (event : Event) :
    Follows (session.step event).1 ((event, (session.step event).2) :: past) := by
  cases event with
  | change change => exact follows_known follows (by simp [shown?, step]) rfl follows.slot
  | load request => exact follows_load follows request
  | getConfig => exact follows_getConfig follows
  | setConfig members => exact follows_setConfig follows members
  | resetConfig => exact follows_known follows (by simp [shown?, step]) rfl rfl
  | parse line => exact follows_known follows (by simp [shown?, step]) rfl follows.slot
  | run line => exact follows_known follows (by simp [shown?, step]) rfl follows.slot

theorem past_cons (session : Session) (event : Event) (rest : List Event) :
    session.past (event :: rest) =
      (session.step event).1.past rest ++ [(event, (session.step event).2)] := by
  simp [Session.past, steps]

theorem follows_steps (events : List Event) (follows : Follows session past) :
    Follows (session.steps events).1 (session.past events ++ past) := by
  -- The past grows at its front while the events are taken from theirs, so both are general.
  induction events generalizing session past with
  | nil => exact follows
  | cons event rest ih =>
    rw [past_cons, List.append_assoc]
    exact ih (follows_step follows event)

def reached (world : World) (events : List Event) : Session := ((start world).steps events).1

theorem reached_follows (world : World) (events : List Event) :
    Follows (reached world events) ((start world).past events) := by
  have follows := follows_steps events (start_follows world)
  rwa [List.append_nil] at follows

theorem leavesSlot_keeps (session : Session) (event : Event)
    (leaves : leavesSlot event (session.step event).2 = true) :
    (session.step event).1.slot = session.slot := by
  cases event with
  | change change => rfl
  | load request =>
    change (session.load request).1.slot = session.slot
    rcases load_cases session request with ⟨log, config, loaded⟩ | ⟨log, failure, failed⟩
    · rw [loaded]
    · rw [failed]
  | getConfig =>
    change session.getConfig.1.slot = session.slot
    change leavesSlot .getConfig (.loaded session.getConfig.2) = true at leaves
    cases slot : session.slot with
    | some installed =>
      rw [getConfig_filled slot]
      exact slot
    | none =>
      rw [getConfig_empty slot] at leaves ⊢
      rcases load_cases session .plain with ⟨log, config, loaded⟩ | ⟨log, failure, failed⟩
      · rw [loaded] at leaves
        cases leaves
      · rw [failed]
        rfl
  | setConfig members =>
    change (session.setConfig members).1.slot = session.slot
    change leavesSlot _ (.built (session.setConfig members).2) = true at leaves
    unfold setConfig at leaves ⊢
    cases built : Config.build session.world.environment members with
    | ok config =>
      rw [built] at leaves
      cases leaves
    | error fault => rfl
  | resetConfig => cases leaves
  | parse line => rfl
  | run line => rfl

theorem shown_new {event : Event} (other : event ≠ .getConfig) {installed : Installed}
    (answered : shown? (session.step event).2 = some installed) :
    installed.number = session.made := by
  cases event with
  | change change => cases answered
  | load request =>
    change shown? (.loaded (session.load request).2) = _ at answered
    rcases load_cases session request with ⟨log, config, loaded⟩ | ⟨log, failure, failed⟩
    · rw [loaded] at answered
      cases answered
      rfl
    · rw [failed] at answered
      cases answered
  | getConfig => exact False.elim (other rfl)
  | setConfig members =>
    change shown? (.built (session.setConfig members).2) = _ at answered
    unfold setConfig at answered
    cases built : Config.build session.world.environment members with
    | ok config =>
      rw [built] at answered
      cases answered
      rfl
    | error fault =>
      rw [built] at answered
      cases answered
  | resetConfig => cases answered
  | parse line => cases answered
  | run line => cases answered

/-- A filled slot answers with its object, whatever the world has become; an empty one answers like
a load, and holds what was loaded. Objects are told apart by their numbers, and what is loaded or
set is an object of its own: the configuration that a load of the world gives, and the one that is
made of the members. -/
theorem getConfig_follows_past (world : World) (events : List Event) :
    (reached world events).slot = lastInstalled ((start world).past events) ∧
    (∀ installed, lastInstalled ((start world).past events) = some installed →
      ∀ now : World, ({ reached world events with world := now }).step .getConfig =
        ({ reached world events with world := now }, .loaded (.ok installed))) ∧
    (lastInstalled ((start world).past events) = none →
      ((reached world events).step .getConfig).2 =
        ((reached world events).step (.load .plain)).2) ∧
    (∀ log installed,
      ((reached world events).step .getConfig).2 = .loaded ⟨log, .ok installed⟩ →
      lastInstalled ((.getConfig, ((reached world events).step .getConfig).2)
        :: (start world).past events) = some installed) ∧
    (∀ event, leavesSlot event ((reached world events).step event).2 = true →
      ((reached world events).step event).1.slot = (reached world events).slot) ∧
    (∀ first ∈ shown ((start world).past events), ∀ second ∈ shown ((start world).past events),
      first.number = second.number → first = second) ∧
    (∀ event installed, event ≠ .getConfig →
      shown? ((reached world events).step event).2 = some installed →
      ∀ earlier ∈ shown ((start world).past events), earlier.number ≠ installed.number) ∧
    (∀ request, ((reached world events).step (.load request)).2 =
      .loaded ⟨(HoconRender.load (reached world events).world request).log,
        (HoconRender.load (reached world events).world request).result.map
          (Installed.mk (reached world events).made)⟩) ∧
    (∀ members, ((reached world events).step (.setConfig members)).2 =
      .built ((Config.build (reached world events).world.environment members).map
        (Installed.mk (reached world events).made))) := by
  have follows := reached_follows world events
  refine ⟨follows.slot, ?_, ?_, ?_, leavesSlot_keeps _, follows.same, ?_, ?_, ?_⟩
  · intro installed last now
    have filled : ({ reached world events with world := now }).slot = some installed :=
      follows.slot.trans last
    unfold step
    dsimp only
    rw [getConfig_filled filled]
  · intro nothing
    have empty := follows.slot.trans nothing
    unfold step
    dsimp only
    rw [getConfig_empty empty]
  · intro log installed answered
    rw [← (follows_step follows .getConfig).slot]
    change Answer.loaded (reached world events).getConfig.2 = _ at answered
    injection answered with same
    exact getConfig_holds (congrArg Traced.result same)
  · intro event installed other answered earlier member
    rw [shown_new other answered]
    exact Nat.ne_of_lt (follows.made earlier member)
  · exact fun request => congrArg Answer.loaded (load_answer _ request)
  · exact fun members => congrArg Answer.built (setConfig_answer _ members)

end HoconRender.Session
