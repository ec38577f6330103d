import FileIndexing.Proofs.Exclusion
import FileIndexing.Proofs.Overlap
import FileIndexing.Proofs.Redress

/-!
# Writes after a failed write

When applying an update fails, storage is damaged and the gate of the index closes until it is
rebuilt.  But every lock is held for a single step only: the operation that failed has given the
lock of the index back before it requests the rebuild.  This module says exactly which other
operations get through in the meantime.

* `failedSinceStart` reads off what happened whether an operation failed to apply since the last
  rebuild started, and `unanswered` whether one failed since the state of the index last moved.
* `AccessLog.AwaitsRequest` says of a log that it ends between the failure of an operation and the
  request of that operation.
* `WritesStop` says of a log that nothing is applied after a failure before a rebuild has started.
* `IndexMove` sums up what one access means to one index.  `ContainmentInvariant` follows a log, and
  `RedressInvariant` follows those who owe a request.
* `begins_after_failure_iff` is the result: whoever begins to apply an update after a failure has
  looked at the gate while the failure was unanswered, and conversely.  That is while an operation
  that failed had yet to make its request.
-/

namespace FileIndexing

open ServiceState

/-! ## What a log tells about failures -/

namespace Event

/-- Whether an operation failed to apply its update to an index. -/
def failsOn (index : IndexId) : Event → Bool
  | .applyEnded i _ .operation none => i = index
  | _ => false

/-- Whether an operation begins to apply its update to an index. -/
def beginsOn (index : IndexId) : Event → Bool
  | .applyBegan i _ .operation => i = index
  | _ => false

/-- Whether an event has nothing to do with the failures on an index. -/
def isAsideOf (index : IndexId) (event : Event) : Bool :=
  event.movesTo? index = none && !event.failsOn index && !event.beginsOn index

end Event

/-- Whether an operation failed to apply its update to an index since a rebuild last started. -/
def failedSinceStart (index : IndexId) : List Event → Bool
  | [] => false
  | event :: earlier =>
    event.failsOn index || (event.movesTo? index ≠ some .running && failedSinceStart index earlier)

/-- Whether an operation failed to apply its update to an index since the state of the index last
moved. -/
def unanswered (index : IndexId) : List Event → Bool
  | [] => false
  | event :: earlier =>
    event.failsOn index || (event.movesTo? index = none && unanswered index earlier)

namespace AccessLog

/-- All events of a log. -/
def events (log : AccessLog) : List Event := log.flatMap (·.2)

/-- The log as it was before the last access of a thread. -/
def beforeLast (log : AccessLog) (t : Nat) : AccessLog := (log.dropWhile (·.1 ≠ t)).tail

/-- The log ends while an operation of a thread has yet to request a rebuild.  It failed to apply its
update to the index, and has done nothing since then but what comes before the request: it gives the
lock back and reports the damage.  Others have gone on meanwhile, and the state of the index has not
moved. -/
inductive AwaitsRequest (index : IndexId) (u : Nat) : FailureStage → AccessLog → Prop where
  | failed {input : InputId} {earlier : AccessLog} :
    AwaitsRequest index u .locked ((u, [.applyEnded index input .operation none]) :: earlier)
  | released {earlier : AccessLog} :
    AwaitsRequest index u .locked earlier → AwaitsRequest index u .unlocked ((u, []) :: earlier)
  | reported {cause : Error} {earlier : AccessLog} : AwaitsRequest index u .unlocked earlier →
    AwaitsRequest index u .reported ((u, [.logged (.corrupted index cause)]) :: earlier)
  | meanwhile {t : Nat} {events : List Event} {stage : FailureStage} {earlier : AccessLog} :
    t ≠ u → (∀ event ∈ events, event.movesTo? index = none) →
    AwaitsRequest index u stage earlier → AwaitsRequest index u stage ((t, events) :: earlier)

/-- Whenever an operation begins to apply its update to an index, a condition on its thread and the
log before holds. -/
def AtEachBegin (index : IndexId) (condition : Nat → AccessLog → Prop) : AccessLog → Prop
  | [] => True
  | access :: earlier =>
    (access.2.any (·.beginsOn index) = true → condition access.1 earlier) ∧
      AtEachBegin index condition earlier

end AccessLog

/-- No operation begins to apply an update to an index after another one failed to, before a rebuild
of the index has started. -/
def WritesStop (index : IndexId) (log : AccessLog) : Prop :=
  log.AtEachBegin index fun _ before => failedSinceStart index before.events = false

instance AccessLog.decidableAtEachBegin (index : IndexId) (condition : Nat → AccessLog → Prop)
    [∀ t log, Decidable (condition t log)] : ∀ log, Decidable (AtEachBegin index condition log)
  | [] => .isTrue trivial
  | access :: earlier =>
    have := decidableAtEachBegin index condition earlier
    inferInstanceAs (Decidable ((access.2.any (·.beginsOn index) = true →
      condition access.1 earlier) ∧ AtEachBegin index condition earlier))

instance (index : IndexId) (log : AccessLog) : Decidable (WritesStop index log) :=
  AccessLog.decidableAtEachBegin index _ log

section Events

variable {index : IndexId}

/-- A failure since the last move of the state is one since the last start. -/
theorem failedSinceStart_of_unanswered {events : List Event} (h : unanswered index events = true) :
    failedSinceStart index events = true := by
  induction events with
  | nil => cases h
  | cons event earlier ih =>
    rw [unanswered] at h
    rw [failedSinceStart]
    cases hfails : event.failsOn index with
    | true => rfl
    | false =>
      rw [hfails, Bool.false_or, Bool.and_eq_true] at h
      have hnone : event.movesTo? index = none := by simpa using h.1
      simp [hnone, ih h.2]

theorem Event.quiet_of_isAsideOf {event : Event} (h : event.isAsideOf index = true) :
    event.movesTo? index = none ∧ event.failsOn index = false := by
  simp only [isAsideOf, Bool.and_eq_true, decide_eq_true_eq, Bool.not_eq_true'] at h
  exact h.1

/-- Events that neither move the state nor are failures change nothing about the failures. -/
theorem failures_append {events : List Event}
    (h : ∀ event ∈ events, event.movesTo? index = none ∧ event.failsOn index = false)
    (earlier : List Event) :
    failedSinceStart index (events ++ earlier) = failedSinceStart index earlier ∧
      unanswered index (events ++ earlier) = unanswered index earlier := by
  induction events with
  | nil => exact ⟨rfl, rfl⟩
  | cons event rest ih =>
    have hevent := h event (by simp)
    obtain ⟨hfailed, hunanswered⟩ := ih fun e he => h e (by simp [he])
    simp [failedSinceStart, unanswered, hevent, hfailed, hunanswered]

/-- As long as the state does not move, a failure stays unanswered. -/
theorem unanswered_append {events : List Event} (h : ∀ event ∈ events, event.movesTo? index = none)
    {earlier : List Event} (hearlier : unanswered index earlier = true) :
    unanswered index (events ++ earlier) = true := by
  induction events with
  | nil => exact hearlier
  | cons event rest ih =>
    have hrest := ih fun e he => h e (by simp [he])
    simp [unanswered, h event (by simp), hrest]

end Events

namespace AccessLog

variable {index : IndexId}

@[simp] theorem events_cons (t : Nat) (events : List Event) (log : AccessLog) :
    AccessLog.events ((t, events) :: log) = events ++ log.events := rfl

@[simp] theorem beforeLast_cons_self (t : Nat) (events : List Event) (log : AccessLog) :
    beforeLast ((t, events) :: log) t = log := by
  simp [beforeLast]

theorem beforeLast_cons_of_ne {t u : Nat} (h : t ≠ u) (events : List Event) (log : AccessLog) :
    beforeLast ((t, events) :: log) u = log.beforeLast u := by
  simp [beforeLast, h]

/-- What is known at each beginning in two ways may be put together. -/
theorem AtEachBegin.and_imp {p q r : Nat → AccessLog → Prop} {log : AccessLog}
    (hp : log.AtEachBegin index p) (hq : log.AtEachBegin index q)
    (himp : ∀ t before, p t before → q t before → r t before) : log.AtEachBegin index r := by
  induction log with
  | nil => trivial
  | cons access earlier ih =>
    exact ⟨fun hbegins => himp _ _ (hp.1 hbegins) (hq.1 hbegins), ih hp.2 hq.2⟩

/-- While an operation has yet to make its request, its failure is unanswered. -/
theorem AwaitsRequest.unanswered {u : Nat} {stage : FailureStage} {log : AccessLog}
    (h : log.AwaitsRequest index u stage) : unanswered index log.events = true := by
  induction h with
  | failed => simp [FileIndexing.unanswered, Event.failsOn]
  | released _ ih => exact ih
  | reported _ ih => exact unanswered_append (by simp [Event.movesTo?]) ih
  | meanwhile _ hunmoved _ ih => exact unanswered_append hunmoved ih

end AccessLog

/-! ## What an access means to an index -/

variable {S U C : Type}

/-- What one access means to the failures on an index, with the events that it notes. -/
inductive IndexMove (index : IndexId) (l : LockPlace) (s : ServiceState S C) (l' : LockPlace)
    (s' : ServiceState S C) : List Event → Prop where
  /-- It has nothing to do with them. -/
  | aside {events : List Event} : s'.registry.state index = s.registry.state index →
    (∀ event ∈ events, event.isAsideOf index = true) → l'.saw? ≠ some index →
    IndexMove index l s l' s' events
  /-- An operation finds the gate open. -/
  | look : s.registry.state index = .ok → s'.registry.state index = .ok →
    IndexMove index l s l' s' []
  /-- A rebuild is requested. -/
  | request {before : RebuildState} : s'.registry.state index = .required → l'.saw? = none →
    IndexMove index l s l' s' [.moved index before .required]
  /-- A rebuild starts, under the lock of the index. -/
  | start {lock : Nat} {before : RebuildState} : l'.holds? = some (index, lock) → l'.saw? = none →
    IndexMove index l s l' s' [.moved index before .running]
  /-- A rebuild ends. -/
  | finish : s.registry.state index = .running → l'.saw? = none →
    IndexMove index l s l' s' [.moved index .running .ok]
  /-- An operation that has just found the gate open begins to apply its update. -/
  | begin {input : InputId} : s'.registry.state index = s.registry.state index →
    l.saw? = some index → l'.saw? = none →
    IndexMove index l s l' s' [.applyBegan index input .operation]
  /-- An operation fails to apply its update, under the lock of the index. -/
  | fail {input : InputId} {lock : Nat} : s'.registry.state index = s.registry.state index →
    l.trusts? true = some index → l'.holds? = some (index, lock) → l'.saw? = none →
    IndexMove index l s l' s' [.applyEnded index input .operation none]

theorem Event.isAsideOf_of_isIncidental {event : Event} (index : IndexId)
    (h : event.isIncidental = true) : event.isAsideOf index = true := by
  cases event <;> simp_all [isIncidental, isRemark, isAsideOf, movesTo?, failsOn, beginsOn]

namespace IndexMove

variable {index : IndexId} {l l' : LockPlace} {s s' : ServiceState S C}

/-- An access that notes nothing and sets no state means nothing. -/
theorem silent (hregistry : s'.registry = s.registry) (hjournal : s'.journal = s.journal)
    (hsaw : l'.saw? ≠ some index) : IndexMove index l s l' s' (s.eventsUntil s') := by
  rw [eventsUntil_of_journal [] hjournal]
  exact .aside (by rw [hregistry]) (by simp) hsaw

/-- Noting something that has nothing to do with the failures means nothing. -/
theorem note {event : Event} (hevent : event.isAsideOf index = true) (hsaw : l'.saw? ≠ some index) :
    IndexMove index l s l' (s.note event) (s.eventsUntil (s.note event)) := by
  rw [eventsUntil_note]
  exact .aside rfl (by simpa using hevent) hsaw

/-- Setting an index to the state it has, or setting another index, means nothing. -/
theorem moveRegistry {other : IndexId} {registry : RebuildRegistry}
    (hstate : registry.state index = s.registry.state index) (hsaw : l'.saw? ≠ some index) :
    IndexMove index l s l' (s.moveRegistry other registry)
      (s.eventsUntil (s.moveRegistry other registry)) := by
  refine .aside (by simpa using hstate) ?_ hsaw
  rw [eventsUntil_moveRegistry]
  split
  · simp
  · next hmoved =>
    have hne : other ≠ index := by
      intro heq
      subst heq
      exact hmoved hstate.symm
    simp [Event.isAsideOf, Event.movesTo?, Event.failsOn, Event.beginsOn, hne]

/-- A request moves its index, unless a rebuild was scheduled already. -/
theorem markRequired (other : IndexId) (hsaw : l'.saw? = none) :
    IndexMove index l s l' (s.moveRegistry other (s.registry.markRequired other))
      (s.eventsUntil (s.moveRegistry other (s.registry.markRequired other))) := by
  by_cases hmoves : other = index ∧ s.registry.state index ≠ .required
  · obtain ⟨rfl, hne⟩ := hmoves
    have hrequired : (s.registry.markRequired other).state other = .required := by
      simp [RebuildRegistry.state_markRequired]
    rw [eventsUntil_moveRegistry, hrequired, if_neg hne]
    exact .request (by simpa using hrequired) hsaw
  · refine .moveRegistry ?_ (by simp [hsaw])
    rw [RebuildRegistry.state_markRequired]
    grind

/-- A start moves its index, if a rebuild was scheduled. -/
theorem markRunning {other : IndexId} {lock : Nat} (hholds : l'.holds? = some (other, lock))
    (hsaw : l'.saw? = none) :
    IndexMove index l s l' (s.moveRegistry other (s.registry.markRunning other))
      (s.eventsUntil (s.moveRegistry other (s.registry.markRunning other))) := by
  by_cases hmoves : other = index ∧ s.registry.state other = .required
  · obtain ⟨rfl, hrequired⟩ := hmoves
    have hrunning : (s.registry.markRunning other).state other = .running := by
      simp [RebuildRegistry.state_markRunning, hrequired]
    rw [eventsUntil_moveRegistry, hrunning, hrequired, if_neg (by simp)]
    exact .start hholds hsaw
  · refine .moveRegistry ?_ (by simp [hsaw])
    rw [RebuildRegistry.state_markRunning, if_neg hmoves]

/-- The end of a rebuild moves its index, if it was being rebuilt. -/
theorem endRebuild (other : IndexId) (hsaw : l'.saw? = none) :
    IndexMove index l s l' (s.endRebuild other) (s.eventsUntil (s.endRebuild other)) := by
  by_cases hmoves : other = index ∧ s.registry.state other = .running
  · obtain ⟨rfl, hrunning⟩ := hmoves
    rw [eventsUntil_endRebuild, if_pos hrunning]
    exact .finish hrunning hsaw
  · refine .aside ?_ ?_ (by simp [hsaw])
    · rw [registry_endRebuild, RebuildRegistry.state_markFinished, if_neg hmoves]
    · rw [eventsUntil_endRebuild]
      split <;> simp_all [Event.isAsideOf, Event.movesTo?, Event.failsOn, Event.beginsOn]

end IndexMove

/-- Every move in the protocol of the locks is of one of these kinds. -/
theorem LockMove.indexMove {l l' : LockPlace} {s s' : ServiceState S C}
    (hmove : LockMove true l s l' s') (index : IndexId) :
    IndexMove index l s l' s' (s.eventsUntil s') := by
  cases hmove with
  | discreet hsaw hdiscreet =>
    cases hdiscreet with
    | quiet events _ hstates hincidental hjournal =>
      rw [eventsUntil_of_journal events hjournal]
      exact .aside (hstates index)
        (fun event he => Event.isAsideOf_of_isIncidental index (hincidental event he))
        (by simp [hsaw])
    | request other => exact .markRequired other hsaw
  | ended hsaw => exact .note rfl (by simp [hsaw])
  | finish hsaw => exact .endRebuild _ hsaw
  | find _ | make | acquire _ | release => exact .silent rfl rfl (by simp [LockPlace.saw?])
  | @look _ other lock hok =>
    by_cases hindex : other = index
    · subst hindex
      rw [eventsUntil_of_journal [] rfl]
      exact .look hok hok
    · exact .silent rfl rfl (by simp [LockPlace.saw?, hindex])
  | start => exact .markRunning rfl rfl
  | @beginApply _ other lock sawOk input origin hsaw =>
    by_cases hbegins : other = index ∧ origin = .operation
    · obtain ⟨rfl, rfl⟩ := hbegins
      obtain rfl := hsaw rfl rfl
      rw [eventsUntil_note]
      exact .begin rfl rfl rfl
    · refine .note ?_ (by simp [LockPlace.saw?])
      cases origin <;>
        simp_all [Event.isAsideOf, Event.movesTo?, Event.failsOn, Event.beginsOn]
  | @endApply _ other lock input origin changed =>
    by_cases hfails : other = index ∧ origin = .operation ∧ changed = none
    · obtain ⟨rfl, rfl, rfl⟩ := hfails
      rw [eventsUntil_note]
      exact .fail rfl rfl rfl rfl
    · refine .note ?_ (by simp [LockPlace.saw?])
      cases origin <;> cases changed <;>
        simp_all [Event.isAsideOf, Event.movesTo?, Event.failsOn, Event.beginsOn]
  | beginClear | endClear => exact .note rfl (by simp [LockPlace.saw?])

/-- Only an operation that finds the gate open sees that it is. -/
theorem IndexMove.ok_of_saw {index : IndexId} {l l' : LockPlace} {s s' : ServiceState S C}
    {events : List Event} (hmove : IndexMove index l s l' s' events) (hsaw : l'.saw? = some index) :
    s.registry.state index = .ok := by
  cases hmove with
  | look hok _ => exact hok
  | aside _ _ hne => exact absurd hsaw hne
  | request _ hne | start _ hne | finish _ hne | begin _ _ hne | fail _ _ _ hne =>
    rw [hne] at hsaw
    cases hsaw

/-- Only an operation that saw the gate open begins to apply its update. -/
theorem IndexMove.saw_of_begins {index : IndexId} {l l' : LockPlace} {s s' : ServiceState S C}
    {events : List Event} (hmove : IndexMove index l s l' s' events)
    (hbegins : events.any (·.beginsOn index) = true) : l.saw? = some index := by
  cases hmove with
  | begin _ hsaw _ => exact hsaw
  | aside _ haside _ =>
    obtain ⟨event, he, hbegin⟩ := List.any_eq_true.1 hbegins
    have hevent := haside event he
    simp [Event.isAsideOf, hbegin] at hevent
  | look | request | start | finish | fail => simp [Event.beginsOn] at hbegins

/-! ## The invariant -/

/-- What an operation that saw the gate open can know of the failures on an index, while nobody else
gets at the index: one happened since the last start exactly if one was unanswered as it looked. -/
structure ContainmentInvariant (index : IndexId) (log : AccessLog) (s : ServiceState S C)
    (place : Nat → LockPlace) : Prop where
  locks : LockInvariant true s place
  /-- After a failure the gate is closed, unless the request for a rebuild is still to come. -/
  closed : failedSinceStart index log.events = true →
    s.registry.state index ≠ .running ∧
      (s.registry.state index = .ok → unanswered index log.events = true)
  looked : ∀ t, (place t).saw? = some index →
    (failedSinceStart index log.events = true ↔ unanswered index (log.beforeLast t).events = true)
  began : log.AtEachBegin index fun t before =>
    (failedSinceStart index before.events = true ↔
      unanswered index (before.beforeLast t).events = true)

theorem ServiceState.AtRest.containmentInvariant {s : ServiceState S C} (h : s.AtRest)
    (index : IndexId) : ContainmentInvariant index [] s fun _ => .outside where
  locks := h.lockInvariant true
  closed := by simp [AccessLog.events, failedSinceStart]
  looked := by simp [LockPlace.saw?]
  began := trivial

namespace ContainmentInvariant

variable {index : IndexId} {log : AccessLog} {s s' : ServiceState S C} {place : Nat → LockPlace}
  {t : Nat} {l : LockPlace} {events : List Event}

/-- Whoever saw the gate open before an access of another thread that changes nothing about the
failures still knows about them. -/
theorem looked_update (hinv : ContainmentInvariant index log s place)
    (hevents : failedSinceStart index (events ++ log.events) = failedSinceStart index log.events)
    (hsaw : l.saw? ≠ some index) (u : Nat)
    (hu : (Function.update place t l u).saw? = some index) :
    failedSinceStart index (AccessLog.events ((t, events) :: log)) = true ↔
      unanswered index (AccessLog.beforeLast ((t, events) :: log) u).events = true := by
  rw [Function.update_apply] at hu
  split at hu
  · exact absurd hu hsaw
  · next hut =>
    rw [AccessLog.events_cons, hevents, AccessLog.beforeLast_cons_of_ne (Ne.symm hut)]
    exact hinv.looked u hu

/-- Nobody knows that the gate is open while another thread holds the lock of the index. -/
theorem saw_update_ne (hlocks : LockInvariant true s' (Function.update place t l)) {lock : Nat}
    (hholds : l.holds? = some (index, lock)) (hsaw : l.saw? = none) (u : Nat) :
    (Function.update place t l u).saw? ≠ some index := by
  intro hu
  obtain ⟨n, hn⟩ := LockPlace.exists_holds_of_saw hu
  obtain rfl := hlocks.eq_of_holds (t := t) (by rwa [Function.update_self]) hn
  simp [hsaw] at hu

/-- Every access keeps the invariant. -/
theorem step (hinv : ContainmentInvariant index log s place)
    (hlocks : LockInvariant true s' (Function.update place t l))
    (hmove : IndexMove index (place t) s l s' events) :
    ContainmentInvariant index ((t, events) :: log) s' (Function.update place t l) := by
  have hbegan : events.any (·.beginsOn index) = false → AccessLog.AtEachBegin index
      (fun t before => failedSinceStart index before.events = true ↔
        unanswered index (before.beforeLast t).events = true) ((t, events) :: log) := fun hnone =>
    ⟨by simp [hnone], hinv.began⟩
  cases hmove with
  | aside hstate haside hsaw =>
    obtain ⟨hfailed, hunanswered⟩ :=
      failures_append (fun event he => Event.quiet_of_isAsideOf (haside event he)) log.events
    refine ⟨hlocks, ?_, hinv.looked_update hfailed hsaw, hbegan ?_⟩
    · rw [AccessLog.events_cons, hfailed, hunanswered, hstate]
      exact hinv.closed
    · rw [List.any_eq_false]
      intro event he
      have := haside event he
      simp_all [Event.isAsideOf]
  | look hok hok' =>
    have hsame : failedSinceStart index log.events = true ↔ unanswered index log.events = true :=
      ⟨fun hfailed => (hinv.closed hfailed).2 hok, failedSinceStart_of_unanswered⟩
    refine ⟨hlocks, fun hfailed => ⟨by simp [hok'], fun _ => hsame.1 hfailed⟩, fun u hu => ?_,
      hbegan rfl⟩
    by_cases hut : u = t
    · rw [hut, AccessLog.beforeLast_cons_self]
      exact hsame
    · rw [AccessLog.beforeLast_cons_of_ne (Ne.symm hut)]
      rw [Function.update_of_ne hut] at hu
      exact hinv.looked u hu
  | request hrequired hsaw =>
    refine ⟨hlocks, fun _ => by simp [hrequired], hinv.looked_update ?_ (by simp [hsaw]),
      hbegan rfl⟩
    simp [failedSinceStart, Event.failsOn, Event.movesTo?]
  | start hholds hsaw =>
    refine ⟨hlocks, ?_, fun u hu => ?_, hbegan rfl⟩
    · simp [failedSinceStart, Event.failsOn, Event.movesTo?]
    · exact absurd hu (saw_update_ne hlocks hholds hsaw u)
  | finish hrunning hsaw =>
    have hfailed : failedSinceStart index log.events = false := by
      rw [← Bool.not_eq_true]
      exact fun hfailed => (hinv.closed hfailed).1 hrunning
    refine ⟨hlocks, ?_, hinv.looked_update ?_ (by simp [hsaw]), hbegan rfl⟩ <;>
      simp [failedSinceStart, Event.failsOn, Event.movesTo?, hfailed]
  | begin hstate hlooked hsaw =>
    refine ⟨hlocks, ?_, hinv.looked_update rfl (by simp [hsaw]), ?_, hinv.began⟩
    · rw [hstate]
      exact hinv.closed
    · exact fun _ => hinv.looked t hlooked
  | fail hstate htrusts hholds hsaw =>
    refine ⟨hlocks, fun _ => ⟨?_, fun _ => ?_⟩, fun u hu => ?_, hbegan rfl⟩
    · rw [hstate]
      exact hinv.locks.trusted t index htrusts
    · simp [unanswered, Event.failsOn]
    · exact absurd hu (saw_update_ne hlocks hholds hsaw u)

end ContainmentInvariant

/-! ## Those who owe a request -/

namespace DutyMove

variable {index : IndexId} {log : AccessLog} {s s' : ServiceState S C} {t : Nat}

/-- Whoever owes a request for an index and does not make the index wait for a rebuild still owes
it. -/
theorem awaits {stage : FailureStage} {duty : Duty}
    (hmove : DutyMove (some (index, stage)) s duty s') (h : log.AwaitsRequest index t stage)
    (hok : s'.registry.state index = .ok) : ∃ stage', duty = some (index, stage') ∧
      AccessLog.AwaitsRequest index t stage' ((t, s.eventsUntil s') :: log) := by
  cases hmove with
  | release =>
    rw [eventsUntil_withLocks]
    exact ⟨_, rfl, .released h⟩
  | report =>
    rw [eventsUntil_note]
    exact ⟨_, rfl, .reported h⟩
  | request => simp [RebuildRegistry.state_markRequired] at hok

/-- Whoever fails to apply an update owes a request for its index. -/
theorem owes {input : InputId} {duty duty' : Duty} (hmove : DutyMove duty s duty' s')
    (hfails : s.eventsUntil s' = [.applyEnded index input .operation none]) :
    duty' = some (index, .locked) := by
  cases hmove with
  | aside hunfailing =>
    rw [Unfailing, hfails] at hunfailing
    simp [Event.isFailure] at hunfailing
  | fail =>
    rw [eventsUntil_note] at hfails
    simp_all
  | release =>
    rw [eventsUntil_withLocks] at hfails
    cases hfails
  | report =>
    rw [eventsUntil_note] at hfails
    simp at hfails
  | request =>
    rw [eventsUntil_moveRegistry] at hfails
    split at hfails <;> simp at hfails

end DutyMove

/-- Where a failure is unanswered, some operation that failed has yet to make its request. -/
def AccessLog.Explained (index : IndexId) (log : AccessLog) : Prop :=
  unanswered index log.events = true → ∃ u stage, log.AwaitsRequest index u stage

/-- As long as an index is consistent, somebody owes a request for every failure that is
unanswered.  Whoever saw the gate open looked at such a moment. -/
structure RedressInvariant (index : IndexId) (log : AccessLog) (s : ServiceState S C)
    (place : Nat → LockPlace × Duty) : Prop where
  owed : s.registry.state index = .ok → unanswered index log.events = true →
    ∃ u stage, (place u).2 = some (index, stage) ∧ log.AwaitsRequest index u stage
  looked : ∀ t, (place t).1.saw? = some index → (log.beforeLast t).Explained index
  began : log.AtEachBegin index fun t before => (before.beforeLast t).Explained index

namespace RedressInvariant

variable {index : IndexId} {log : AccessLog} {s s' : ServiceState S C}
  {place : Nat → LockPlace × Duty} {t : Nat} {x : LockPlace × Duty}

theorem start (index : IndexId) (s : ServiceState S C) :
    RedressInvariant index [] s fun _ => (.outside, none) where
  owed := by simp [AccessLog.events, unanswered]
  looked := by simp [LockPlace.saw?]
  began := trivial

/-- Whoever owes a request still does so after an access that neither moves the state of the index
nor is a failure. -/
theorem owed_quiet (hinv : RedressInvariant index log s place)
    (hduty : DutyMove (place t).2 s x.2 s')
    (hstate : s'.registry.state index = s.registry.state index)
    (hquiet : ∀ event ∈ s.eventsUntil s',
      event.movesTo? index = none ∧ event.failsOn index = false)
    (hok : s'.registry.state index = .ok)
    (hunanswered : unanswered index (s.eventsUntil s' ++ log.events) = true) :
    ∃ u stage, (Function.update place t x u).2 = some (index, stage) ∧
      AccessLog.AwaitsRequest index u stage ((t, s.eventsUntil s') :: log) := by
  rw [(failures_append hquiet log.events).2] at hunanswered
  obtain ⟨u, stage, hu, hawaits⟩ := hinv.owed (hstate ▸ hok) hunanswered
  by_cases hut : u = t
  · subst hut
    rw [hu] at hduty
    obtain ⟨stage', hx, hawaits'⟩ := hduty.awaits hawaits hok
    exact ⟨u, stage', by rwa [Function.update_self], hawaits'⟩
  · exact ⟨u, stage, by rwa [Function.update_of_ne hut],
      .meanwhile (Ne.symm hut) (fun event he => (hquiet event he).1) hawaits⟩

/-- Every access keeps the invariant. -/
theorem step (hinv : RedressInvariant index log s place)
    (hmove : LockMove true (place t).1 s x.1 s') (hduty : DutyMove (place t).2 s x.2 s') :
    RedressInvariant index ((t, s.eventsUntil s') :: log) s' (Function.update place t x) where
  owed hok hunanswered := by
    rw [AccessLog.events_cons] at hunanswered
    generalize hevents : s.eventsUntil s' = events at hunanswered
    have hindex := hmove.indexMove index
    rw [hevents] at hindex
    cases hindex with
    | aside hstate haside _ =>
      rw [← hevents] at haside hunanswered ⊢
      exact hinv.owed_quiet hduty hstate (fun event he => Event.quiet_of_isAsideOf (haside event he))
        hok hunanswered
    | look hok' _ =>
      rw [← hevents] at hunanswered ⊢
      exact hinv.owed_quiet hduty (hok.trans hok'.symm) (by simp [hevents]) hok hunanswered
    | begin hstate _ _ =>
      rw [← hevents] at hunanswered ⊢
      exact hinv.owed_quiet hduty hstate (by simp [hevents, Event.movesTo?, Event.failsOn]) hok
        hunanswered
    | request hrequired _ => simp [hrequired] at hok
    | start | finish => simp [unanswered, Event.failsOn, Event.movesTo?] at hunanswered
    | fail =>
      have howes := hduty.owes hevents
      exact ⟨t, .locked, by rwa [Function.update_self], .failed⟩
  looked u hu := by
    by_cases hut : u = t
    · subst hut
      rw [Function.update_self] at hu
      rw [AccessLog.beforeLast_cons_self]
      intro hunanswered
      obtain ⟨v, stage, -, hawaits⟩ := hinv.owed ((hmove.indexMove index).ok_of_saw hu) hunanswered
      exact ⟨v, stage, hawaits⟩
    · rw [Function.update_of_ne hut] at hu
      rw [AccessLog.beforeLast_cons_of_ne (Ne.symm hut)]
      exact hinv.looked u hu
  began := ⟨fun hbegins => hinv.looked t ((hmove.indexMove index).saw_of_begins hbegins),
    hinv.began⟩

end RedressInvariant

/-! ## All interleavings -/

/-- In every interleaving of threads that execute operations, request rebuilds and rebuild indices,
an operation begins to apply an update to an index after another one failed to, and before a rebuild
has started, exactly if it looked at the gate, by its access before, between a failure and the next
move of the state of the index.  If the handle prepares updates for the index that it is asked for,
the window ends with the request of the operation that failed: the one that begins looked while
another one had failed and had done nothing since but give back the lock and report the damage. -/
theorem begins_after_failure_iff (env : Environment S U C) (horacle : env.oracle = .registry)
    (hhandle : env.handle.IsDiscreet) (htest : env.config.testMode = false)
    (s : ServiceState S C) (hs : s.AtRest) (commands : List (List Command)) (log : AccessLog)
    (q : Pool (ServiceState S C) (Except Failure Unit))
    (hlog : (env.threads s commands).Logged log q) (index : IndexId) :
    (log.AtEachBegin index fun t before =>
      (failedSinceStart index before.events = true ↔
        unanswered index (before.beforeLast t).events = true)) ∧
    (env.handle.NamesAsked → log.AtEachBegin index fun t before =>
      (failedSinceStart index before.events = true ↔
        ∃ u stage, (before.beforeLast t).AwaitsRequest index u stage)) := by
  have hlists : ∀ list, (Command.runAll env none list).Neutral (LockMove true) .outside := by
    intro list
    have hlist := lockNeutral_runAll horacle hhandle list
    rwa [htest] at hlist
  have hbegan : log.AtEachBegin index fun t before =>
      (failedSinceStart index before.events = true ↔
        unanswered index (before.beforeLast t).events = true) := by
    have hthreads : (env.threads s commands).Obeys (fun _ => LockMove true)
        (fun _ _ l => l = .outside) fun _ => .outside := by
      intro i t ht
      obtain ⟨list, -, rfl⟩ := List.mem_map.1 (List.mem_of_getElem? ht)
      exact hlists list
    obtain ⟨place, hinv, -⟩ := hlog.invariant (ContainmentInvariant index) hthreads
      (hs.containmentInvariant index)
      fun _ _ hinv hmove => hinv.step (hinv.locks.step hmove) (hmove.indexMove index)
    exact hinv.began
  refine ⟨hbegan, fun hnames => ?_⟩
  have hthreads : (env.threads s commands).Obeys
      (fun _ x s y t => LockMove true x.1 s y.1 t ∧ DutyMove x.2 s y.2 t)
      (fun _ _ x => x.1 = .outside ∧ x.2 = none) fun _ => (.outside, none) := by
    intro i t ht
    obtain ⟨list, -, rfl⟩ := List.mem_map.1 (List.mem_of_getElem? ht)
    exact (hlists list).both (dutyNeutral_runAll hnames horacle hhandle list)
  obtain ⟨place, hinv, -⟩ := hlog.invariant (RedressInvariant index) hthreads (.start index s)
    fun _ _ hinv hmove => hinv.step hmove.1 hmove.2
  exact hbegan.and_imp hinv.began fun t before hiff hexplained =>
    ⟨fun hfailed => hexplained (hiff.1 hfailed), fun ⟨_, _, hawaits⟩ => hiff.2 hawaits.unanswered⟩

namespace Sample

/-- Storage in memory to which an update of the first input cannot be applied. -/
def fragile (index : IndexId) : StoreHandle (MemoryIndex Nat Nat) (Mapping Nat Nat) :=
  let memory := StoreHandle.memory (fun content => .ok (Std.ExtTreeMap.empty.insert content.size 1))
    index
  { memory with
    apply := fun update =>
      if update.input = ⟨1⟩ then Action.fail (.error (.storage "disk full"))
      else memory.apply update }

/-- A service with such storage. -/
def fragility : Environment (MemoryIndex Nat Nat) (Mapping Nat Nat) Unit :=
  ⟨.standard, .ofStores fragile, .registry, .zero⟩

theorem namesAsked_fragility : fragility.handle.NamesAsked :=
  Handle.namesAsked_ofStores fun index => StoreHandle.names_memory _ index

/-- One thread updates the file that cannot be stored and rebuilds the index, and another thread
updates another file. -/
def failing : List (List Command) :=
  [[.execute (.update sizes (content 3) ⟨1⟩ .synchronous), .rebuild sizes []],
    [.execute (.update sizes (content 5) ⟨2⟩ .synchronous)]]

/-- The second thread gets at the lock of the index as soon as the first one has failed. -/
def slipping : List Nat :=
  List.replicate 5 1 ++ List.replicate 14 0 ++ List.replicate 40 1 ++ List.replicate 40 0

end Sample

/-- Between the failure and the request for the rebuild an operation finds the gate open. -/
theorem begins_after_failure_iff_slipping :
    ∃ (log : AccessLog) (q : Pool (ServiceState (MemoryIndex Nat Nat) Unit) (Except Failure Unit)),
      (Sample.fragility.threads Sample.state Sample.failing).Logged log q ∧
        log.events.any (·.beginsOn Sample.sizes) = true ∧
        (log.AtEachBegin Sample.sizes fun t before =>
          (failedSinceStart Sample.sizes before.events = true ↔
            unanswered Sample.sizes (before.beforeLast t).events = true)) ∧
        log.AtEachBegin Sample.sizes fun t before =>
          (failedSinceStart Sample.sizes before.events = true ↔
            ∃ u stage, (before.beforeLast t).AwaitsRequest Sample.sizes u stage) := by
  obtain ⟨x, hx⟩ : ∃ x, (Sample.fragility.threads Sample.state Sample.failing).record
      Sample.slipping = x := ⟨_, rfl⟩
  have hlog := Pool.logged_record (Sample.fragility.threads Sample.state Sample.failing)
    Sample.slipping
  rw [hx] at hlog
  have hbegins : x.1.events.any (·.beginsOn Sample.sizes) = true := by
    rw [← hx]
    decide +kernel
  obtain ⟨hunanswered, hawaits⟩ := begins_after_failure_iff Sample.fragility rfl
    (Handle.isDiscreet_ofStores _) rfl Sample.state (atRest_ofStores _ _ _ _) Sample.failing _ _
    hlog Sample.sizes
  exact ⟨x.1, x.2, hlog, hbegins, hunanswered, hawaits Sample.namesAsked_fragility⟩

/-- So it writes to the damaged index. -/
theorem writes_continue :
    ∃ (log : AccessLog) (q : Pool (ServiceState (MemoryIndex Nat Nat) Unit) (Except Failure Unit)),
      (Sample.fragility.threads Sample.state Sample.failing).Logged log q ∧
        ¬ WritesStop Sample.sizes log :=
  ⟨_, _, Pool.logged_record _ Sample.slipping, by decide +kernel⟩

end FileIndexing
