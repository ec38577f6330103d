import FileIndexing.Proofs.Conduct
import FileIndexing.Service.Command

/-!
# Accesses that disturb nobody

Most accesses of the threads of a service have nothing to do with the way in which the threads keep
out of each other's way.  `ServiceState.Still` describes those that change counters and the log
only, and `ServiceState.Discreet` those that may do anything but touch the locks of the indices,
claim or finish a rebuild, or note that something began or ended.

* `Handle.IsDiscreet` is the condition on a handle under which theorems about all services hold.  A
  handle that gives every index a storage of its own is discreet (`Handle.isDiscreet_ofStores`).
* `QuietClass`, `WorkClass` and `ServiceClass` are the classes of actions that hold what a service
  does besides its proper work.  `WorkClass.mem_execute` and its companions walk once through what a
  service does for its users, so that a proof about a protocol has to look only at the parts in
  which it is at stake.
* `CommandClass.mem_runAll` lifts what is known of single calls to lists of commands, in which a
  rebuild may contain further commands.  It may be known of rebuilds of certain indices only.
-/

namespace FileIndexing

/-- Whether an event tells no more than what is written to the log or counted. -/
def Event.isRemark : Event → Bool
  | .logged _ | .delivered _ _ | .rebuildBegan _ _ | .bumped => true
  | _ => false

/-- Whether an event neither moves a rebuild state nor begins or ends work on storage or a run of a
rebuild. -/
def Event.isIncidental : Event → Bool
  | .executed _ _ | .fileIndexed _ _ _ => true
  | event => event.isRemark

/-- Whether an event tells that an operation was given up because a rebuild was scheduled after it
had begun. -/
def Event.isDropped : Event → Bool
  | .logged (.dropped _) => true
  | _ => false

/-- Whether a record tells neither that an operation was given up nor that not all operations for a
file ran to completion. -/
def LogRecord.isRoutine : LogRecord → Bool
  | .dropped _ | .incomplete _ _ => false
  | _ => true

theorem LogRecord.not_isDropped_of_isRoutine {record : LogRecord} (h : record.isRoutine = true) :
    (Event.logged record).isDropped = false := by
  cases record <;> simp_all [isRoutine, Event.isDropped]

theorem Event.isIncidental_of_isRemark {event : Event} (h : event.isRemark = true) :
    event.isIncidental = true := by
  cases event <;> simp_all [isRemark, isIncidental]

namespace ServiceState

variable {S C : Type}

/-- The later state differs from the earlier one in counters, in the log and in what no index
depends on. -/
structure Still (s t : ServiceState S C) : Prop where
  stores : t.stores = s.stores
  states : ∀ index, t.registry.state index = s.registry.state index
  marks : t.marks = s.marks
  locks : t.locks = s.locks
  coordination : t.coordination = s.coordination
  listeners : t.listeners = s.listeners
  remarks : ∃ events : List Event, (∀ event ∈ events, event.isRemark = true) ∧
    t.journal = events ++ s.journal

/-- The later state comes from the earlier one by an access that does not touch the locks of the
indices, neither claims nor finishes a rebuild, and notes nothing but incidental events. -/
inductive Discreet : ServiceState S C → ServiceState S C → Prop where
  | quiet {s t : ServiceState S C} (events : List Event) : t.locks = s.locks →
      (∀ index, t.registry.state index = s.registry.state index) →
      (∀ event ∈ events, event.isIncidental = true) → t.journal = events ++ s.journal →
      Discreet s t
  | request (s : ServiceState S C) (index : IndexId) :
      Discreet s (s.moveRegistry index (s.registry.markRequired index))

theorem Still.refl (s : ServiceState S C) : s.Still s :=
  ⟨rfl, fun _ => rfl, rfl, rfl, rfl, rfl, [], by simp, rfl⟩

theorem Still.of_eq {s t : ServiceState S C} (hstores : t.stores = s.stores)
    (hregistry : t.registry = s.registry) (hmarks : t.marks = s.marks) (hlocks : t.locks = s.locks)
    (hcoordination : t.coordination = s.coordination) (hlisteners : t.listeners = s.listeners)
    (hjournal : t.journal = s.journal) : s.Still t :=
  ⟨hstores, fun index => by rw [hregistry], hmarks, hlocks, hcoordination, hlisteners, [],
    by simp, hjournal⟩

theorem Still.note (s : ServiceState S C) {event : Event} (h : event.isRemark = true) :
    s.Still (s.note event) :=
  ⟨rfl, fun _ => rfl, rfl, rfl, rfl, rfl, [event], by simpa using h, rfl⟩

theorem Still.discreet {s t : ServiceState S C} (h : s.Still t) : s.Discreet t := by
  obtain ⟨events, hremark, hjournal⟩ := h.remarks
  exact .quiet events h.locks h.states
    (fun event hevent => Event.isIncidental_of_isRemark (hremark event hevent)) hjournal

/-- An access that leaves locks, rebuild states and the journal alone. -/
theorem Discreet.of_eq {s t : ServiceState S C} (hlocks : t.locks = s.locks)
    (hregistry : t.registry = s.registry) (hjournal : t.journal = s.journal) : s.Discreet t :=
  .quiet [] hlocks (fun index => by rw [hregistry]) (by simp) hjournal

theorem Discreet.note (s : ServiceState S C) {event : Event} (h : event.isIncidental = true) :
    s.Discreet (s.note event) :=
  .quiet [event] rfl (fun _ => rfl) (by simpa using h) rfl

@[simp] theorem locks_moveRegistry (s : ServiceState S C) (index : IndexId)
    (registry : RebuildRegistry) : (s.moveRegistry index registry).locks = s.locks := by
  rw [moveRegistry]
  split <;> rfl

@[simp] theorem registry_moveRegistry (s : ServiceState S C) (index : IndexId)
    (registry : RebuildRegistry) : (s.moveRegistry index registry).registry = registry := by
  rw [moveRegistry]
  split <;> rfl

theorem journal_moveRegistry (s : ServiceState S C) (index : IndexId)
    (registry : RebuildRegistry) :
    (s.moveRegistry index registry).journal =
      if s.registry.state index = registry.state index then s.journal
      else .moved index (s.registry.state index) (registry.state index) :: s.journal := by
  rw [moveRegistry]
  split <;> rfl

@[simp] theorem journal_note (s : ServiceState S C) (event : Event) :
    (s.note event).journal = event :: s.journal := rfl

@[simp] theorem locks_note (s : ServiceState S C) (event : Event) :
    (s.note event).locks = s.locks := rfl

@[simp] theorem registry_note (s : ServiceState S C) (event : Event) :
    (s.note event).registry = s.registry := rfl

@[simp] theorem locks_endRebuild (s : ServiceState S C) (index : IndexId) :
    (s.endRebuild index).locks = s.locks := by
  unfold endRebuild
  split <;> simp

@[simp] theorem registry_endRebuild (s : ServiceState S C) (index : IndexId) :
    (s.endRebuild index).registry = s.registry.markFinished index := by
  unfold endRebuild
  split <;> simp

theorem suffix_moveRegistry (s : ServiceState S C) (other : IndexId) (registry : RebuildRegistry) :
    s.journal <:+ (s.moveRegistry other registry).journal := by
  rw [journal_moveRegistry]
  split
  · exact List.suffix_rfl
  · exact List.suffix_cons _ _

theorem suffix_endRebuild (s : ServiceState S C) (other : IndexId) :
    s.journal <:+ (s.endRebuild other).journal := by
  have hmove := suffix_moveRegistry s other (s.registry.markFinished other)
  unfold endRebuild
  split
  · exact hmove
  · exact hmove.trans (List.suffix_cons _ _)

/-- A discreet access adds to the journal at most. -/
theorem Discreet.suffix {s t : ServiceState S C} (h : s.Discreet t) : s.journal <:+ t.journal := by
  cases h with
  | quiet events _ _ _ hjournal => exact ⟨events, hjournal.symm⟩
  | request index => exact suffix_moveRegistry s index _

theorem Discreet.locks_eq {s t : ServiceState S C} (h : s.Discreet t) : t.locks = s.locks := by
  cases h with
  | quiet events hlocks => exact hlocks
  | request index => simp

/-- No index is claimed by a discreet access. -/
theorem Discreet.state_of_running {s t : ServiceState S C} (h : s.Discreet t) {index : IndexId}
    (hrunning : t.registry.state index = .running) : s.registry.state index = .running := by
  cases h with
  | quiet events _ hstates => rw [← hstates, hrunning]
  | request other =>
    rw [registry_moveRegistry, RebuildRegistry.state_markRequired] at hrunning
    split at hrunning
    · simp at hrunning
    · exact hrunning

end ServiceState

open ServiceState

/-! ## Single calls -/

section

variable {S U C : Type}

/-- In test mode the gate is open without anybody looking at it. -/
theorem Environment.isGated_of_testMode {env : Environment S U C} {index : IndexId}
    (htest : env.config.testMode = true) : env.isGated index = pure false := by
  simp [isGated, htest]

/-- Otherwise one look at the registry of the service tells whether the gate is closed. -/
theorem Environment.isGated_of_registry {env : Environment S U C} {index : IndexId}
    (horacle : env.oracle = .registry) (htest : env.config.testMode = false) :
    env.isGated index =
      Action.read (·.registry.state index) >>= fun state => pure (!decide (state = .ok)) := by
  simp [isGated, htest, Oracle.isOk, horacle, Oracle.registry]

/-- What follows a look at the gate finds it open, or as the state of the index is at that look. -/
theorem Environment.obeys_isGated_bind {L α : Type}
    {move : L → ServiceState S C → L → ServiceState S C → Prop} {env : Environment S U C}
    {index : IndexId} {k : Bool → ServiceAction S C α} {post : Except Failure α → L → Prop} {l : L}
    (horacle : env.oracle = .registry)
    (hunlooked : env.config.testMode = true → (k false).program.Obeys move post l)
    (hopen : env.config.testMode = false → ∀ s, s.registry.state index = .ok →
      ∃ l', move l s l' s ∧ (k false).program.Obeys move post l')
    (hclosed : ∀ s, s.registry.state index ≠ .ok →
      ∃ l', move l s l' s ∧ (k true).program.Obeys move post l') :
    (env.isGated index >>= k).program.Obeys move post l := by
  cases htest : env.config.testMode with
  | true =>
    rw [isGated_of_testMode htest, pure_bind]
    exact hunlooked htest
  | false =>
    rw [isGated_of_registry horacle htest, bind_assoc]
    refine Action.obeys_access_bind fun s => ?_
    by_cases hok : s.registry.state index = .ok
    · simpa [hok] using hopen htest s hok
    · simpa [hok] using hclosed s hok

/-- Where a protocol leaves the locks of the indices out of account, an action keeps to it under a
lock as it does without. -/
theorem Service.obeys_withIndexLock {L α : Type}
    {move : L → ServiceState S C → L → ServiceState S C → Prop}
    (hlocks : ∀ l s locks, move l s l { s with locks }) {index : IndexId}
    {a : ServiceAction S C α} {post : Except Failure α → L → Prop} {l : L}
    (ha : a.program.Obeys move post l) : (withIndexLock index a).program.Obeys move post l := by
  have hlocked : ∀ lock, (do
      Action.await (fun s : ServiceState S C => s.locks.isFree lock)
        fun s => { s with locks := s.locks.acquire lock }
      a.ensuring (.update fun s => { s with locks := s.locks.release lock })).program.Obeys
        move post l := by
    intro lock
    refine Action.obeys_await_bind fun s _ => ⟨l, hlocks l s _, ?_⟩
    exact Action.obeys_ensuring ha fun r l' hr s => ⟨l', hlocks l' s _, hr⟩
  have hfind : (findLock index : ServiceAction S C Nat).program.Obeys move
      (fun r l' => ∃ lock, r = .ok lock ∧ l' = l) l := by
    refine Action.obeys_access_bind fun s => ⟨l, hlocks l s _, ?_⟩
    split
    · exact Action.obeys_pure ⟨_, rfl, rfl⟩
    · exact Action.obeys_access fun s => ⟨l, hlocks l s _, _, rfl, rfl⟩
  refine Action.obeys_bind_ok (fun _ l' => l' = l) hfind ?_
  rintro lock _ rfl
  exact hlocked lock

/-- Counting an outcome does not fail. -/
theorem Service.succeeds_recordOutcome (outcome : Outcome) :
    (recordOutcome outcome : ServiceAction S C Unit).Succeeds := by
  cases outcome with
  | applied changed =>
    refine (Action.succeeds_access _).bind fun _ => ?_
    cases changed with
    | true => exact Action.succeeds_access _
    | false => exact Action.succeeds_pure ()
  | _ => exact Action.succeeds_access _

/-- Requesting a rebuild from the registry of a service does not fail. -/
theorem Oracle.succeeds_requestRebuild (index : IndexId) (cause : RebuildCause) :
    (requestRebuild index cause : ServiceAction S C Bool).Succeeds := by
  refine (Action.succeeds_access _).bind fun before => ?_
  cases before with
  | none => exact Action.succeeds_pure false
  | some before =>
    exact (Action.succeeds_access _).bind fun _ => (Action.succeeds_access _).bind fun _ =>
      (Action.succeeds_access _).bind fun _ => Action.succeeds_pure true

theorem Environment.succeeds_requestRebuildOnError {env : Environment S U C}
    (horacle : env.oracle = .registry) (cause : Error) (index : IndexId) :
    (env.requestRebuildOnError cause index).Succeeds := by
  have hrequest : (env.oracle.request index (.ofError cause)).Succeeds := by
    rw [horacle]
    exact Oracle.succeeds_requestRebuild index _
  exact (Action.succeeds_access _).bind fun _ => hrequest.bind fun _ => Action.succeeds_pure ()

/-- The lock of an index is made if it is not there. -/
theorem Service.run_findLock (index : IndexId) (s : ServiceState S C) :
    (findLock index : ServiceAction S C Nat).run s =
      some (.ok (s.locks.findOrMake index).1,
        { s with locks := (s.locks.findOrMake index).2 }) := by
  unfold findLock
  rw [Action.run_bind, Action.run_read]
  cases hfound : s.locks.find? index <;> simp [hfound, IndexLocks.findOrMake]

/-- What an action leaves under the lock of an index, and how the lock is given back. -/
theorem Service.leaves_withIndexLock {α : Type} {index : IndexId} {a : ServiceAction S C α}
    {s : ServiceState S C} {post : Except Failure α → ServiceState S C → Prop}
    (ha : ∀ lock (locks : IndexLocks), locks.held = s.locks.held → lock ∉ s.locks.held →
      a.Leaves { s with locks := locks.acquire lock } fun r t =>
        post r { t with locks := t.locks.release lock }) :
    (withIndexLock index a).Leaves s post := by
  refine Action.leaves_bind (fun r t => ∃ lock locks, r = .ok lock ∧ t = { s with locks } ∧
    locks.held = s.locks.held) ?_ ?_ ?_
  · intro r t hrun
    rw [run_findLock] at hrun
    obtain ⟨rfl, rfl⟩ := Prod.mk.inj (Option.some.inj hrun)
    exact ⟨_, _, rfl, rfl, by rw [IndexLocks.findOrMake]; split <;> rfl⟩
  · rintro lock t ⟨_, locks, hlock, rfl, hheld⟩
    obtain rfl := Except.ok.inj hlock
    refine Action.leaves_await_bind fun hfree => Action.leaves_ensuring (ha lock locks hheld ?_)
    rw [← hheld]
    simpa [IndexLocks.isFree] using hfree
  · rintro failure t ⟨_, _, hlock, -⟩
    cases hlock

/-- A handle all of whose accesses are discreet. -/
structure Handle.IsDiscreet (handle : Handle S U C) : Prop where
  prepare : ∀ index input content, (handle.prepare index input content).program.Every Discreet
  apply : ∀ update, (handle.apply update).program.Every Discreet
  setIndexed : ∀ index input, (handle.setIndexed index input).program.Every Discreet
  setUnindexed : ∀ index input, (handle.setUnindexed index input).program.Every Discreet
  indexingState : ∀ index input, (handle.indexingState index input).program.Every Discreet
  clear : ∀ index, (handle.clear index).program.Every Discreet

theorem Handle.every_onStore [Inhabited S] {α : Type} (index : IndexId) (a : Action S α) :
    (onStore index a : ServiceAction S C α).program.Every Discreet :=
  Program.every_focus (fun _ _ => .of_eq rfl rfl rfl) a.program

/-- A handle that works on the storage of each index through a handle of its own is discreet. -/
theorem Handle.isDiscreet_ofStores [Inhabited S] (handles : IndexId → StoreHandle S U) :
    (ofStores handles : Handle S U C).IsDiscreet where
  prepare _ _ _ := every_onStore _ _
  apply _ := every_onStore _ _
  setIndexed _ _ := every_onStore _ _
  setUnindexed _ _ := every_onStore _ _
  indexingState _ _ := every_onStore _ _
  clear _ := every_onStore _ _

end

/-! ## Walks through the service -/

namespace ActionClass

variable {S C α : Type} {R : ServiceState S C → ServiceState S C → Prop}
  {P : ∀ {α : Type}, ServiceAction S C α → Prop} (hP : ActionClass R @P)

include hP

/-- A class of actions in which the locks of the indices are left out of account. -/
theorem mem_withIndexLock (hlocks : ∀ s locks, R s { s with locks }) (index : IndexId)
    {a : ServiceAction S C α} (ha : P a) : P (Service.withIndexLock index a) := by
  have hfind : P (Service.findLock index : ServiceAction S C Nat) := by
    refine hP.bind (hP.access fun s => hlocks s s.locks) fun found => ?_
    cases found with
    | some lock => exact hP.pure lock
    | none => exact hP.access fun s => hlocks s _
  exact hP.bind hfind fun lock => hP.bind (hP.await fun s _ => hlocks s _) fun _ =>
    hP.ensuring ha (hP.update fun s => hlocks s _)

/-- A class of actions in which the marks are left out of account. -/
theorem mem_withMark (hmarks : ∀ s marks, R s { s with marks }) (mark : WriteMark)
    {a : ServiceAction S C α} (ha : P a) : P (Service.withMark mark a) :=
  hP.bind (hP.await fun s _ => hmarks s _) fun _ =>
    hP.ensuring ha (hP.update fun s => hmarks s _)

/-- A class of actions in which the coordination lock is left out of account. -/
theorem mem_withReadLock (hcoordination : ∀ s coordination, R s { s with coordination })
    {a : ServiceAction S C α} (ha : P a) : P (Service.withReadLock a) :=
  hP.bind (hP.await fun s _ => hcoordination s _) fun _ =>
    hP.ensuring ha (hP.update fun s => hcoordination s _)

theorem mem_withStructuralLock (hcoordination : ∀ s coordination, R s { s with coordination })
    {a : ServiceAction S C α} (ha : P a) : P (Service.withStructuralLock a) :=
  hP.bind (hP.update fun s => hcoordination s _) fun _ =>
    hP.bind (hP.await fun s _ => hcoordination s _) fun _ =>
      hP.ensuring ha (hP.update fun s => hcoordination s _)

end ActionClass

/-! Calls to the registry of a service are in a class that holds the accesses they are made of. -/

namespace ActionClosure

variable {S C α : Type} {P : ∀ {α : Type}, ServiceAction S C α → Prop} (hP : ActionClosure @P)
  {index : IndexId} {cause : RebuildCause}

include hP

theorem mem_startRebuild
    (hmove : P (Action.access fun s : ServiceState S C =>
      (s.registry.canStart index, s.moveRegistry index (s.registry.markRunning index))))
    (hlog : P (Service.log (.rebuildStarted index))) : P (Oracle.startRebuild index) := by
  refine hP.bind hmove fun started => ?_
  split
  · exact hP.bind hlog fun _ => hP.pure _
  · exact hP.pure _

theorem mem_finishRebuild
    (hmove : P (Action.access fun s : ServiceState S C =>
      (s.registry.canFinish index, s.endRebuild index)))
    (hlog : ∀ {record : LogRecord}, record.isRoutine = true → P (Service.log record)) :
    P (Oracle.finishRebuild index) := by
  refine hP.bind hmove fun finished => ?_
  split <;> exact hP.bind (hlog rfl) fun _ => hP.pure _

variable (hcount : P (Action.update fun s : ServiceState S C =>
    { s with registry := s.registry.countRequest index }))
  (hlog : ∀ before, P (Service.log (.rebuildScheduled index before cause)))
  (hrecord : P (Action.update fun s : ServiceState S C =>
    { s with registry := s.registry.recordRequest index cause }))

include hcount hlog hrecord

/-- What follows once a request has moved the state of its index, or has not. -/
theorem mem_recordRequest (before : Option RebuildState) :
    P (match before with
      | none => Pure.pure false
      | some before => do
        Action.update fun s => { s with registry := s.registry.countRequest index }
        Service.log (.rebuildScheduled index before cause)
        Action.update fun s => { s with registry := s.registry.recordRequest index cause }
        Pure.pure true : ServiceAction S C Bool) := by
  cases before with
  | none => exact hP.pure false
  | some before =>
    exact hP.bind hcount fun _ => hP.bind (hlog before) fun _ => hP.bind hrecord fun _ =>
      hP.pure true

theorem mem_requestRebuild (hmove : P (Action.access fun s : ServiceState S C =>
      (if s.registry.canRequest index then some (s.registry.state index) else none,
        s.moveRegistry index (s.registry.markRequired index)))) :
    P (Oracle.requestRebuild index cause) :=
  hP.bind hmove fun before => hP.mem_recordRequest hcount hlog hrecord before

end ActionClosure

/-! What an operation does on the side is in a class that holds the accesses it is made of. -/

namespace ActionClosure

open Service

variable {S U C : Type} {env : Environment S U C}
  {P : ∀ {α : Type}, ServiceAction S C α → Prop} (hP : ActionClosure @P) {index : IndexId}

include hP

theorem mem_notify (hlisteners : P (Action.read (·.listeners)))
    (hdeliver : ∀ listener notice, P (note (.delivered listener notice)))
    (hlog : ∀ notice, P (log (.mappingFailed notice))) (notice : Notice) :
    P (notify notice : ServiceAction S C Unit) := by
  refine hP.bind hlisteners fun listeners => hP.each (fun listener => ?_) listeners
  refine hP.bind (hdeliver listener notice) fun _ => ?_
  cases listener with
  | logging => exact hlog notice
  | recording tag panics =>
    cases panics with
    | true => exact hP.fail _
    | false => exact hP.pure ()

theorem mem_isGated (hstate : P (env.oracle.state index)) : P (env.isGated index) := by
  unfold Environment.isGated
  split
  · exact hP.pure false
  · exact hP.bind (hP.bind hstate fun _ => hP.pure _) fun _ => hP.pure _

theorem mem_requestRebuildOnError {cause : Error} (hlog : P (log (.corrupted index cause)))
    (hrequest : P (env.oracle.request index (.ofError cause))) :
    P (env.requestRebuildOnError cause index) :=
  hP.bind hlog fun _ => hP.bind hrequest fun _ => hP.pure ()

variable (hcount : ∀ f : Counters → Counters, P (count f))

include hcount

theorem mem_recordOutcome (outcome : Outcome) :
    P (recordOutcome outcome : ServiceAction S C Unit) := by
  cases outcome with
  | applied changed =>
    refine hP.bind (hcount _) fun _ => ?_
    cases changed with
    | true => exact hcount _
    | false => exact hP.pure ()
  | _ => exact hcount _

theorem mem_prepareTimed {input : InputId} {content : Option FileContent}
    (hprepare : P (env.handle.prepare index input content)) :
    P (env.prepareTimed index input content) :=
  hP.bind (hP.result hprepare) fun prepared =>
    hP.bind (hcount _) fun _ => hP.bind (hcount _) fun _ => hP.pure prepared

end ActionClosure

/-- A class of actions that holds the accesses by which a service looks at its state, logs and
brings mapping failures to its listeners, and what its oracle does to look at rebuild states and to
request rebuilds. -/
structure PlainClass {S U C : Type} (env : Environment S U C)
    (P : ∀ {α : Type}, ServiceAction S C α → Prop) : Prop extends ActionClosure @P where
  registered : ∀ index, P (Service.isRegistered index)
  indices : P Service.registeredIndices
  listeners : P (Action.read (·.listeners))
  log : ∀ {record : LogRecord}, record.isRoutine = true → P (Service.log record)
  deliver : ∀ listener notice, P (Service.note (.delivered listener notice))
  state : ∀ index, P (env.oracle.state index)
  request : ∀ index cause, P (env.oracle.request index cause)

/-- A class of actions that also holds whatever only counts. -/
structure TallyClass {S U C : Type} (env : Environment S U C)
    (P : ∀ {α : Type}, ServiceAction S C α → Prop) : Prop extends PlainClass env @P where
  drop : ∀ op, P (Service.log (.dropped op))
  count : ∀ f : Counters → Counters, P (Service.count f)
  bump : P Service.bumpModCount

/-- A class of actions that holds whatever only counts, logs, looks at the service or requests a
rebuild, for a service whose rebuild states are kept in its registry. -/
structure QuietClass {S U C : Type} (env : Environment S U C)
    (R : ServiceState S C → ServiceState S C → Prop)
    (P : ∀ {α : Type}, ServiceAction S C α → Prop) : Prop extends ActionClass R @P where
  still : ∀ s t, Still s t → R s t
  request : ∀ s index, R s (s.moveRegistry index (s.registry.markRequired index))
  oracle : env.oracle = .registry

/-- A class of actions that also holds the phases of the handle, and with an action the same action
under a mark or under the coordination lock. -/
structure WorkClass {S U C : Type} (env : Environment S U C)
    (R : ServiceState S C → ServiceState S C → Prop)
    (P : ∀ {α : Type}, ServiceAction S C α → Prop) : Prop extends QuietClass env R @P where
  note : ∀ {event : Event}, event.isIncidental = true → P (Service.note event)
  withMark : ∀ (mark : WriteMark) {α : Type} {a : ServiceAction S C α}, P a →
    P (Service.withMark mark a)
  withReadLock : ∀ {α : Type} {a : ServiceAction S C α}, P a → P (Service.withReadLock a)
  prepare : ∀ index input content, P (env.handle.prepare index input content)
  setIndexed : ∀ index input, P (env.handle.setIndexed index input)
  setUnindexed : ∀ index input, P (env.handle.setUnindexed index input)
  indexingState : ∀ index input, P (env.handle.indexingState index input)

/-- A class of actions that holds whatever is discreet, for a service whose handle is discreet. -/
structure ServiceClass {S U C : Type} (env : Environment S U C)
    (R : ServiceState S C → ServiceState S C → Prop)
    (P : ∀ {α : Type}, ServiceAction S C α → Prop) : Prop extends QuietClass env R @P where
  discreet : ∀ s t, Discreet s t → R s t
  handle : env.handle.IsDiscreet

namespace PlainClass

open Service

variable {S U C α : Type} {env : Environment S U C}
  {P : ∀ {α : Type}, ServiceAction S C α → Prop} (hP : PlainClass env @P)

include hP

theorem mem_notify (notice : Notice) : P (notify notice : ServiceAction S C Unit) :=
  hP.toActionClosure.mem_notify hP.listeners hP.deliver (fun _ => hP.log rfl) notice

theorem mem_isGated (index : IndexId) : P (env.isGated index) :=
  hP.toActionClosure.mem_isGated (hP.state index)

theorem mem_requestRebuildOnError (cause : Error) (index : IndexId) :
    P (env.requestRebuildOnError cause index) :=
  hP.toActionClosure.mem_requestRebuildOnError (hP.log rfl) (hP.request index _)

/-- Applying an update is in a class that holds what the handle does for it. -/
theorem mem_applyUpdate {origin : Origin} {update : PreparedUpdate U}
    (hbegan : P (note (.applyBegan update.index update.input origin)))
    (hended : ∀ changed, P (note (.applyEnded update.index update.input origin changed)))
    (happly : P (env.handle.apply update)) : P (env.applyUpdate origin update) :=
  hP.bind hbegan fun _ => hP.bind (hP.outcome happly) fun r =>
    hP.bind (hended _) fun _ => hP.resume r

/-- What an operation does under the lock of the index: it applies its update unless it finds the
gate closed. -/
theorem mem_applyUnlessGated {update : PreparedUpdate U}
    (happly : P (env.applyUpdate .operation update)) :
    P (do
      if ← env.isGated update.index then pure none
      else some <$> env.applyUpdate .operation update : ServiceAction S C (Option Bool)) := by
  refine hP.bind (hP.mem_isGated _) fun gated => ?_
  split
  · exact hP.pure none
  · exact hP.map _ happly

theorem mem_runUpdateUnless {update : PreparedUpdate U}
    (hlock : ∀ {α : Type} {a : ServiceAction S C α}, P a → P (withIndexLock update.index a))
    (happly : P (env.applyUpdate .operation update)) :
    P (env.runUpdateUnless .operation update env.isGated) :=
  hlock (hP.mem_applyUnlessGated happly)

/-- Clearing an index is in a class that holds what the handle does for it. -/
theorem mem_clearIndex {index : IndexId} (hbegan : P (note (.clearBegan index)))
    (hended : ∀ cleared, P (note (.clearEnded index cleared)))
    (hclear : P (env.handle.clear index)) : P (env.clearIndex index) :=
  hP.bind hbegan fun _ => hP.bind (hP.outcome hclear) fun r =>
    hP.bind (hended _) fun _ => hP.resume r

/-- To start a rebuild in the registry is in a class that holds the access that moves the state. -/
theorem mem_start {index : IndexId} (horacle : env.oracle = .registry)
    (hmove : P (Action.access fun s : ServiceState S C =>
      (s.registry.canStart index, s.moveRegistry index (s.registry.markRunning index)))) :
    P (env.oracle.start index) := by
  rw [horacle]
  exact hP.mem_startRebuild hmove (hP.log rfl)

/-- To finish a rebuild in the registry is in a class that holds the access that moves the state. -/
theorem mem_finish {index : IndexId} (horacle : env.oracle = .registry)
    (hmove : P (Action.access fun s : ServiceState S C =>
      (s.registry.canFinish index, s.endRebuild index))) :
    P (env.oracle.finish index) := by
  rw [horacle]
  exact hP.mem_finishRebuild hmove hP.log

/-- What a rebuild does under the lock of the index: it clears the index if it can claim it. -/
theorem mem_clearIfStarted {index : IndexId} (hstart : P (env.oracle.start index))
    (hnumber : P (Environment.numberRun index : ServiceAction S C Nat))
    (hclear : P (withStructuralLock (env.clearIndex index))) :
    P (do
      if ← env.oracle.start index then
        let run ← Environment.numberRun index
        let cleared ← (withStructuralLock (env.clearIndex index)).outcome
        pure (some (run, cleared))
      else pure none : ServiceAction S C (Option (Nat × Except Failure Unit))) := by
  refine hP.bind hstart fun started => ?_
  split
  · exact hP.bind hnumber fun run => hP.bind (hP.outcome hclear) fun _ => hP.pure _
  · exact hP.pure none

theorem mem_claimAndClear {index : IndexId}
    (hlock : ∀ {α : Type} {a : ServiceAction S C α}, P a → P (withIndexLock index a))
    (hstart : P (env.oracle.start index))
    (hnumber : P (Environment.numberRun index : ServiceAction S C Nat))
    (hclear : P (withStructuralLock (env.clearIndex index))) : P (env.claimAndClear index) :=
  hlock (hP.mem_clearIfStarted hstart hnumber hclear)

/-- What a rebuild does is in a class that holds its claim, what it does with what it has claimed
and its end. -/
theorem mem_rebuildIndex_of_refill {index : IndexId} {repopulate : ServiceAction S C Unit}
    (hclaim : P (env.claimAndClear index))
    (hrefill : ∀ run cleared, P (do
      let r ← (env.refill index cleared repopulate).outcome
      note (.rebuildEnded index run r.toOption)
      Action.resume r : ServiceAction S C RebuildRun)) :
    P (env.rebuildIndex index repopulate) := by
  refine hP.bind (hP.registered index) fun registered => ?_
  split
  · exact hP.raise _
  · refine hP.bind hclaim ?_
    intro r
    rcases r with _ | ⟨run, cleared⟩
    · exact hP.pure _
    · exact hrefill run cleared

/-- Putting a file back is in a class that holds what is done under the mark. -/
theorem mem_indexFile {index : IndexId} {input : InputId} {content : FileContent}
    (hnote : ∀ answer, P (note (.fileIndexed index input answer)))
    (hmarked : P (withMark ⟨index, input⟩ (env.indexMarked index input content))) :
    P (env.indexFile index input content) :=
  hP.bind (hP.outcome hmarked) fun r => hP.bind (hnote _) fun _ => hP.resume r

/-- What is done under the mark to put a file back is in a class that holds the phases. -/
theorem mem_indexMarked {index : IndexId} {input : InputId} {content : FileContent}
    (hprepare : P (env.handle.prepare index input (some content)))
    (hrun : ∀ update, P (env.runUpdate .rebuild update))
    (hset : P (withReadLock (env.handle.setIndexed index input))) :
    P (env.indexMarked index input content) := by
  refine hP.bind (hP.result hprepare) ?_
  intro r
  rcases r with cause | update
  · cases cause with
    | mapping failure => exact hP.bind (hP.mem_notify _) fun _ => hP.pure false
    | _ => exact hP.raise _
  · exact hP.bind (hrun update) fun changed => hP.bind hset fun _ => hP.pure changed

/-- Looking at an indexing state is in a class that holds the look under the lock. -/
theorem mem_indexingState {index : IndexId} {input : InputId}
    (hlook : P (withReadLock (env.handle.indexingState index input))) :
    P (env.indexingState index input) := by
  refine hP.bind (hP.registered index) fun registered => ?_
  split
  · exact hP.map _ hlook
  · exact hP.pure none

end PlainClass

namespace TallyClass

open Service

variable {S U C α : Type} {env : Environment S U C}
  {P : ∀ {α : Type}, ServiceAction S C α → Prop} (hP : TallyClass env @P)

include hP

theorem mem_recordOutcome (outcome : Outcome) :
    P (recordOutcome outcome : ServiceAction S C Unit) :=
  hP.toActionClosure.mem_recordOutcome hP.count outcome

theorem mem_recorded (outcome : Outcome) : P (recorded outcome : ServiceAction S C Outcome) :=
  hP.bind (hP.mem_recordOutcome outcome) fun _ => hP.pure outcome

theorem mem_prepareTimed {index : IndexId} {input : InputId} {content : Option FileContent}
    (hprepare : P (env.handle.prepare index input content)) :
    P (env.prepareTimed index input content) :=
  hP.toActionClosure.mem_prepareTimed hP.count hprepare

/-- The part of an operation whose failures count as damage is in a class that holds the phases. -/
theorem mem_attempt {op : Operation}
    (hprepare : P (env.handle.prepare op.index op.input op.task.content?))
    (hrun : ∀ update, P (env.runUpdateUnless .operation update env.isGated))
    (hset : P (env.setState op)) : P (env.attempt op) := by
  have hcarryOut : ∀ update, P (env.carryOut op update) := by
    intro update
    refine hP.bind (hrun update) ?_
    intro r
    rcases r with _ | changed
    · exact hP.bind (hP.drop op) fun _ => hP.pure _
    · have hsettled : P (do env.setState op; pure (Outcome.applied changed)) :=
        hP.bind hset fun _ => hP.pure _
      dsimp only
      split
      · split
        · exact hP.bind (hP.log rfl) fun _ => hsettled
        · exact hsettled
      · exact hP.pure _
  refine hP.bind (hP.mem_prepareTimed hprepare) ?_
  intro r
  rcases r with cause | update
  · cases cause with
    | mapping failure => exact hP.bind (hP.mem_notify _) fun _ => hP.pure _
    | _ => exact hP.raise _
  · exact hcarryOut update

/-- What an operation does under its mark is in a class that holds the attempt. -/
theorem mem_executeMarked {op : Operation} (hattempt : P (env.attempt op)) :
    P (env.executeMarked op) := by
  refine hP.bind (hP.caught hattempt) ?_
  intro r
  rcases r with cause | outcome
  · exact hP.bind (hP.mem_requestRebuildOnError cause _) fun _ => hP.mem_recorded _
  · exact hP.mem_recorded outcome

/-- To undertake an operation is in a class that holds what is done under its mark. -/
theorem mem_undertake {op : Operation} (hmarked : P (withMark op.mark (env.executeMarked op))) :
    P (env.undertake op) := by
  refine hP.bind (hP.mem_isGated _) fun gated => ?_
  split
  · exact hP.bind (hP.log rfl) fun _ => hP.mem_recorded _
  · refine hP.bind (hP.registered _) fun registered => ?_
    split
    · exact hP.bind (hP.log rfl) fun _ => hP.mem_recorded _
    · exact hP.bind hP.bump fun _ => hP.bind (hP.count _) fun _ => hmarked

/-- An operation is in a class that holds what it does under its mark, and the note of its end. -/
theorem mem_execute {op : Operation} (hnote : ∀ outcome, P (note (.executed op outcome)))
    (hmarked : P (withMark op.mark (env.executeMarked op))) : P (env.execute op) :=
  hP.bind (hP.mem_undertake hmarked) fun outcome => hP.bind (hnote outcome) fun _ =>
    hP.pure outcome

/-- A rebuild is in a class that holds its claim and its end. -/
theorem mem_rebuildIndex {index : IndexId} {repopulate : ServiceAction S C Unit}
    (hclaim : P (env.claimAndClear index)) (hfinish : P (env.oracle.finish index))
    (hended : ∀ run answer, P (note (.rebuildEnded index run answer)))
    (hrepopulate : P repopulate) : P (env.rebuildIndex index repopulate) := by
  have hconclude : ∀ filled, P (env.concludeRebuild index filled) := by
    intro r
    rcases r with cause | _
    · exact hP.bind (hP.mem_requestRebuildOnError cause index) fun _ => hP.raise cause
    · refine hP.bind hP.bump fun _ => hP.bind hfinish fun finished => ?_
      split <;> exact hP.pure _
  have hrefill : ∀ cleared, P (env.refill index cleared repopulate) := fun cleared =>
    hP.bind (hP.result (hP.bind (hP.resume cleared) fun _ => hrepopulate)) hconclude
  exact hP.mem_rebuildIndex_of_refill hclaim fun run cleared =>
    hP.bind (hP.outcome (hrefill cleared)) fun r => hP.bind (hended _ _) fun _ => hP.resume r

end TallyClass

namespace QuietClass

open Service

variable {S U C α : Type} {env : Environment S U C}
  {R : ServiceState S C → ServiceState S C → Prop}
  {P : ∀ {α : Type}, ServiceAction S C α → Prop} (hP : QuietClass env R @P)

include hP

theorem mem_remark {event : Event} (h : event.isRemark = true) :
    P (Service.note event : ServiceAction S C Unit) :=
  hP.update fun s => hP.still _ _ (.note s h)

theorem mem_recordRequest (index : IndexId) (cause : RebuildCause) (before : Option RebuildState) :
    P (match before with
      | none => pure false
      | some before => do
        Action.update fun s => { s with registry := s.registry.countRequest index }
        Service.log (.rebuildScheduled index before cause)
        Action.update fun s => { s with registry := s.registry.recordRequest index cause }
        pure true : ServiceAction S C Bool) := by
  have hcount : P (Action.update fun s : ServiceState S C =>
      { s with registry := s.registry.countRequest index }) := hP.update fun s => hP.still _ _
    ⟨rfl, fun other => by simp, rfl, rfl, rfl, rfl, [], by simp, rfl⟩
  have hrecord : P (Action.update fun s : ServiceState S C =>
      { s with registry := s.registry.recordRequest index cause }) := hP.update fun s =>
    hP.still _ _ ⟨rfl, fun other => by simp, rfl, rfl, rfl, rfl, [], by simp, rfl⟩
  exact hP.closure.mem_recordRequest hcount (fun _ => hP.mem_remark rfl) hrecord before

/-- A quiet class holds whatever a service counts, looks at, logs and requests. -/
theorem calls : TallyClass env @P where
  toActionClosure := hP.closure
  registered _ := hP.access fun s => hP.still _ _ (.refl s)
  indices := hP.access fun s => hP.still _ _ (.refl s)
  listeners := hP.access fun s => hP.still _ _ (.refl s)
  log _ := hP.mem_remark rfl
  deliver _ _ := hP.mem_remark rfl
  state index := by
    rw [hP.oracle]
    exact hP.access fun s => hP.still _ _ (.refl s)
  request index cause := by
    rw [hP.oracle]
    exact hP.bind (hP.access fun s => hP.request s index) fun before =>
      hP.mem_recordRequest index cause before
  drop _ := hP.mem_remark rfl
  count _ := hP.update fun _ => hP.still _ _ (.of_eq rfl rfl rfl rfl rfl rfl rfl)
  bump := hP.access fun _ => hP.still _ _ (.of_eq rfl rfl rfl rfl rfl rfl rfl)

theorem mem_log (record : LogRecord) : P (log record : ServiceAction S C Unit) :=
  hP.mem_remark rfl

theorem mem_start {index : IndexId}
    (hmove : P (Action.access fun s : ServiceState S C =>
      (s.registry.canStart index, s.moveRegistry index (s.registry.markRunning index)))) :
    P (env.oracle.start index) := hP.calls.mem_start hP.oracle hmove

theorem mem_finish {index : IndexId}
    (hmove : P (Action.access fun s : ServiceState S C =>
      (s.registry.canFinish index, s.endRebuild index))) :
    P (env.oracle.finish index) := hP.calls.mem_finish hP.oracle hmove

end QuietClass

namespace WorkClass

open Service

variable {S U C α : Type} {env : Environment S U C}
  {R : ServiceState S C → ServiceState S C → Prop}
  {P : ∀ {α : Type}, ServiceAction S C α → Prop} (hP : WorkClass env R @P)

include hP

theorem mem_setState (op : Operation) : P (env.setState op) := by
  refine hP.withReadLock ?_
  cases op.task with
  | removal => exact hP.setUnindexed op.index op.input
  | update content => exact hP.setIndexed op.index op.input

/-- An operation is in a class that holds the application of updates unless the gate is closed. -/
theorem mem_execute
    (hrun : ∀ update, P (env.runUpdateUnless .operation update env.isGated)) (op : Operation) :
    P (env.execute op) := by
  have hnote : ∀ outcome, P (Service.note (.executed op outcome)) := fun _ => hP.note rfl
  have hattempt := hP.calls.mem_attempt (hP.prepare op.index op.input _) hrun (hP.mem_setState op)
  exact hP.calls.mem_execute hnote (hP.withMark _ (hP.calls.mem_executeMarked hattempt))

/-- Putting a file back is in a class that holds the application of updates for rebuilds. -/
theorem mem_indexFile (hrun : ∀ update, P (env.runUpdate .rebuild update)) (index : IndexId)
    (input : InputId) (content : FileContent) : P (env.indexFile index input content) :=
  hP.calls.mem_indexFile (fun _ => hP.note rfl) (hP.withMark _
    (hP.calls.mem_indexMarked (hP.prepare index input _) hrun
      (hP.withReadLock (hP.setIndexed index input))))

theorem mem_indexingState (index : IndexId) (input : InputId) :
    P (env.indexingState index input) :=
  hP.calls.mem_indexingState (hP.withReadLock (hP.indexingState index input))

end WorkClass

namespace ServiceClass

open Service

variable {S U C α : Type} {env : Environment S U C}
  {R : ServiceState S C → ServiceState S C → Prop}
  {P : ∀ {α : Type}, ServiceAction S C α → Prop}

/-- To be still and to request a rebuild is discreet. -/
theorem of_discreet (hP : ActionClass R @P) (hdiscreet : ∀ s t, Discreet s t → R s t)
    (horacle : env.oracle = .registry) (hhandle : env.handle.IsDiscreet) :
    ServiceClass env R @P where
  toActionClass := hP
  still s t h := hdiscreet s t h.discreet
  request s index := hdiscreet s _ (.request s index)
  oracle := horacle
  discreet := hdiscreet
  handle := hhandle

variable (hP : ServiceClass env R @P)

include hP

theorem mem_of_discreet {a : ServiceAction S C α} (h : a.program.Every Discreet) : P a :=
  hP.every (h.mono hP.discreet)

theorem mem_note {event : Event} (h : event.isIncidental = true) :
    P (Service.note event : ServiceAction S C Unit) :=
  hP.update fun s => hP.discreet _ _ (.note s h)

theorem mem_withMark (mark : WriteMark) {a : ServiceAction S C α} (ha : P a) :
    P (withMark mark a) :=
  hP.toActionClass.mem_withMark (fun _ _ => hP.discreet _ _ (.of_eq rfl rfl rfl)) mark ha

theorem mem_withReadLock {a : ServiceAction S C α} (ha : P a) : P (withReadLock a) :=
  hP.toActionClass.mem_withReadLock (fun _ _ => hP.discreet _ _ (.of_eq rfl rfl rfl)) ha

theorem mem_withStructuralLock {a : ServiceAction S C α} (ha : P a) : P (withStructuralLock a) :=
  hP.toActionClass.mem_withStructuralLock (fun _ _ => hP.discreet _ _ (.of_eq rfl rfl rfl)) ha

theorem work : WorkClass env R @P where
  toQuietClass := hP.toQuietClass
  note := hP.mem_note
  withMark mark _ _ := hP.mem_withMark mark
  withReadLock := hP.mem_withReadLock
  prepare index input content := hP.mem_of_discreet (hP.handle.prepare index input content)
  setIndexed index input := hP.mem_of_discreet (hP.handle.setIndexed index input)
  setUnindexed index input := hP.mem_of_discreet (hP.handle.setUnindexed index input)
  indexingState index input := hP.mem_of_discreet (hP.handle.indexingState index input)

end ServiceClass

/-! ## Commands -/

namespace Command

mutual

/-- A command rebuilds no index but certain ones, also not while another one is being rebuilt. -/
def RebuildsOnly (allowed : IndexId → Prop) : Command → Prop
  | .rebuild index repopulate => allowed index ∧ RebuildsOnlyAll allowed repopulate
  | _ => True

/-- None of some commands rebuilds an index but certain ones. -/
def RebuildsOnlyAll (allowed : IndexId → Prop) : List Command → Prop
  | [] => True
  | command :: rest => RebuildsOnly allowed command ∧ RebuildsOnlyAll allowed rest

end

/-- Where all indices may be rebuilt, all commands keep to that. -/
theorem rebuildsOnlyAll_of_forall {allowed : IndexId → Prop} (h : ∀ index, allowed index)
    (commands : List Command) : RebuildsOnlyAll allowed commands := by
  match commands with
  | [] => simp [RebuildsOnlyAll]
  | .rebuild index repopulate :: rest =>
    rw [RebuildsOnlyAll, RebuildsOnly]
    exact ⟨⟨h index, rebuildsOnlyAll_of_forall h repopulate⟩, rebuildsOnlyAll_of_forall h rest⟩
  | .execute _ :: rest | .applyFile _ :: rest | .updateFile _ _ _ :: rest
  | .removeFile _ _ _ :: rest | .request _ _ :: rest | .indexFile _ _ _ :: rest
  | .fail _ :: rest | .bump :: rest | .indexingState _ _ :: rest =>
    rw [RebuildsOnlyAll]
    exact ⟨by simp [RebuildsOnly], rebuildsOnlyAll_of_forall h rest⟩
termination_by commands

end Command

section Application

variable {S U C : Type} {env : Environment S U C} {P : ∀ {α : Type}, ServiceAction S C α → Prop}

/-- Carrying out the operations for a file is in a class that holds operations and the log record
about those that fail. -/
theorem ActionClosure.mem_applyNow (hP : ActionClosure @P) (hexecute : ∀ op, P (env.execute op))
    (hincomplete : ∀ info mode, P (Service.log (.incomplete info mode)))
    (application : FileApplication) : P (env.applyNow application) := by
  refine hP.bind (hP.collect (fun op => hP.bind (hexecute op) fun _ => hP.pure _) _) ?_
  intro outcomes
  dsimp only
  split
  · exact hP.bind (hincomplete _ _) fun _ => hP.pure _
  · exact hP.pure _

/-- So is leaving them to the workers, if it holds that as well. -/
theorem ActionClosure.mem_apply (hP : ActionClosure @P) (hexecute : ∀ op, P (env.execute op))
    (hincomplete : ∀ info mode, P (Service.log (.incomplete info mode)))
    (hsubmit : ∀ application, P (Action.access fun s : ServiceState S C =>
      let (ticket, deferred) := s.deferred.submit application
      (ticket, { s with deferred })))
    (application : FileApplication) : P (env.apply application) := by
  have hnow := hP.mem_applyNow hexecute hincomplete application
  unfold Environment.apply
  split
  · exact hP.bind hnow fun _ => hP.pure _
  · exact hP.bind (hsubmit application) fun _ => hP.pure _

end Application

/-- Classes of actions, one for every session of a rebuild and one for outside, that hold the calls
by which commands are carried out that rebuild certain indices only.  Of what puts the files of an
index back it has to be known that it is in the class of that session. -/
structure CallClass {S U C : Type} (env : Environment S U C) (allowed : IndexId → Prop)
    (P : Option IndexId → ∀ {α : Type}, ServiceAction S C α → Prop) : Prop where
  closure : ∀ session, ActionClosure (P session)
  registered : ∀ session, P session Service.registeredIndices
  apply : ∀ session application, P session (env.apply application)
  bump : ∀ session, P session Service.increaseModCount
  execute : ∀ session op, P session (env.execute op)
  request : ∀ session index cause, P session (env.oracle.request index cause)
  rebuild : ∀ session index, allowed index → ∀ {repopulate : ServiceAction S C Unit},
    P (some index) repopulate → P session (env.rebuildIndex index repopulate)
  indexFile : ∀ index input content, P (some index) (env.indexFile index input content)
  indexingState : ∀ session index input, P session (env.indexingState index input)

namespace CallClass

open Service

variable {S U C : Type} {env : Environment S U C} {allowed : IndexId → Prop}
  {P : Option IndexId → ∀ {α : Type}, ServiceAction S C α → Prop} (hP : CallClass env allowed P)

include hP

/-- A command is in the class, if the commands are that put the files of an index back. -/
theorem mem_run (session : Option IndexId) (command : Command) (hc : command.RebuildsOnly allowed)
    (hrepopulate : ∀ index repopulate, command = .rebuild index repopulate →
      Command.RebuildsOnlyAll allowed repopulate →
        P (some index) (Command.runAll env (some index) repopulate)) :
    P session (command.run env session) := by
  have hdone : ∀ {α : Type} {a : ServiceAction S C α}, P session a →
      P session (a >>= fun _ => pure ()) := fun ha =>
    (hP.closure _).bind ha fun _ => (hP.closure _).pure ()
  cases command with
  | execute op =>
    rw [Command.run]
    exact hdone (hP.execute session op)
  | applyFile application =>
    rw [Command.run]
    exact hdone (hP.apply session application)
  | updateFile content input mode =>
    rw [Command.run]
    exact hdone ((hP.closure _).bind (hP.registered session) fun _ => hP.apply session _)
  | removeFile file input mode =>
    rw [Command.run]
    exact hdone ((hP.closure _).bind (hP.registered session) fun _ => hP.apply session _)
  | request index cause =>
    rw [Command.run]
    exact hdone (hP.request session index cause)
  | rebuild index repopulate =>
    rw [Command.RebuildsOnly] at hc
    rw [Command.run]
    exact hdone ((hP.closure _).result
      (hP.rebuild session index hc.1 (hrepopulate index repopulate rfl hc.2)))
  | indexFile input content propagate =>
    cases session with
    | none =>
      rw [Command.run]
      exact (hP.closure _).pure ()
    | some index =>
      rw [Command.run]
      refine (hP.closure _).bind ((hP.closure _).result (hP.indexFile index input content)) ?_
      intro r
      rcases r with cause | changed
      · cases propagate with
        | true => exact (hP.closure _).raise cause
        | false => exact (hP.closure _).pure ()
      · exact (hP.closure _).pure ()
  | fail failure =>
    rw [Command.run]
    exact (hP.closure _).fail failure
  | bump =>
    rw [Command.run]
    exact hdone (hP.bump session)
  | indexingState index input =>
    rw [Command.run]
    exact hdone (hP.indexingState session index input)

/-- So are several of them.  The induction is on the commands with those inside rebuilds. -/
theorem mem_runAll (session : Option IndexId) (commands : List Command)
    (hc : Command.RebuildsOnlyAll allowed commands) :
    P session (Command.runAll env session commands) := by
  match commands with
  | [] =>
    rw [Command.runAll]
    exact (hP.closure _).pure ()
  | command :: rest =>
    rw [Command.RebuildsOnlyAll] at hc
    rw [Command.runAll]
    refine (hP.closure _).bind (hP.mem_run session command hc.1 ?_) fun _ =>
      mem_runAll session rest hc.2
    rintro index repopulate rfl hrepopulate
    exact mem_runAll (some index) repopulate hrepopulate
termination_by commands

end CallClass

/-- A class of actions that holds the calls by which commands are carried out that rebuild certain
indices only, in every session, and everything that is still. -/
structure CommandClass {S U C : Type} (env : Environment S U C) (allowed : IndexId → Prop)
    (R : ServiceState S C → ServiceState S C → Prop)
    (P : ∀ {α : Type}, ServiceAction S C α → Prop) : Prop extends ActionClass R @P where
  still : ∀ s t, Still s t → R s t
  execute : ∀ op, P (env.execute op)
  request : ∀ index cause, P (env.oracle.request index cause)
  rebuild : ∀ index, allowed index → ∀ {repopulate : ServiceAction S C Unit}, P repopulate →
    P (env.rebuildIndex index repopulate)
  indexFile : ∀ index input content, P (env.indexFile index input content)
  indexingState : ∀ index input, P (env.indexingState index input)

/-- Where everything that is still is in a class, the session makes no difference. -/
theorem CommandClass.mem_runAll {S U C : Type} {env : Environment S U C}
    {allowed : IndexId → Prop} {R : ServiceState S C → ServiceState S C → Prop}
    {P : ∀ {α : Type}, ServiceAction S C α → Prop} (hP : CommandClass env allowed R @P)
    (session : Option IndexId) (commands : List Command)
    (h : Command.RebuildsOnlyAll allowed commands) : P (Command.runAll env session commands) := by
  have hcalls : CallClass env allowed fun _ => @P := {
    closure := fun _ => hP.closure
    registered := fun _ => hP.access fun s => hP.still _ _ (.refl s)
    apply := fun _ => hP.closure.mem_apply hP.execute
      (fun _ _ => hP.update fun s => hP.still _ _ (.note s rfl))
      fun _ => hP.access fun s => hP.still _ _ (.of_eq rfl rfl rfl rfl rfl rfl rfl)
    bump := fun _ => hP.bind (hP.access fun s => hP.still _ _ (.of_eq rfl rfl rfl rfl rfl rfl rfl))
      fun _ => hP.bind (hP.update fun s => hP.still _ _ (.note s rfl)) fun _ => hP.pure _
    execute := fun _ => hP.execute
    request := fun _ => hP.request
    rebuild := fun _ index hindex => hP.rebuild index hindex
    indexFile := hP.indexFile
    indexingState := fun _ => hP.indexingState }
  exact hcalls.mem_runAll session commands h

end FileIndexing
