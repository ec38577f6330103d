import FileIndexing.Proofs.Accounting
import FileIndexing.Proofs.Errands
import FileIndexing.Proofs.Removal

/-!
# What the modification counter tells readers

Readers of an index compare the modification counter with what it was when they last looked, and
take what they have read for current as long as it is the same.  This module says when they may do
so, for a program that uses a service alone.

* `CallsOnly` are the programs that do nothing but call the service; the files of an index that is
  being rebuilt are put back by such a program as well, whatever it makes of the answers it gets.
  `callsOnly_runAll` says that lists of commands are such programs.
* `Event.isModification` are the events that tell of something counted, and `modCount_eq` says that
  the counter grows by their number.
* `DataMove` is the protocol of a thread that may change data only while it has still to note either
  a modification or the failure of a rebuild, and `dataCalls` says that all calls keep to it.
* `modCount_lt_iff` is the result: after a change of data the counter is higher exactly if a
  modification has been noted, which it has been unless a rebuild has failed.
-/

namespace FileIndexing

open FileIndexing.Action Service ServiceState

/-! ## Programs that call a service -/

section CallsOnly

variable {S U C : Type} {env : Environment S U C}

/-- The programs that do nothing but call a service, besides working on what they share among
themselves.  `session` is the index that is being rebuilt, if any. -/
inductive CallsOnly (env : Environment S U C) :
    Option IndexId → ∀ {α : Type}, ServiceAction S C α → Prop where
  | own {session : Option IndexId} {α : Type} {a : ServiceAction S C α} :
      a.program.Every (fun s t => ∃ client, t = { s with client }) → CallsOnly env session a
  | bind {session : Option IndexId} {α β : Type} {a : ServiceAction S C α}
      {k : α → ServiceAction S C β} : CallsOnly env session a → (∀ v, CallsOnly env session (k v)) →
      CallsOnly env session (a >>= k)
  | outcome {session : Option IndexId} {α : Type} {a : ServiceAction S C α} :
      CallsOnly env session a → CallsOnly env session a.outcome
  | registeredIndices {session : Option IndexId} : CallsOnly env session registeredIndices
  | apply {session : Option IndexId} (application : FileApplication) :
      CallsOnly env session (env.apply application)
  | increaseModCount {session : Option IndexId} : CallsOnly env session increaseModCount
  | execute {session : Option IndexId} (op : Operation) : CallsOnly env session (env.execute op)
  | request {session : Option IndexId} (index : IndexId) (cause : RebuildCause) :
      CallsOnly env session (env.oracle.request index cause)
  | rebuildIndex {session : Option IndexId} (index : IndexId)
      {repopulate : ServiceAction S C Unit} : CallsOnly env (some index) repopulate →
      CallsOnly env session (env.rebuildIndex index repopulate)
  | indexFile (index : IndexId) (input : InputId) (content : FileContent) :
      CallsOnly env (some index) (env.indexFile index input content)
  | indexingState {session : Option IndexId} (index : IndexId) (input : InputId) :
      CallsOnly env session (env.indexingState index input)

/-- Classes of actions that hold all calls hold what does nothing but call. -/
theorem CallsOnly.mem {P : Option IndexId → ∀ {α : Type}, ServiceAction S C α → Prop}
    (hP : CallClass env (fun _ => True) P)
    (hown : ∀ session {α : Type} {a : ServiceAction S C α},
      a.program.Every (fun s t => ∃ client, t = { s with client }) → P session a)
    {session : Option IndexId} {α : Type} {a : ServiceAction S C α} (h : CallsOnly env session a) :
    P session a := by
  induction h with
  | own h => exact hown _ h
  | bind _ _ iha ihk => exact (hP.closure _).bind iha ihk
  | outcome _ ih => exact (hP.closure _).outcome ih
  | registeredIndices => exact hP.registered _
  | apply application => exact hP.apply _ application
  | increaseModCount => exact hP.bump _
  | execute op => exact hP.execute _ op
  | request index cause => exact hP.request _ index cause
  | rebuildIndex index _ ih => exact hP.rebuild _ index trivial ih
  | indexFile index input content => exact hP.indexFile index input content
  | indexingState index input => exact hP.indexingState _ index input

/-- Lists of commands do nothing but call. -/
theorem callsOnly_runAll (session : Option IndexId) (commands : List Command) :
    CallsOnly env session (Command.runAll env session commands) := by
  have hcalls : CallClass env (fun _ => True) fun session {_} a => CallsOnly env session a := {
    closure := fun _ => ⟨fun r => .own (by cases r <;> trivial), .bind, .outcome⟩
    registered := fun _ => .registeredIndices
    apply := fun _ => .apply
    bump := fun _ => .increaseModCount
    execute := fun _ => .execute
    request := fun _ => .request
    rebuild := fun _ index _ _ => .rebuildIndex index
    indexFile := .indexFile
    indexingState := fun _ => .indexingState }
  exact hcalls.mem_runAll session commands (Command.rebuildsOnlyAll_of_forall (fun _ => trivial) _)

end CallsOnly

/-! ## What the counter counts -/

namespace Event

/-- Whether an event tells of a modification that has been counted: an operation that had been begun
has come to its end, somebody counted a modification of their own, or the files of an index have
been put back. -/
def isModification (event : Event) : Bool :=
  event.countsFor .beginnings || event.countsFor .modifications

/-- Whether an event tells that a rebuild that had cleared its index has failed. -/
def isFailedRebuild : Event → Bool
  | .rebuildEnded _ _ none => true
  | _ => false

theorem not_beginnings_of_modifications (event : Event)
    (h : event.countsFor .modifications = true) : event.countsFor .beginnings = false := by
  cases event <;> first | rfl | cases h

end Event

section Counter

variable {S U C α : Type} {env : Environment S U C} {a : ServiceAction S C α}

/-- What does nothing but call leaves no surplus. -/
theorem CallsOnly.isBalanced (horacle : env.oracle = .registry) (hhandle : env.handle.IsBalanced)
    {session : Option IndexId} (h : CallsOnly env session a) : a.IsBalanced := by
  refine h.mem (balancedCalls horacle hhandle) fun _ _ _ hown => ?_
  refine accountClass.every (hown.mono fun s t hclient => ?_)
  obtain ⟨client, rfl⟩ := hclient
  exact .of_eq rfl rfl rfl

/-- The counter grows by the number of modifications that are noted. -/
theorem modCount_eq (ha : a.IsBalanced) {s t : ServiceState S C} {r : Except Failure α}
    (hjournal : s.journal <:+ t.journal) (hrun : a.run s = some (r, t)) :
    t.modCount = s.modCount + UInt64.ofNat ((s.eventsUntil t).countP Event.isModification) := by
  have hbeginnings := (ha .beginnings).run_eq hrun
  have hmodifications := (ha .modifications).run_eq hrun
  obtain ⟨events, hevents⟩ := hjournal
  have hsum : ∀ u : ServiceState S C,
      u.noted .beginnings + u.noted .modifications = u.tally Event.isModification := fun u =>
    (tally_or Event.not_beginnings_of_modifications).symm
  have hs := hsum s
  have ht := hsum t
  have htally : t.tally Event.isModification =
      UInt64.ofNat (events.countP Event.isModification) + s.tally Event.isModification := by
    rw [tally, tally, ← hevents, List.countP_append, UInt64.ofNat_add]
  rw [eventsUntil_of_journal events hevents.symm]
  simp only [surplus, counted] at hbeginnings hmodifications
  grind

end Counter

/-! ## What may become of the data -/

section Data

variable {K V C : Type} [Ord K] {s t u : MemoryState K V C}

namespace ServiceState

/-- The stored data of every index are the same. -/
def SameData (s t : MemoryState K V C) : Prop :=
  ∀ index, (storeAt t.stores index).data = (storeAt s.stores index).data

/-- An access that leaves the stored data alone and adds to the journal at most. -/
structure KeepsData (s t : MemoryState K V C) : Prop where
  journal : s.journal <:+ t.journal
  data : s.SameData t

theorem KeepsData.of_eq (hjournal : t.journal = s.journal) (hstores : t.stores = s.stores) :
    s.KeepsData t :=
  ⟨hjournal ▸ List.suffix_rfl, fun index => by rw [hstores]⟩

theorem KeepsData.note (s : MemoryState K V C) (event : Event) : s.KeepsData (s.note event) :=
  ⟨List.suffix_cons _ _, fun _ => rfl⟩

theorem KeepsData.moveRegistry (s : MemoryState K V C) (index : IndexId)
    (registry : RebuildRegistry) : s.KeepsData (s.moveRegistry index registry) := by
  refine ⟨suffix_moveRegistry s index registry, fun other => ?_⟩
  rw [ServiceState.moveRegistry]
  split <;> rfl

theorem Still.keepsData (h : s.Still t) : s.KeepsData t :=
  ⟨h.discreet.suffix, fun index => by rw [h.stores]⟩

end ServiceState

/-- Where a thread stands with the data. -/
inductive DataPlace where
  /-- Whatever it has changed has been noted. -/
  | settled
  /-- It may change data, and has yet to note a modification or the failure of a rebuild. -/
  | working
  deriving DecidableEq

/-- What a thread may do to data by one access. -/
inductive DataMove : DataPlace → MemoryState K V C → DataPlace → MemoryState K V C → Prop where
  | keep {place : DataPlace} {s t : MemoryState K V C} : s.KeepsData t → DataMove place s place t
  | work {place : DataPlace} {s t : MemoryState K V C} :
      s.journal <:+ t.journal → DataMove place s .working t
  | settle (s : MemoryState K V C) {event : Event} :
      event.isModification = true ∨ event.isFailedRebuild = true →
      DataMove .working s .settled (s.note event)

/-- What is known of the data since a state: if the thread has noted whatever it has changed, they
are the same, or a modification or the failure of a rebuild has been noted. -/
structure DataSince (s : MemoryState K V C) (place : DataPlace) (t : MemoryState K V C) :
    Prop where
  journal : s.journal <:+ t.journal
  noted : place = .settled → s.SameData t ∨
    ∃ event ∈ s.eventsUntil t, event.isModification = true ∨ event.isFailedRebuild = true

/-- Every access keeps what is known of the data. -/
theorem DataSince.step {place place' : DataPlace} (h : DataSince s place t)
    (hmove : DataMove place t place' u) : DataSince s place' u := by
  cases hmove with
  | keep hkeeps =>
    refine ⟨h.journal.trans hkeeps.journal, fun hsettled => ?_⟩
    rcases h.noted hsettled with hsame | ⟨event, hevent, hnoted⟩
    · exact .inl fun index => (hkeeps.data index).trans (hsame index)
    · exact .inr ⟨event, mem_eventsUntil_of_suffix h.journal hkeeps.journal hevent, hnoted⟩
  | work hjournal => exact ⟨h.journal.trans hjournal, nofun⟩
  | @settle _ event hnoted =>
    obtain ⟨events, hevents⟩ := h.journal
    have hjournal : (t.note event).journal = (event :: events) ++ s.journal := by simp [hevents]
    refine ⟨⟨event :: events, hjournal.symm⟩, fun _ => .inr ⟨event, ?_, hnoted⟩⟩
    rw [eventsUntil_of_journal _ hjournal]
    exact List.mem_cons_self

end Data

/-! ## Calls -/

/-- Where a thread stands after an attempt to carry out an operation: if the operation has been
dropped, that has been noted. -/
def DataPlace.after {ε : Type} : Except ε Outcome → DataPlace
  | .ok outcome => if outcome.isConclusive then .working else .settled
  | .error _ => .working

section Calls

variable {K V C : Type} [Ord K] [Std.TransOrd K] [BEq V] {config : Config}
  {indexers : IndexId → Indexer K V}

/-- What leaves the data alone leaves a thread at its place. -/
theorem keepsDataClass (config : Config) (indexers : IndexId → Indexer K V) (place : DataPlace) :
    QuietClass (Environment.memory config indexers : Environment _ _ C) KeepsData
      fun {_} a => a.Neutral DataMove place where
  toActionClass := .ofNeutral fun _ _ => .keep
  still _ _ h := h.keepsData
  request s index := .moveRegistry s index _
  oracle := rfl

/-- Whatever a service does leaves a thread at work that is at work. -/
theorem workingClass (config : Config) (indexers : IndexId → Indexer K V) :
    ServiceClass (Environment.memory config indexers : Environment _ _ C)
      (fun s t => s.journal <:+ t.journal) fun {_} a => a.Neutral DataMove .working :=
  .of_discreet (.ofNeutral fun _ _ => .work) (fun _ _ h => h.suffix) rfl
    (Handle.isDiscreet_ofStores _)

omit [Std.TransOrd K] [BEq V] in
theorem working_note (event : Event) :
    (note event : ServiceAction (MemoryIndex K V) C Unit).Neutral DataMove .working :=
  (ActionClass.ofNeutral fun _ _ => .work).update fun _ => List.suffix_cons _ _

omit [Std.TransOrd K] [BEq V] in
theorem working_withIndexLock {α : Type} (index : IndexId)
    {a : ServiceAction (MemoryIndex K V) C α} (ha : a.Neutral DataMove .working) :
    (withIndexLock index a).Neutral DataMove .working :=
  obeys_withIndexLock (fun _ _ _ => .keep (.of_eq rfl rfl)) ha

theorem working_applyUpdate (origin : Origin) (update : PreparedUpdate (Mapping K V)) :
    ((Environment.memory config indexers : Environment _ _ C).applyUpdate origin update).Neutral
      DataMove .working := by
  have hG := workingClass (C := C) config indexers
  exact hG.calls.mem_applyUpdate (working_note _) (fun _ => working_note _)
    (hG.mem_of_discreet (hG.handle.apply update))

theorem working_execute (op : Operation) :
    ((Environment.memory config indexers : Environment _ _ C).execute op).Neutral DataMove
      .working := by
  have hG := workingClass (C := C) config indexers
  exact hG.work.mem_execute (fun update => hG.calls.mem_runUpdateUnless (working_withIndexLock _)
    (working_applyUpdate .operation update)) op

theorem working_clearIndex (index : IndexId) :
    (withStructuralLock ((Environment.memory config indexers :
      Environment _ _ C).clearIndex index)).Neutral DataMove .working := by
  have hG := workingClass (C := C) config indexers
  exact hG.mem_withStructuralLock (hG.calls.mem_clearIndex (working_note _)
    (fun _ => working_note _) (hG.mem_of_discreet (hG.handle.clear index)))

omit [Std.TransOrd K] [BEq V] in
theorem working_numberRun (index : IndexId) :
    (Environment.numberRun index : ServiceAction (MemoryIndex K V) C Nat).Neutral DataMove
      .working :=
  (ActionClass.ofNeutral fun _ _ => .work).access fun _ => List.suffix_cons _ _

theorem working_rebuildIndex (index : IndexId)
    {repopulate : ServiceAction (MemoryIndex K V) C Unit}
    (hrepopulate : repopulate.Neutral DataMove .working) :
    ((Environment.memory config indexers : Environment _ _ C).rebuildIndex index
      repopulate).Neutral DataMove .working := by
  have hG := workingClass (C := C) config indexers
  refine hG.calls.mem_rebuildIndex ?_ ?_ (fun _ _ => working_note _) hrepopulate
  · exact hG.calls.mem_claimAndClear (working_withIndexLock index)
      (hG.mem_start (hG.access fun s => suffix_moveRegistry s index _))
      (working_numberRun index) (working_clearIndex index)
  · exact hG.mem_finish (hG.access fun s => suffix_endRebuild s index)

theorem working_indexFile (index : IndexId) (input : InputId) (content : FileContent) :
    ((Environment.memory config indexers : Environment _ _ C).indexFile index input
      content).Neutral DataMove .working := by
  have hG := workingClass (C := C) config indexers
  exact hG.work.mem_indexFile (fun update => working_withIndexLock update.index
    (working_applyUpdate .rebuild update)) index input content

/-- An attempt to carry out an operation notes that the operation is dropped, or leaves it to what
follows to note what has become of it. -/
theorem obeys_attempt_data (op : Operation) :
    ((Environment.memory config indexers : Environment _ _ C).attempt op).program.Obeys DataMove
      (fun r l => l = DataPlace.after r) .working := by
  have hG := workingClass (C := C) config indexers
  have happlied : ∀ changed,
      (do (Environment.memory config indexers : Environment _ _ C).setState op
          pure (Outcome.applied changed)).program.Obeys DataMove (fun r l => l = DataPlace.after r)
        .working := fun changed =>
    obeys_bind _ (hG.work.mem_setState op) (fun _ _ hl => by subst hl; exact obeys_pure rfl)
      fun _ _ hl => hl
  have hcarryOut : ∀ update,
      ((Environment.memory config indexers : Environment _ _ C).carryOut op update).program.Obeys
        DataMove (fun r l => l = DataPlace.after r) .working := by
    intro update
    refine obeys_bind _ (hG.calls.mem_runUpdateUnless (working_withIndexLock _)
      (working_applyUpdate .operation update)) ?_ fun _ _ hl => hl
    rintro (_ | changed) _ rfl
    · exact obeys_access_bind fun s => ⟨.settled, .settle s (.inl rfl), obeys_pure rfl⟩
    · dsimp only
      split
      · split
        · exact obeys_access_bind fun s => ⟨.working, .work (List.suffix_cons _ _), happlied _⟩
        · exact happlied _
      · exact obeys_pure rfl
  refine obeys_bind _ (hG.calls.mem_prepareTimed (hG.work.prepare op.index op.input _)) ?_
    fun _ _ hl => hl
  rintro (cause | update) _ rfl
  · cases cause with
    | mapping failure =>
      exact obeys_bind _ (hG.calls.mem_notify _) (fun _ _ hl => by subst hl; exact obeys_pure rfl)
        fun _ _ hl => hl
    | _ => exact obeys_fail rfl
  · exact hcarryOut update

/-- To count an outcome leaves a thread at its place. -/
theorem obeys_recorded_data (config : Config) (indexers : IndexId → Indexer K V)
    (outcome : Outcome) (place : DataPlace) :
    (recorded outcome : ServiceAction (MemoryIndex K V) C Outcome).program.Obeys DataMove
      (fun r l => r = .ok outcome ∧ l = place) place := by
  refine (succeeds_recordOutcome outcome).obeys_bind
    ((keepsDataClass config indexers place).calls.mem_recordOutcome outcome) ?_
  rintro _ _ rfl
  exact obeys_pure ⟨rfl, rfl⟩

/-- If an operation has left something to note, it is a modification by the outcome. -/
theorem obeys_executeMarked_data (op : Operation) :
    ((Environment.memory config indexers : Environment _ _ C).executeMarked op).program.Obeys
      DataMove (fun r l => ∃ outcome, r = .ok outcome ∧
        (l = .working → outcome.isConclusive = true)) .working := by
  have hG := workingClass (C := C) config indexers
  refine obeys_bind_ok (fun answer l => l = DataPlace.after answer)
    (obeys_caught ((obeys_attempt_data op).mono ?_)) ?_
  · rintro r _ rfl
    exact ⟨_, rfl, by cases r <;> rfl⟩
  · rintro (cause | outcome) _ rfl
    · refine (Environment.succeeds_requestRebuildOnError rfl cause op.index).obeys_bind
        (hG.calls.mem_requestRebuildOnError cause op.index) ?_
      rintro _ _ rfl
      exact (obeys_recorded_data config indexers _ _).mono fun _ _ h => ⟨_, h.1, fun _ => rfl⟩
    · refine (obeys_recorded_data config indexers outcome _).mono ?_
      rintro _ _ ⟨rfl, rfl⟩
      refine ⟨outcome, rfl, fun hworking => ?_⟩
      by_contra hdropped
      simp [DataPlace.after, hdropped] at hworking

theorem obeys_undertake_data (op : Operation) :
    ((Environment.memory config indexers : Environment _ _ C).undertake op).program.Obeys
      DataMove (fun r l => ∃ outcome, r = .ok outcome ∧
        (l = .working → outcome.isConclusive = true)) .settled := by
  have hK := keepsDataClass (C := C) config indexers .settled
  have hrefused : ∀ (record : LogRecord) (outcome : Outcome), (do
      log record
      recorded outcome : ServiceAction (MemoryIndex K V) C Outcome).program.Obeys DataMove
        (fun r l => ∃ outcome, r = .ok outcome ∧ (l = .working → outcome.isConclusive = true))
        .settled := by
    intro record outcome
    refine obeys_access_bind fun s => ⟨.settled, .keep (.note s _), ?_⟩
    exact (obeys_recorded_data config indexers outcome _).mono
      fun _ _ h => ⟨outcome, h.1, fun hworking => nomatch h.2.symm.trans hworking⟩
  refine (Environment.succeeds_isGated rfl op.index).obeys_bind (hK.calls.mem_isGated _) ?_
  rintro gated _ rfl
  split
  · exact hrefused _ _
  · refine obeys_access_bind fun s => ⟨.settled, .keep (.of_eq rfl rfl), ?_⟩
    split
    · exact hrefused _ _
    · refine obeys_access_bind fun s => ⟨.settled, .keep (.of_eq rfl rfl), ?_⟩
      refine obeys_access_bind fun s => ⟨.settled, .keep (.of_eq rfl rfl), ?_⟩
      refine obeys_await_bind fun s _ => ⟨.working, .work List.suffix_rfl, ?_⟩
      exact obeys_ensuring (obeys_executeMarked_data op) fun _ place hnoted s =>
        ⟨place, .keep (.of_eq rfl rfl), hnoted⟩

/-- An operation notes what it may have changed. -/
theorem settled_execute (op : Operation) :
    ((Environment.memory config indexers : Environment _ _ C).execute op).Neutral DataMove
      .settled := by
  refine obeys_bind_ok (fun outcome place => place = .working → outcome.isConclusive = true)
    (obeys_undertake_data op) ?_
  rintro outcome (_ | _) hnoted
  · exact obeys_access_bind fun s => ⟨.settled, .keep (.note s _), obeys_pure rfl⟩
  · refine obeys_access_bind fun s => ⟨.settled, .settle s (.inl ?_), obeys_pure rfl⟩
    simp [Event.isModification, Event.countsFor, Event.isConclusion, hnoted rfl]

/-- A rebuild that has cleared its index ends in one of three ways. -/
theorem obeys_refill_data (index : IndexId) (cleared : Except Failure Unit)
    {repopulate : ServiceAction (MemoryIndex K V) C Unit}
    (hrepopulate : repopulate.Neutral DataMove .working) :
    ((Environment.memory config indexers : Environment _ _ C).refill index cleared
      repopulate).program.Obeys DataMove (fun r l => l = .working ∧ r ≠ .ok .notScheduled)
        .working := by
  have hG := workingClass (C := C) config indexers
  have hfilled : (Action.result do
      Action.resume cleared
      repopulate : ServiceAction (MemoryIndex K V) C _).Neutral DataMove .working :=
    hG.calls.result (hG.calls.bind (hG.resume cleared) fun _ => hrepopulate)
  refine obeys_bind _ hfilled ?_ fun _ _ hl => ⟨hl, by simp⟩
  rintro (cause | _) _ rfl
  · exact obeys_bind _ (hG.calls.mem_requestRebuildOnError cause index)
      (fun _ _ hl => obeys_fail ⟨hl, by simp⟩) fun _ _ hl => ⟨hl, by simp⟩
  · refine obeys_bind _ hG.calls.bump ?_ fun _ _ hl => ⟨hl, by simp⟩
    rintro _ _ rfl
    refine obeys_bind _ (hG.mem_finish (hG.access fun s => suffix_endRebuild s index)) ?_
      fun _ _ hl => ⟨hl, by simp⟩
    rintro finished _ rfl
    cases finished <;> exact obeys_pure ⟨rfl, by simp⟩

/-- What a rebuild claims it clears. -/
theorem obeys_claimAndClear_data (index : IndexId) :
    ((Environment.memory config indexers : Environment _ _ C).claimAndClear index).program.Obeys
      DataMove (fun r l => ∃ claimed, r = .ok claimed ∧
        l = if claimed.isSome then .working else .settled) .settled := by
  have hG := workingClass (C := C) config indexers
  have hK := keepsDataClass (C := C) config indexers .settled
  have hstart : ((Environment.memory config indexers : Environment _ _ C).oracle.start
      index).program.Obeys DataMove (fun r l => ∃ started, r = .ok started ∧
        l = if started then .working else .settled) .settled := by
    refine obeys_access_bind fun s => ?_
    cases hcan : s.registry.canStart index with
    | true =>
      exact ⟨.working, .work (suffix_moveRegistry s index _), obeys_access_bind fun t =>
        ⟨.working, .work (List.suffix_cons _ _), obeys_pure ⟨true, rfl, rfl⟩⟩⟩
    | false => exact ⟨.settled, .keep (.moveRegistry s index _), obeys_pure ⟨false, rfl, rfl⟩⟩
  refine obeys_withIndexLock (fun _ _ _ => .keep (.of_eq rfl rfl)) (obeys_bind_ok _ hstart ?_)
  rintro started _ rfl
  cases started with
  | true =>
    refine obeys_access_bind fun s => ⟨.working, .work (List.suffix_cons _ _), ?_⟩
    exact obeys_outcome_bind _ (working_clearIndex index) fun cleared _ hl =>
      obeys_pure ⟨_, rfl, hl⟩
  | false => exact obeys_pure ⟨none, rfl, rfl⟩

/-- A rebuild notes that the files of its index have been put back or that it has failed, if it has
cleared the index. -/
theorem settled_rebuildIndex (index : IndexId)
    {repopulate : ServiceAction (MemoryIndex K V) C Unit}
    (hrepopulate : repopulate.Neutral DataMove .working) :
    ((Environment.memory config indexers : Environment _ _ C).rebuildIndex index
      repopulate).Neutral DataMove .settled := by
  have hK := keepsDataClass (C := C) config indexers .settled
  refine hK.bind (hK.calls.registered index) fun registered => ?_
  split
  · exact hK.raise _
  · refine obeys_bind_ok _ (obeys_claimAndClear_data index) ?_
    rintro claimed _ rfl
    rcases claimed with _ | ⟨run, cleared⟩
    · exact obeys_pure rfl
    · refine obeys_outcome_bind _ (obeys_refill_data index cleared hrepopulate) ?_
      rintro r _ ⟨rfl, hr⟩
      refine obeys_access_bind fun s => ⟨.settled, .settle s ?_, obeys_resume rfl⟩
      rcases r with _ | _ | _ | _ <;> simp_all [Event.isModification, Event.countsFor,
        Event.isRefill, Event.isFailedRebuild, Except.toOption]

/-- Looking at an indexing state changes no data. -/
theorem neutral_indexingState_data (place : DataPlace) (index : IndexId) (input : InputId) :
    ((Environment.memory config indexers : Environment _ _ C).indexingState index input).Neutral
      DataMove place := by
  have hK := keepsDataClass (C := C) config indexers place
  refine hK.calls.mem_indexingState
    (hK.toActionClass.mem_withReadLock (fun _ _ => .of_eq rfl rfl) ?_)
  rw [memory_indexingState, Action.read, Handle.onStore_access]
  refine hK.access fun s => ⟨List.suffix_rfl, fun other => ?_⟩
  show (storeAt (s.stores.insert index (storeAt s.stores index)) other).data = _
  rw [storeAt_insert]
  split
  · next hindex => rw [hindex]
  · rfl

/-- Where a thread stands between two calls: while an index is being rebuilt, what has been changed
is noted when the rebuild ends. -/
def DataPlace.between : Option IndexId → DataPlace
  | none => .settled
  | some _ => .working

/-- All calls keep to the protocol. -/
theorem dataCalls (config : Config) (indexers : IndexId → Indexer K V) :
    CallClass (Environment.memory config indexers : Environment _ _ C) (fun _ => True)
      fun session {_} a => a.Neutral DataMove (.between session) := by
  have hK := fun place => keepsDataClass (C := C) config indexers place
  have hexecute : ∀ session op, ((Environment.memory config indexers :
      Environment _ _ C).execute op).Neutral DataMove (.between session) := by
    intro session op
    cases session with
    | none => exact settled_execute op
    | some index => exact working_execute op
  exact {
    closure := fun session => (hK (.between session)).closure
    registered := fun session => (hK (.between session)).calls.indices
    apply := fun session => (hK (.between session)).closure.mem_apply (hexecute session)
      (fun _ _ => (hK _).mem_log _) fun _ => (hK _).access fun _ => .of_eq rfl rfl
    bump := fun _ => (hK _).bind (hK _).calls.bump fun _ =>
      (hK _).bind ((hK _).update fun s => .note s _) fun _ => (hK _).pure _
    execute := hexecute
    request := fun session => (hK (.between session)).calls.request
    rebuild := fun session index _ _ hrepopulate => by
      cases session with
      | none => exact settled_rebuildIndex index hrepopulate
      | some other => exact working_rebuildIndex index hrepopulate
    indexFile := working_indexFile
    indexingState := fun session => neutral_indexingState_data (.between session) }

/-! ## The result -/

/-- A program that does nothing but call a service changes no data without noting it. -/
theorem dataSince_of_run {α : Type} {a : ServiceAction (MemoryIndex K V) C α}
    (ha : CallsOnly (Environment.memory config indexers) none a) {s t : MemoryState K V C}
    {r : Except Failure α} (hrun : a.run s = some (r, t)) : DataSince s .settled t := by
  have hneutral : a.Neutral DataMove (.between none) := by
    refine ha.mem (dataCalls config indexers) fun session _ _ hown => ?_
    refine (keepsDataClass config indexers (.between session)).every (hown.mono fun s t h => ?_)
    obtain ⟨client, rfl⟩ := h
    exact .of_eq rfl rfl
  obtain ⟨_, rfl, hsince⟩ := leaves_of_obeys (DataSince s)
    (fun _ _ _ _ hsince hmove => hsince.step hmove) hneutral
    ⟨List.suffix_rfl, fun _ => .inl fun _ => rfl⟩ r t hrun
  exact hsince

/-- After a program has changed stored data, the modification counter is higher than before exactly
if a modification has been noted in between.  It is so unless a rebuild has failed in between: what
such a rebuild has cleared or put back is not counted. -/
theorem modCount_lt_iff (config : Config) (indexers : IndexId → Indexer K V) {α : Type}
    (a : ServiceAction (MemoryIndex K V) C α)
    (ha : CallsOnly (Environment.memory config indexers) none a) (s t : MemoryState K V C)
    (r : Except Failure α) (hrun : a.run s = some (r, t)) (index : IndexId)
    (hchanged : (storeAt t.stores index).data ≠ (storeAt s.stores index).data)
    (hfits : s.modCount.toNat + (s.eventsUntil t).countP Event.isModification < 2 ^ 64) :
    (s.modCount < t.modCount ↔ ∃ event ∈ s.eventsUntil t, event.isModification = true) ∧
      ((∀ event ∈ s.eventsUntil t, event.isFailedRebuild = false) →
        s.modCount < t.modCount) := by
  have hsince := dataSince_of_run ha hrun
  have hcount := modCount_eq (ha.isBalanced rfl (Handle.isBalanced_ofStores _)) hsince.journal hrun
  have hiff : s.modCount < t.modCount ↔
      ∃ event ∈ s.eventsUntil t, event.isModification = true := by
    rw [← List.countP_pos_iff, hcount, UInt64.lt_iff_toNat_lt, UInt64.toNat_add,
      UInt64.toNat_ofNat']
    omega
  refine ⟨hiff, fun hnone => hiff.2 ?_⟩
  rcases hsince.noted rfl with hsame | ⟨event, hevent, hmodification | hfailed⟩
  · exact absurd (hsame index) hchanged
  · exact ⟨event, hevent, hmodification⟩
  · simp [hnone event hevent] at hfailed

end Calls

namespace Sample

/-- A file has been updated, and the panic of another update has scheduled a rebuild. -/
def mishandled : ServiceAction (MemoryIndex Nat Nat) Unit Unit :=
  Command.runAll brittle none
    [.execute (.update sizes (content 3) ⟨1⟩ .synchronous),
      .execute (.update sizes (content 0) ⟨2⟩ .synchronous)]

/-- A rebuild that fails before any file has been put back. -/
def fruitless : ServiceAction (MemoryIndex Nat Nat) Unit Unit :=
  Command.runAll brittle none [.rebuild sizes [.fail (.error (.storage "disk full"))]]

end Sample

/-- The first file is stored and the counter is higher than before. -/
theorem modCount_lt_iff_mishandled :
    ∃ t, Sample.mishandled.run Sample.state = some (.ok (), t) ∧
      (storeAt t.stores Sample.sizes).data ≠ (storeAt Sample.state.stores Sample.sizes).data ∧
      Sample.state.modCount < t.modCount := by
  obtain ⟨⟨r, t⟩, hrun⟩ : ∃ x, Sample.mishandled.run Sample.state = some x := ⟨_, rfl⟩
  have hfacts : (Sample.mishandled.run Sample.state).map (fun x => (x.1,
      (storeAt x.2.stores Sample.sizes).data.inputCount,
      (Sample.state.eventsUntil x.2).countP Event.isModification,
      (Sample.state.eventsUntil x.2).all fun event => !event.isFailedRebuild)) =
        some (.ok (), 1, 2, true) := by
    decide +kernel
  simp only [hrun, Option.map_some, Option.some.injEq, Prod.mk.injEq] at hfacts
  obtain ⟨rfl, hinputs, hcount, hnone⟩ := hfacts
  have hchanged : (storeAt t.stores Sample.sizes).data ≠
      (storeAt Sample.state.stores Sample.sizes).data := by
    intro h
    rw [h, Sample.storeAt_state] at hinputs
    simp [MemoryIndex.empty, IndexData.inputCount, IndexData.empty] at hinputs
  refine ⟨t, hrun, hchanged, ?_⟩
  refine (modCount_lt_iff .standard _ Sample.mishandled (callsOnly_runAll _ _) Sample.state t _ hrun
    Sample.sizes hchanged ?_).2 ?_
  · rw [hcount]
    decide
  · simpa using hnone

/-- The failed rebuild has cleared the index, and the counter is as it was. -/
theorem modCount_misses_change :
    ∃ s t, Sample.mishandled.run Sample.state = some (.ok (), s) ∧
      Sample.fruitless.run s = some (.ok (), t) ∧
      (storeAt t.stores Sample.sizes).data ≠ (storeAt s.stores Sample.sizes).data ∧
      ¬ s.modCount < t.modCount := by
  have hfacts : (Sample.mishandled.run Sample.state).bind (fun x =>
      (Sample.fruitless.run x.2).map fun y => (x.1, y.1,
        (storeAt x.2.stores Sample.sizes).data.inputCount,
        (storeAt y.2.stores Sample.sizes).data.inputCount,
        decide (x.2.modCount < y.2.modCount))) = some (.ok (), .ok (), 1, 0, false) := by
    decide +kernel
  obtain ⟨⟨_, s⟩, hbefore, hrest⟩ := Option.bind_eq_some_iff.1 hfacts
  obtain ⟨⟨_, t⟩, hafter, heq⟩ := Option.map_eq_some_iff.1 hrest
  simp only [Prod.mk.injEq, decide_eq_false_iff_not] at heq
  obtain ⟨rfl, rfl, hs, ht, hcount⟩ := heq
  refine ⟨s, t, hbefore, hafter, fun h => ?_, hcount⟩
  rw [h, hs] at ht
  cases ht

end FileIndexing
