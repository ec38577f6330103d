import FileIndexing.Proofs.Alone

/-!
# The protocol of a writer

What an operation on an index in memory does access by access, as far as its outcome and the data
and indexing states of the indices are concerned.

* `WriterPlace` and `WriterMove` are the protocol: a writer is admitted, takes its mark, begins to
  apply its update, replaces the data of its input, ends the application, notes the indexing state
  of its input if the data changed, and leaves with its outcome.  It may also tell the listeners of
  a mapping failure instead, and it is spoilt once it saw or made its index inconsistent.
* `writerObeys_execute` says that an operation keeps to the protocol, and that an operation that
  leaves unspoilt answers the outcome with which it leaves.
-/

namespace FileIndexing

open ServiceState

/-! ## Places and moves -/

/-- How far an operation has come. -/
inductive WriterPlace where
  | waiting
  /-- Has found its index registered. -/
  | admitted
  /-- Holds its mark. -/
  | marked
  /-- Holds its mark and tells listeners of a mapping failure. -/
  | telling (failure : MappingFailure) (listeners : List Listener)
  /-- Has begun to apply its update. -/
  | begun
  /-- Has replaced the data of its input, perhaps with a change. -/
  | replaced (changed : Bool)
  /-- Has ended the application of its update. -/
  | applied (changed : Bool)
  /-- Has noted the indexing state of its input after a change of the data. -/
  | settled
  /-- Has given back its mark, or never took it, and is sure of its outcome. -/
  | left (outcome : Outcome)
  /-- Saw or made its index inconsistent; perhaps it still holds its mark. -/
  | spoilt (holding : Bool)

namespace WriterPlace

/-- Whether an operation holds its mark. -/
def isHolding : WriterPlace → Bool
  | .waiting | .admitted | .left _ => false
  | .spoilt holding => holding
  | _ => true

/-- Whether an operation is applying its update. -/
def isApplying : WriterPlace → Bool
  | .begun | .replaced _ => true
  | _ => false

/-- The outcome that an operation will have, once it is sure of it. -/
def outcome? : WriterPlace → Option Outcome
  | .applied changed => some (.applied changed)
  | .settled => some (.applied true)
  | .left outcome => some outcome
  | _ => none

/-- Whether an operation has applied its update. -/
def hasApplied (l : WriterPlace) : Bool :=
  match l.outcome? with
  | some (.applied _) => true
  | _ => false

/-- Whether an operation that holds its mark is about to leave with an outcome. -/
inductive Concludes : WriterPlace → Outcome → Prop where
  | unchanged : Concludes (.applied false) (.applied false)
  | changed : Concludes .settled (.applied true)
  | refused {failure : MappingFailure} {listeners : List Listener} :
    (∀ tag, Listener.recording tag true ∉ listeners) →
    Concludes (.telling failure listeners) (.mappingFailed failure)

/-- An operation that holds its mark has come to an answer, unless it is spoilt. -/
def Concluded (r : Except Failure Outcome) (l : WriterPlace) : Prop :=
  l = .spoilt true ∨ ∃ outcome, r = .ok outcome ∧ l.Concludes outcome

/-- An operation that holds its mark has come to an answer or a failure, unless it is spoilt. -/
def Attempted (r : Except Failure Outcome) (l : WriterPlace) : Prop :=
  Concluded r l ∨ (∃ failure, r = .error failure) ∧ l.isHolding = true ∧ l.isApplying = false ∧
    l.outcome? = none

/-- An operation has left with its answer, unless it is spoilt. -/
def Over (r : Except Failure Outcome) (l : WriterPlace) : Prop :=
  l = .spoilt false ∨ ∃ outcome, r = .ok outcome ∧ l = .left outcome

end WriterPlace

/-- Whether an event tells that work on storage began or ended. -/
def Event.isWork : Event → Bool
  | .applyBegan _ _ _ | .applyEnded _ _ _ _ | .clearBegan _ | .clearEnded _ _ => true
  | _ => false

variable {K V C : Type} [Ord K]

/-- No work on storage began or ended between a state and a later one. -/
def ServiceState.Unworked (s t : MemoryState K V C) : Prop :=
  ∃ events : List Event, (∀ event ∈ events, event.isWork = false) ∧
    t.journal = events ++ s.journal

/-- The later state differs from the earlier one in nothing that the outcomes of operations depend
on, except that indices may have become inconsistent. -/
structure ServiceState.Backstage (s t : MemoryState K V C) : Prop where
  stores : t.stores = s.stores
  marks : t.marks = s.marks
  listeners : t.listeners = s.listeners
  states : ∀ index, t.registry.state index = .ok → s.registry.state index = .ok
  unworked : s.Unworked t

section Protocol

variable [Std.TransOrd K] [BEq V]

/-- What an operation does by one access. -/
inductive WriterMove (indexers : IndexId → Indexer K V) (op : Operation) :
    WriterPlace → MemoryState K V C → WriterPlace → MemoryState K V C → Prop where
  | backstage {l s t} : s.Backstage t → WriterMove indexers op l s l t
  | skip {s} : s.registry.state op.index ≠ .ok →
    WriterMove indexers op .waiting s (.spoilt false) s
  | miss {s} : s.stores.contains op.index = false →
    WriterMove indexers op .waiting s (.left .unknownIndex) s
  | enter {s} : s.stores.contains op.index = true →
    WriterMove indexers op .waiting s .admitted s
  | take {s} : s.marks.isMarked op.mark = false →
    WriterMove indexers op .admitted s .marked { s with marks := s.marks.take op.mark }
  | tell {s failure} : op.mapped indexers = .error (.error (.mapping failure)) →
    WriterMove indexers op .marked s (.telling failure s.listeners) s
  | drop {s} : s.registry.state op.index ≠ .ok →
    WriterMove indexers op .marked s (.spoilt true) s
  | fault {l s} : l.isHolding = true → l.isApplying = false → l.outcome? = none →
    WriterMove indexers op l s (.spoilt true)
      (s.moveRegistry op.index (s.registry.markRequired op.index))
  | begin {s data} : op.mapped indexers = .ok data →
    WriterMove indexers op .marked s .begun (s.note (.applyBegan op.index op.input .operation))
  | replace {s data m} : op.mapped indexers = .ok data → storeAt s.stores op.index = m →
    WriterMove indexers op .begun s (.replaced (m.replace op.input data).1)
      (s.put op.index (m.replace op.input data).2)
  | finish {s changed} :
    WriterMove indexers op (.replaced changed) s (.applied changed)
      (s.note (.applyEnded op.index op.input .operation (some changed)))
  | settle {s} :
    WriterMove indexers op (.applied true) s .settled
      (s.put op.index (op.settle (storeAt s.stores op.index)))
  | leave {l s outcome} : l.Concludes outcome →
    WriterMove indexers op l s (.left outcome) { s with marks := s.marks.release op.mark }
  | release {s} :
    WriterMove indexers op (.spoilt true) s (.spoilt false)
      { s with marks := s.marks.release op.mark }

end Protocol

/-! ## Accesses backstage -/

namespace ServiceState

theorem Unworked.of_eq {s t : MemoryState K V C} (hjournal : t.journal = s.journal) :
    s.Unworked t := ⟨[], by simp, hjournal⟩

theorem Still.backstage {s t : MemoryState K V C} (h : s.Still t) : s.Backstage t where
  stores := h.stores
  marks := h.marks
  listeners := h.listeners
  states index hok := by rw [← h.states, hok]
  unworked := by
    obtain ⟨events, hremark, hjournal⟩ := h.remarks
    refine ⟨events, fun event hevent => ?_, hjournal⟩
    have := hremark event hevent
    cases event <;> simp_all [Event.isRemark, Event.isWork]

theorem Backstage.refl (s : MemoryState K V C) : s.Backstage s := (Still.refl s).backstage

theorem Backstage.note (s : MemoryState K V C) {event : Event} (h : event.isWork = false) :
    s.Backstage (s.note event) :=
  ⟨rfl, rfl, rfl, fun _ hok => hok, [event], by simpa using h, rfl⟩

theorem Backstage.of_eq {s t : MemoryState K V C} (hstores : t.stores = s.stores)
    (hmarks : t.marks = s.marks) (hlisteners : t.listeners = s.listeners)
    (hregistry : t.registry = s.registry) (hjournal : t.journal = s.journal) : s.Backstage t :=
  ⟨hstores, hmarks, hlisteners, fun _ hok => hregistry ▸ hok, .of_eq hjournal⟩

/-- A request for a rebuild makes no index consistent. -/
theorem Backstage.request (s : MemoryState K V C) (index : IndexId) :
    s.Backstage (s.moveRegistry index (s.registry.markRequired index)) := by
  have hstates : ∀ other, (s.registry.markRequired index).state other = .ok →
      s.registry.state other = .ok := by
    intro other hok
    rw [RebuildRegistry.state_markRequired] at hok
    split at hok
    · simp at hok
    · exact hok
  rw [ServiceState.moveRegistry]
  split
  · exact ⟨rfl, rfl, rfl, hstates, .of_eq rfl⟩
  · exact ⟨rfl, rfl, rfl, hstates, [_], by simp [Event.isWork], rfl⟩

end ServiceState

/-! ## Keeping to the protocol -/

section Conformance

open Service

variable [Std.TransOrd K] [BEq V] {config : Config} {indexers : IndexId → Indexer K V}
  {op : Operation}

/-- What happens backstage leaves a writer at its place. -/
theorem writerClass (config : Config) (indexers : IndexId → Indexer K V) (op : Operation)
    (l : WriterPlace) :
    QuietClass (Environment.memory config indexers : Environment _ _ C) Backstage
      fun {_} a => a.Neutral (WriterMove indexers op) l where
  toActionClass := .ofNeutral fun _ _ => .backstage
  still _ _ h := h.backstage
  request := Backstage.request
  oracle := rfl

theorem answers_count (f : Counters → Counters) (l : WriterPlace) :
    (count f : ServiceAction (MemoryIndex K V) C Unit).Answers (WriterMove indexers op) l () :=
  Action.answers_update fun _ => .backstage (.of_eq rfl rfl rfl rfl rfl)

theorem answers_note {event : Event} (hevent : event.isWork = false) (l : WriterPlace) :
    (Service.note event : ServiceAction (MemoryIndex K V) C Unit).Answers (WriterMove indexers op)
      l () :=
  Action.answers_update fun s => .backstage (.note s hevent)

theorem answers_log (record : LogRecord) (l : WriterPlace) :
    (log record : ServiceAction (MemoryIndex K V) C Unit).Answers (WriterMove indexers op) l () :=
  answers_note rfl l

theorem answers_recorded (outcome : Outcome) (l : WriterPlace) :
    (recorded outcome : ServiceAction (MemoryIndex K V) C Outcome).Answers
      (WriterMove indexers op) l outcome := by
  have hcounted : (recordOutcome outcome : ServiceAction (MemoryIndex K V) C Unit).Answers
      (WriterMove indexers op) l () := by
    cases outcome with
    | applied changed =>
      refine (answers_count _ l).bind ?_
      cases changed with
      | true => exact answers_count _ l
      | false => exact Action.obeys_pure ⟨rfl, rfl⟩
    | _ => exact answers_count _ l
  exact hcounted.bind (Action.obeys_pure ⟨rfl, rfl⟩)

/-- Applying an update brings a writer that holds its mark to the end of the application. -/
theorem writerObeys_applyUpdate {data : Mapping K V} (hdata : op.mapped indexers = .ok data) :
    ((Environment.memory config indexers : Environment _ _ C).applyUpdate .operation
      ⟨op.index, op.input, data⟩).program.Obeys (WriterMove indexers op)
        (fun r l => ∃ changed, r = .ok changed ∧ l = .applied changed) .marked := by
  refine Action.obeys_access_bind fun s => ⟨_, .begin hdata, ?_⟩
  rw [memory_apply, Handle.onStore_access]
  refine Action.obeys_outcome_bind
    (fun r l => ∃ changed, r = .ok changed ∧ l = .replaced changed) ?_ ?_
  · exact Action.obeys_access fun s => ⟨_, .replace hdata rfl, _, rfl, rfl⟩
  · intro _ _ hend
    obtain ⟨changed, rfl, rfl⟩ := hend
    exact Action.obeys_access_bind fun s =>
      ⟨_, .finish, Action.obeys_resume ⟨changed, rfl, rfl⟩⟩

/-- The gate is looked at again before the update is applied. -/
theorem writerObeys_runUpdateUnless {data : Mapping K V} (hdata : op.mapped indexers = .ok data) :
    ((Environment.memory config indexers : Environment _ _ C).runUpdateUnless .operation
      ⟨op.index, op.input, data⟩ (Environment.memory config indexers).isGated).program.Obeys
        (WriterMove indexers op) (fun r l => (r = .ok none ∧ l = .spoilt true) ∨
          ∃ changed, r = .ok (some changed) ∧ l = .applied changed) .marked := by
  have hopen : (some <$> (Environment.memory config indexers : Environment _ _ C).applyUpdate
      .operation ⟨op.index, op.input, data⟩).program.Obeys (WriterMove indexers op)
        (fun r l => (r = .ok none ∧ l = .spoilt true) ∨
          ∃ changed, r = .ok (some changed) ∧ l = .applied changed) .marked := by
    refine Action.obeys_map ((writerObeys_applyUpdate hdata).mono ?_)
    intro _ _ hend
    obtain ⟨changed, rfl, rfl⟩ := hend
    exact .inr ⟨changed, rfl, rfl⟩
  refine obeys_withIndexLock (fun _ _ _ => .backstage (.of_eq rfl rfl rfl rfl rfl)) ?_
  refine Environment.obeys_isGated_bind rfl (fun _ => hopen) ?_ ?_
  · intro _ s _
    exact ⟨_, .backstage (.refl s), hopen⟩
  · intro s hdamaged
    exact ⟨_, .drop hdamaged, Action.obeys_pure (.inl ⟨rfl, rfl⟩)⟩

/-- Setting the indexing state settles a writer whose update changed the data. -/
theorem writerObeys_setState :
    ((Environment.memory config indexers : Environment _ _ C).setState op).program.Obeys
      (WriterMove indexers op) (fun r l => r = .ok () ∧ l = .settled) (.applied true) := by
  have hset : ∀ change : MemoryIndex K V → MemoryIndex K V, (∀ m, op.settle m = change m) →
      (withReadLock (Handle.onStore op.index (Action.update change)) :
        ServiceAction (MemoryIndex K V) C Unit).program.Obeys (WriterMove indexers op)
          (fun r l => r = .ok () ∧ l = .settled) (.applied true) := by
    intro change hchange
    have hstore : (Handle.onStore op.index (Action.update change) :
        ServiceAction (MemoryIndex K V) C Unit).program.Obeys (WriterMove indexers op)
          (fun r l => r = .ok () ∧ l = .settled) (.applied true) := by
      rw [Action.update, Handle.onStore_access]
      refine Action.obeys_access fun s => ⟨.settled, ?_, rfl, rfl⟩
      have hmove : WriterMove indexers op (.applied true) s .settled
          (s.put op.index (op.settle (storeAt s.stores op.index))) := .settle
      rwa [hchange] at hmove
    refine Action.obeys_await_bind fun s _ => ⟨_, .backstage (.of_eq rfl rfl rfl rfl rfl), ?_⟩
    exact Action.obeys_ensuring hstore fun r l hl s =>
      ⟨l, .backstage (.of_eq rfl rfl rfl rfl rfl), hl⟩
  unfold Environment.setState
  rw [memory_setUnindexed, memory_setIndexed]
  cases htask : op.task with
  | removal => exact hset _ fun m => by rw [Operation.settle, htask]
  | update content => exact hset _ fun m => by rw [Operation.settle, htask]

/-- Once its update is prepared, a writer is about to leave, or it is spoilt. -/
theorem writerObeys_carryOut {data : Mapping K V} (hdata : op.mapped indexers = .ok data) :
    ((Environment.memory config indexers : Environment _ _ C).carryOut op
      ⟨op.index, op.input, data⟩).program.Obeys (WriterMove indexers op)
        WriterPlace.Concluded .marked := by
  refine Action.obeys_bind _ (writerObeys_runUpdateUnless hdata) ?_ ?_
  · intro _ _ hend
    rcases hend with ⟨hr, rfl⟩ | ⟨changed, hr, rfl⟩ <;> obtain rfl := Except.ok.inj hr
    · exact (answers_log _ _).obeys_bind (Action.obeys_pure (.inl rfl))
    · cases changed with
      | false => exact Action.obeys_pure (.inr ⟨_, rfl, .unchanged⟩)
      | true =>
        have hset : (do
            (Environment.memory config indexers : Environment _ _ C).setState op
            pure (Outcome.applied true) : ServiceAction (MemoryIndex K V) C _).program.Obeys
              (WriterMove indexers op) WriterPlace.Concluded (.applied true) := by
          refine Action.obeys_bind _ writerObeys_setState ?_ ?_
          · intro _ _ hend
            obtain ⟨-, rfl⟩ := hend
            exact Action.obeys_pure (.inr ⟨_, rfl, .changed⟩)
          · intro _ _ hend
            obtain ⟨hr, -⟩ := hend
            cases hr
        dsimp only
        rw [if_pos rfl]
        split
        · exact (answers_log _ _).obeys_bind hset
        · exact hset
  · intro failure l hend
    rcases hend with ⟨hr, -⟩ | ⟨changed, hr, -⟩ <;> cases hr

/-- Telling listeners leaves a writer at its place; if none of them panics it comes to its end. -/
theorem writerObeys_tell (notice : Notice) (listeners : List Listener) (l : WriterPlace) :
    (Action.each (deliver notice) listeners :
      ServiceAction (MemoryIndex K V) C Unit).program.Obeys (WriterMove indexers op)
        (fun r l' => l' = l ∧ (r = .ok () → ∀ tag, Listener.recording tag true ∉ listeners)) l := by
  induction listeners with
  | nil => exact Action.obeys_pure ⟨rfl, by simp⟩
  | cons listener rest ih =>
    have hdeliver : (deliver notice listener :
        ServiceAction (MemoryIndex K V) C Unit).program.Obeys (WriterMove indexers op)
          (fun r l' => l' = l ∧ (r = .ok () → ∀ tag, listener ≠ .recording tag true)) l := by
      refine (answers_note rfl l).obeys_bind ?_
      cases listener with
      | logging => exact (answers_log _ l).mono fun r l' h => ⟨h.2, by simp⟩
      | recording tag panics =>
        cases panics with
        | true => exact Action.obeys_fail ⟨rfl, by simp⟩
        | false => exact Action.obeys_pure ⟨rfl, by simp⟩
    refine Action.obeys_bind _ hdeliver ?_ fun failure l' h => ⟨h.1, by simp⟩
    intro _ _ hend
    obtain ⟨rfl, hlistener⟩ := hend
    refine ih.mono fun r l' h => ⟨h.1, fun hr tag hmem => ?_⟩
    rcases List.mem_cons.1 hmem with heq | hrest
    · exact hlistener rfl tag heq.symm
    · exact h.2 hr tag hrest

/-- Preparing an update leaves a writer at its place. -/
theorem answers_prepareTimed (prepared : Except Error (PreparedUpdate (Mapping K V)))
    (hprepared : (op.mapped indexers).map (fun data => ⟨op.index, op.input, data⟩) =
      prepared.mapError Failure.error) (l : WriterPlace) :
    ((Environment.memory config indexers : Environment _ _ C).prepareTimed op.index op.input
      op.task.content?).Answers (WriterMove indexers op) l prepared := by
  unfold Environment.prepareTimed
  rw [memory_prepare]
  unfold Operation.mapped at hprepared
  rw [hprepared]
  have hcounted : (do
      count (·.addToTotal (Environment.memory config indexers : Environment _ _ C).preparationTime)
      count (·.raiseMax (Environment.memory config indexers : Environment _ _ C).preparationTime)
      pure prepared : ServiceAction (MemoryIndex K V) C _).Answers (WriterMove indexers op) l
        prepared :=
    (answers_count _ l).bind ((answers_count _ l).bind (Action.obeys_pure ⟨rfl, rfl⟩))
  cases prepared with
  | ok update => exact hcounted
  | error cause => exact hcounted

/-- The part of an operation whose failures count as damage to storage. -/
theorem writerObeys_attempt (config : Config) (indexers : IndexId → Indexer K V) (op : Operation) :
    ((Environment.memory config indexers : Environment _ _ C).attempt op).program.Obeys
      (WriterMove indexers op) WriterPlace.Attempted .marked := by
  have hfail : ∀ failure, WriterPlace.Attempted (.error failure) .marked := fun failure =>
    .inr ⟨⟨failure, rfl⟩, rfl, rfl, rfl⟩
  rcases hmapped : op.mapped indexers with (cause | payload) | data
  · refine (answers_prepareTimed (.error cause) (by rw [hmapped]; rfl) .marked).obeys_bind ?_
    cases cause with
    | mapping failure =>
      have htell : (notify ⟨op.input, op.file, op.index, failure⟩ :
          ServiceAction (MemoryIndex K V) C Unit).program.Obeys (WriterMove indexers op)
            (fun r l => ∃ listeners, l = .telling failure listeners ∧
              (r = .ok () → ∀ tag, Listener.recording tag true ∉ listeners)) .marked :=
        Action.obeys_access_bind fun s => ⟨.telling failure s.listeners, .tell hmapped,
          (writerObeys_tell _ s.listeners _).mono fun r l h => ⟨s.listeners, h⟩⟩
      refine Action.obeys_bind _ htell ?_ ?_
      · intro _ _ hend
        obtain ⟨listeners, rfl, hquiet⟩ := hend
        exact Action.obeys_pure (.inl (.inr ⟨_, rfl, .refused (hquiet rfl)⟩))
      · intro cause _ hend
        obtain ⟨listeners, rfl, -⟩ := hend
        exact .inr ⟨⟨cause, rfl⟩, rfl, rfl, rfl⟩
    | _ => exact Action.obeys_fail (hfail _)
  · have hpanic : ((Environment.memory config indexers : Environment _ _ C).prepareTimed op.index
        op.input op.task.content?) = Action.panic payload := by
      unfold Environment.prepareTimed
      rw [memory_prepare]
      unfold Operation.mapped at hmapped
      rw [hmapped]
      rfl
    unfold Environment.attempt
    rw [hpanic]
    exact Action.obeys_fail (hfail _)
  · refine (answers_prepareTimed (.ok ⟨op.index, op.input, data⟩) (by rw [hmapped]; rfl)
      .marked).obeys_bind ?_
    exact (writerObeys_carryOut hmapped).mono fun _ _ h => .inl h

/-- The request of a rebuild after a failure spoils a writer. -/
theorem writerObeys_requestRebuildOnError (config : Config) (indexers : IndexId → Indexer K V)
    (cause : Error) {l : WriterPlace} (hholding : l.isHolding = true)
    (happlying : l.isApplying = false) (houtcome : l.outcome? = none) :
    ((Environment.memory config indexers : Environment _ _ C).requestRebuildOnError cause
      op.index).program.Obeys (WriterMove indexers op) (fun _ l' => l' = .spoilt true) l := by
  have hP := writerClass (C := C) config indexers op (.spoilt true)
  refine (answers_log _ l).obeys_bind ?_
  have hrequest : ((Environment.memory config indexers : Environment _ _ C).oracle.request op.index
      (.ofError cause)).program.Obeys (WriterMove indexers op) (fun _ l' => l' = .spoilt true) l :=
    Action.obeys_access_bind fun s => ⟨.spoilt true, .fault hholding happlying houtcome,
      hP.mem_recordRequest op.index (.ofError cause) _⟩
  refine Action.obeys_bind _ hrequest ?_ fun _ _ hl => hl
  intro _ _ heq
  subst heq
  exact Action.obeys_pure rfl

/-- The part of an operation that runs under its mark. -/
theorem writerObeys_executeMarked (config : Config) (indexers : IndexId → Indexer K V)
    (op : Operation) :
    ((Environment.memory config indexers : Environment _ _ C).executeMarked op).program.Obeys
      (WriterMove indexers op) WriterPlace.Concluded .marked := by
  have hcaught : ((Environment.memory config indexers : Environment _ _ C).attempt
      op).caught.program.Obeys (WriterMove indexers op)
        (fun r l => ∃ r', r = .ok (r'.mapError Failure.toError) ∧ WriterPlace.Attempted r' l)
        .marked :=
    Action.obeys_caught ((writerObeys_attempt config indexers op).mono fun r l h => ⟨r, rfl, h⟩)
  have hspoilt : ∀ outcome, (recorded outcome :
      ServiceAction (MemoryIndex K V) C Outcome).program.Obeys (WriterMove indexers op)
        WriterPlace.Concluded (.spoilt true) := fun outcome =>
    (answers_recorded outcome _).mono fun r l h => .inl h.2
  refine Action.obeys_bind _ hcaught ?_ ?_
  · intro _ l hend
    obtain ⟨r, hr, hends⟩ := hend
    obtain rfl := Except.ok.inj hr
    cases r with
    | ok outcome =>
      rcases hends with (rfl | ⟨outcome', hr, hconcludes⟩) | ⟨⟨failure, hr⟩, -⟩
      · exact hspoilt outcome
      · obtain rfl := Except.ok.inj hr
        exact (answers_recorded outcome l).mono fun r l' h => .inr ⟨outcome, h.1, h.2 ▸ hconcludes⟩
      · cases hr
    | error failure =>
      have hrequest : ((Environment.memory config indexers :
          Environment _ _ C).requestRebuildOnError failure.toError op.index).program.Obeys
            (WriterMove indexers op) (fun _ l' => l' = .spoilt true) l := by
        rcases hends with (rfl | ⟨outcome, hr, -⟩) | ⟨-, hholding, happlying, houtcome⟩
        · exact (writerClass config indexers op _).calls.mem_requestRebuildOnError _ _
        · cases hr
        · exact writerObeys_requestRebuildOnError config indexers _ hholding happlying houtcome
      refine Action.obeys_bind _ hrequest ?_ fun _ _ hl => .inl hl
      intro _ _ heq
      subst heq
      exact hspoilt _
  · intro failure l hend
    obtain ⟨r, hr, -⟩ := hend
    cases hr

theorem writerObeys_undertake (config : Config) (indexers : IndexId → Indexer K V)
    (op : Operation) :
    ((Environment.memory config indexers : Environment _ _ C).undertake op).program.Obeys
      (WriterMove indexers op) WriterPlace.Over .waiting := by
  have hmarked : (withMark op.mark ((Environment.memory config indexers :
      Environment _ _ C).executeMarked op)).program.Obeys (WriterMove indexers op)
        WriterPlace.Over .admitted := by
    refine Action.obeys_await_bind fun s hfree => ⟨.marked, .take (by simpa using hfree), ?_⟩
    refine Action.obeys_ensuring (writerObeys_executeMarked config indexers op) ?_
    intro r l hend s
    rcases hend with rfl | ⟨outcome, rfl, hconcludes⟩
    · exact ⟨_, .release, .inl rfl⟩
    · exact ⟨_, .leave hconcludes, .inr ⟨outcome, rfl, rfl⟩⟩
  have hopen : (do
      if !(← isRegistered op.index) then
        log (.unknownIndex op)
        recorded .unknownIndex
      else
        let _ ← bumpModCount
        count (·.recordStarted)
        withMark op.mark
          ((Environment.memory config indexers : Environment _ _ C).executeMarked op) :
      ServiceAction (MemoryIndex K V) C Outcome).program.Obeys (WriterMove indexers op)
        WriterPlace.Over .waiting := by
    refine Action.obeys_access_bind fun s => ?_
    cases hregistered : s.isRegistered op.index with
    | false =>
      refine ⟨_, .miss hregistered, ?_⟩
      simp only [hregistered, Bool.not_false, if_true]
      exact (answers_log _ _).obeys_bind ((answers_recorded _ _).mono
        fun r l h => .inr ⟨_, h.1, h.2⟩)
    | true =>
      refine ⟨_, .enter hregistered, ?_⟩
      simp only [hregistered, Bool.not_true, Bool.false_eq_true, if_false]
      refine Action.obeys_access_bind fun s => ⟨_, .backstage (.of_eq rfl rfl rfl rfl rfl), ?_⟩
      exact (answers_count _ _).obeys_bind hmarked
  unfold Environment.undertake
  refine Environment.obeys_isGated_bind rfl (fun _ => hopen) ?_ ?_
  · intro _ s _
    exact ⟨_, .backstage (.refl s), hopen⟩
  · intro s hdamaged
    refine ⟨_, .skip hdamaged, ?_⟩
    exact (answers_log _ _).obeys_bind ((answers_recorded _ _).mono fun r l h => .inl h.2)

/-- An operation leaves unspoilt only with the outcome that it answers. -/
theorem writerObeys_execute (config : Config) (indexers : IndexId → Indexer K V)
    (op : Operation) :
    ((Environment.memory config indexers : Environment _ _ C).execute op).program.Obeys
      (WriterMove indexers op) WriterPlace.Over .waiting := by
  refine Action.obeys_bind _ (writerObeys_undertake config indexers op) (fun outcome l hover => ?_)
    fun _ _ h => h
  exact (answers_note rfl l).obeys_bind (Action.obeys_pure hover)

end Conformance

end FileIndexing
