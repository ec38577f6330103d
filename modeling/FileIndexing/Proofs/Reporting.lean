import FileIndexing.Proofs.Errands
import FileIndexing.Proofs.Linearization

/-!
# What the log says of finished operations

An operation on a traced index logs that it is finished as soon as storage has changed, and only
then sets the indexing state of its input.  Where that fails, the operation ends as one that damaged
storage, but the log has already called it finished.

* `LogRecord.tellsFinished` recognizes such records by their level and their wording.
  `Trace.reports` are those of one thread, and `Trace.changesStorage` says whether the thread
  changed storage.
* `Environment.IsReticent` is the condition on handles and oracles: they may log, fail and panic,
  but they do not log in the place of an operation that it is finished.
* `Hears` is the protocol of a thread whose place is what it has told so far.
  `Environment.Tells` says what that may be at the end of an operation, and
  `Environment.IsReticent.tells_execute` is the walk that shows it.  `Pool.Traced.hears` reads the
  place of one thread off a trace, whatever the other threads do.
* `reports_truthful_iff` is the result.  `truthful_memory` says that nothing goes wrong with indices
  in memory, since setting a state does not fail there.
-/

namespace FileIndexing

/-! ## What a thread reports -/

/-- Whether a record says that an operation on an index is finished. -/
def LogRecord.tellsFinished (index : IndexId) (record : LogRecord) : Bool :=
  record.level = .info && ["deletion", "update"].any fun noun =>
    s!"index {index.name} {noun} finished for ".toList.isPrefixOf record.text.toList

/-- The record of an event, if it says that an operation on an index is finished. -/
def Event.report? (index : IndexId) : Event → Option LogRecord
  | .logged record => if record.tellsFinished index then some record else none
  | _ => none

/-- Whether an event tells that an application changed storage. -/
def Event.changesStorage : Event → Bool
  | .applyEnded _ _ _ (some changed) => changed
  | _ => false

/-- Whether an event tells that storage changed or that an operation on an index is finished. -/
def Event.isTelling (index : IndexId) (event : Event) : Bool :=
  event.changesStorage || (event.report? index).isSome

namespace Trace

/-- What a thread noted, the latest first. -/
def eventsOf (h : Trace) (i : Nat) : List Event :=
  h.filterMap fun x => if x.1 = i then some x.2 else none

/-- What a thread logged of finished operations on an index, the latest first. -/
def reports (h : Trace) (i : Nat) (index : IndexId) : List LogRecord :=
  (h.eventsOf i).filterMap (·.report? index)

/-- Whether a thread changed storage. -/
def changesStorage (h : Trace) (i : Nat) : Bool := (h.eventsOf i).any (·.changesStorage)

variable {S C : Type} (h : Trace) (s t : ServiceState S C)

theorem eventsOf_extend_self (i : Nat) :
    (h.extend i s t).eventsOf i = s.eventsUntil t ++ h.eventsOf i := by
  simp [eventsOf, extend, List.filterMap_append, List.filterMap_map]

theorem eventsOf_extend_of_ne {i j : Nat} (hij : i ≠ j) :
    (h.extend i s t).eventsOf j = h.eventsOf j := by
  simp [eventsOf, extend, List.filterMap_append, List.filterMap_map, hij]

end Trace

theorem LogRecord.tellsFinished_finished (op : Operation) :
    (LogRecord.finished op).tellsFinished op.index = true := by
  have hnoun : op.task.finishedNoun ∈ ["deletion", "update"] := by
    cases op.task <;> simp [Task.finishedNoun]
  have htext : (LogRecord.finished op).text.toList =
      s!"index {op.index.name} {op.task.finishedNoun} finished for ".toList ++ op.info.toList :=
    String.toList_append
  rw [tellsFinished, Bool.and_eq_true, List.any_eq_true]
  refine ⟨rfl, op.task.finishedNoun, hnoun, ?_⟩
  rw [htext, List.isPrefixOf_iff_prefix]
  exact List.prefix_append _ _

/-- Only records of level info say so. -/
theorem LogRecord.not_tellsFinished {record : LogRecord} (h : record.level ≠ .info)
    (index : IndexId) : record.tellsFinished index = false := by
  simp [tellsFinished, h]

theorem Event.isTelling_logged {index : IndexId} {record : LogRecord} :
    (Event.logged record).isTelling index = record.tellsFinished index := by
  simp only [isTelling, changesStorage, report?, Bool.false_or]
  split <;> simp_all

/-- Nothing is lost by looking only at the events that tell something. -/
theorem Event.filterMap_report_filter (index : IndexId) (events : List Event) :
    (events.filter (·.isTelling index)).filterMap (·.report? index) =
      events.filterMap (·.report? index) := by
  rw [List.filterMap_filter]
  congr 1
  funext event
  cases hreport : event.report? index <;> simp [isTelling, hreport]

theorem Event.any_changesStorage_filter (index : IndexId) (events : List Event) :
    (events.filter (·.isTelling index)).any (·.changesStorage) =
      events.any (·.changesStorage) := by
  rw [List.any_filter]
  congr 1
  funext event
  cases hchanges : event.changesStorage <;> simp [isTelling, hchanges]

/-! ## What an operation tells -/

/-- The place of a thread is what it has told so far, the latest first. -/
def Hears {S C : Type} (index : IndexId) (l : List Event) (s : ServiceState S C) (l' : List Event)
    (t : ServiceState S C) : Prop :=
  l' = (s.eventsUntil t).filter (·.isTelling index) ++ l

/-- What lies between two states tells nothing. -/
def ServiceState.Reticent {S C : Type} (index : IndexId) (s t : ServiceState S C) : Prop :=
  ∃ events : List Event, (∀ event ∈ events, event.isTelling index = false) ∧
    t.journal = events ++ s.journal

namespace ServiceState

variable {S C : Type} {index : IndexId} {s t : ServiceState S C}

theorem Reticent.of_eq (hjournal : t.journal = s.journal) : s.Reticent index t :=
  ⟨[], by simp, hjournal⟩

theorem Reticent.note {event : Event} (h : event.isTelling index = false) :
    s.Reticent index (s.note event) := ⟨[event], by simpa using h, rfl⟩

/-- Warnings and the like tell nothing. -/
theorem Reticent.log {record : LogRecord} (h : record.level ≠ .info) :
    s.Reticent index (s.note (.logged record)) :=
  .note (Event.isTelling_logged.trans (LogRecord.not_tellsFinished h index))

theorem Reticent.moveRegistry (other : IndexId) (registry : RebuildRegistry) :
    s.Reticent index (s.moveRegistry other registry) := by
  rw [ServiceState.moveRegistry]
  split
  · exact .of_eq rfl
  · exact .note rfl

theorem Reticent.hears (h : s.Reticent index t) (l : List Event) : Hears index l s l t := by
  obtain ⟨events, htell, hjournal⟩ := h
  have hnone : events.filter (·.isTelling index) = [] := by simpa using htell
  rw [Hears, eventsUntil_of_journal events hjournal, hnone, List.nil_append]

end ServiceState

open ServiceState

section

variable {S U C : Type}

/-- A handle and an oracle that do not speak for an operation: they neither log that it is finished
nor note that storage changed on its behalf. -/
structure Environment.IsReticent (env : Environment S U C) (index : IndexId) : Prop where
  prepare : ∀ index' input content,
    (env.handle.prepare index' input content).program.Every (Reticent index)
  apply : ∀ update, (env.handle.apply update).program.Every (Reticent index)
  setIndexed : ∀ index' input,
    (env.handle.setIndexed index' input).program.Every (Reticent index)
  setUnindexed : ∀ index' input,
    (env.handle.setUnindexed index' input).program.Every (Reticent index)
  state : ∀ index', (env.oracle.state index').program.Every (Reticent index)
  request : ∀ index' cause, (env.oracle.request index' cause).program.Every (Reticent index)

/-- Storage of its own for every index, whatever is done with it, and the registry of the service
tell nothing. -/
theorem Environment.isReticent_ofStores [Inhabited S] (config : Config)
    (handles : IndexId → StoreHandle S U) (preparationTime : Duration) (index : IndexId) :
    (⟨config, .ofStores handles, .registry, preparationTime⟩ :
      Environment S U C).IsReticent index := by
  have hstore : ∀ {α : Type} (other : IndexId) (a : Action S α),
      (Handle.onStore other a : ServiceAction S C α).program.Every (Reticent index) :=
    fun _ a => Program.every_focus (fun _ _ => .of_eq rfl) a.program
  have hP := ActionClass.ofEvery (Reticent (S := S) (C := C) index)
  exact {
    prepare := fun _ _ _ => hstore _ _
    apply := fun _ => hstore _ _
    setIndexed := fun _ _ => hstore _ _
    setUnindexed := fun _ _ => hstore _ _
    state := fun _ => hP.access fun _ => .of_eq rfl
    request := fun other cause => hP.closure.mem_requestRebuild
      (hP.update fun _ => .of_eq rfl)
      (fun _ => hP.update fun _ => .log (by simp [LogRecord.level]))
      (hP.update fun _ => .of_eq rfl) (hP.access fun _ => .moveRegistry _ _) }

/-- What an operation tells of a change of storage. -/
def Environment.news (env : Environment S U C) (op : Operation) (index : IndexId)
    (input : InputId) : List Event :=
  (if env.config.traces op.index then [.logged (.finished op)] else []) ++
    [.applyEnded index input .operation (some true)]

/-- What an operation has told when it ends: nothing, unless it changed storage.  If it did, it may
still fail, but only where the state of its input is set. -/
inductive Environment.Tells (env : Environment S U C) (op : Operation) :
    Except Failure Outcome → List Event → Prop where
  | nothing {r : Except Failure Outcome} : r ≠ .ok (.applied true) → Tells env op r []
  | change {r : Except Failure Outcome} (index : IndexId) (input : InputId) :
      ((env.setState op).Succeeds → r = .ok (.applied true)) →
      Tells env op r (env.news op index input)

variable {env : Environment S U C} {op : Operation} {r : Except Failure Outcome} {l : List Event}

theorem Environment.Tells.failed (failure : Failure) : env.Tells op (.error failure) [] :=
  .nothing nofun

/-- What an operation has told that does not end well fits every other end that is not good. -/
theorem Environment.Tells.of_ne (h : env.Tells op r l) {r' : Except Failure Outcome}
    (hr : r ≠ .ok (.applied true)) (hr' : r' ≠ .ok (.applied true)) : env.Tells op r' l := by
  cases h with
  | nothing => exact .nothing hr'
  | change index input hsucceeds => exact .change index input fun h => absurd (hsucceeds h) hr

/-- Actions that tell nothing leave a thread with what it has told. -/
theorem reticentClass (index : IndexId) (l : List Event) :
    ActionClass (Reticent index) fun {α} (a : ServiceAction S C α) =>
      a.Neutral (Hears index) l :=
  .ofNeutral fun _ _ h => h.hears l

theorem hearNeutral_log {index : IndexId} {record : LogRecord} (h : record.level ≠ .info) :
    (Service.log record : ServiceAction S C Unit).Neutral (Hears index) l :=
  (reticentClass index l).update fun _ => .log h

theorem hearNeutral_count {index : IndexId} (f : Counters → Counters) :
    (Service.count f : ServiceAction S C Unit).Neutral (Hears index) l :=
  (reticentClass index l).update fun _ => .of_eq rfl

namespace Environment.IsReticent

variable (henv : env.IsReticent op.index)

include henv

theorem neutral_isGated (index : IndexId) : (env.isGated index).Neutral (Hears op.index) l := by
  have hP := reticentClass (S := S) (C := C) op.index l
  exact hP.closure.mem_isGated (hP.every (henv.state index))

theorem neutral_requestRebuildOnError (cause : Error) (index : IndexId) :
    (env.requestRebuildOnError cause index).Neutral (Hears op.index) l := by
  have hP := reticentClass (S := S) (C := C) op.index l
  exact hP.closure.mem_requestRebuildOnError (hearNeutral_log nofun)
    (hP.every (henv.request index _))

theorem neutral_setState : (env.setState op).Neutral (Hears op.index) l := by
  have hP := reticentClass (S := S) (C := C) op.index l
  refine hP.mem_withReadLock (fun _ _ => .of_eq rfl) ?_
  cases op.task with
  | removal => exact hP.every (henv.setUnindexed _ _)
  | update content => exact hP.every (henv.setIndexed _ _)

/-- An application tells whether it changed storage. -/
theorem obeys_applyUpdate (update : PreparedUpdate U) :
    (env.applyUpdate .operation update).program.Obeys (Hears op.index)
      (fun r l => l = [Event.applyEnded update.index update.input .operation r.toOption].filter
        (·.isTelling op.index)) [] := by
  have hP := reticentClass (S := S) (C := C) op.index []
  have hbegan : (Service.note (.applyBegan update.index update.input .operation) :
      ServiceAction S C Unit).Neutral (Hears op.index) [] := hP.update fun s => .note rfl
  refine hbegan.obeys_bind (fun _ => ?_) fun _ => rfl
  refine Action.obeys_outcome_bind (fun _ l => l = []) (hP.every (henv.apply update)) ?_
  rintro r _ rfl
  refine Action.obeys_access_bind fun s => ⟨_, rfl, Action.obeys_resume ?_⟩
  rw [eventsUntil_note, List.append_nil]

/-- Nothing is told by an operation that finds the gate closed. -/
theorem obeys_runUpdateUnless (update : PreparedUpdate U) :
    (env.runUpdateUnless .operation update env.isGated).program.Obeys (Hears op.index)
      (fun r l => l = [Event.applyEnded update.index update.input .operation
        r.toOption.join].filter (·.isTelling op.index)) [] := by
  refine Service.obeys_withIndexLock (fun l s locks => Reticent.hears (.of_eq rfl) l) ?_
  refine (henv.neutral_isGated _).obeys_bind (fun gated => ?_) fun _ => rfl
  split
  · exact Action.obeys_pure rfl
  · refine Action.obeys_map ((henv.obeys_applyUpdate update).mono ?_)
    rintro (failure | changed) _ rfl <;> rfl

/-- What is told of a change, and what becomes of the operation if its state can be set. -/
theorem tells_settle (index : IndexId) (input : InputId) :
    (do env.setState op; pure (Outcome.applied true)).program.Obeys (Hears op.index) (env.Tells op)
      (env.news op index input) := by
  by_cases hsucceeds : (env.setState op).Succeeds
  · refine hsucceeds.obeys_bind (henv.neutral_setState) ?_
    rintro _ _ rfl
    exact Action.obeys_pure (.change index input fun _ => rfl)
  · exact henv.neutral_setState.obeys_bind
      (fun _ => Action.obeys_pure (.change index input fun _ => rfl))
      fun _ => .change index input fun h => absurd h hsucceeds

theorem tells_carryOut (update : PreparedUpdate U) :
    (env.carryOut op update).program.Obeys (Hears op.index) (env.Tells op) [] := by
  refine Action.obeys_bind _ (henv.obeys_runUpdateUnless update) ?_ ?_
  · rintro (_ | _ | _) _ rfl
    · exact (hearNeutral_log (by simp [LogRecord.level])).obeys_bind
        (fun _ => Action.obeys_pure (.nothing nofun)) .failed
    · exact Action.obeys_pure (.nothing nofun)
    · have hsettle := henv.tells_settle update.index update.input
      dsimp only
      rw [if_pos rfl]
      split
      · next htraces =>
        -- the record is written whether or not the state can be set afterwards
        refine Action.obeys_access_bind fun s => ⟨_, ?_, hsettle⟩
        have htelling : (Event.logged (.finished op)).isTelling op.index = true :=
          Event.isTelling_logged.trans (LogRecord.tellsFinished_finished op)
        rw [Hears, eventsUntil_note, List.filter_cons_of_pos htelling, news, if_pos htraces]
        rfl
      · next htraces =>
        rw [news, if_neg htraces] at hsettle
        exact hsettle
  · rintro failure _ rfl
    exact .failed failure

theorem tells_attempt : (env.attempt op).program.Obeys (Hears op.index) (env.Tells op) [] := by
  have hP := reticentClass (S := S) (C := C) op.index []
  have hprepare := hP.closure.mem_prepareTimed hearNeutral_count
    (hP.every (henv.prepare op.index op.input op.task.content?))
  have hnotify := hP.closure.mem_notify (hP.access fun _ => .of_eq rfl)
    (fun _ _ => hP.update fun _ => .note rfl) fun _ => hearNeutral_log nofun
  refine Action.Neutral.obeys_bind hprepare ?_ .failed
  rintro (cause | update)
  · cases cause with
    | mapping failure =>
      exact (hnotify _).obeys_bind (fun _ => Action.obeys_pure (.nothing nofun)) .failed
    | _ => exact Action.obeys_fail (.failed _)
  · exact henv.tells_carryOut update

omit henv in
theorem tells_recorded {outcome : Outcome} (h : env.Tells op (.ok outcome) l) :
    (Service.recorded outcome : ServiceAction S C Outcome).program.Obeys (Hears op.index)
      (env.Tells op) l := by
  have hP := reticentClass (S := S) (C := C) op.index l
  refine (Service.succeeds_recordOutcome outcome).obeys_bind
    (hP.closure.mem_recordOutcome hearNeutral_count outcome) ?_
  rintro _ _ rfl
  exact Action.obeys_pure h

theorem tells_executeMarked :
    (env.executeMarked op).program.Obeys (Hears op.index) (env.Tells op) [] := by
  refine Action.obeys_bind_ok (fun r l => ∃ r', r'.mapError Failure.toError = r ∧ env.Tells op r' l)
    (Action.obeys_caught (henv.tells_attempt.mono fun r l h => ⟨_, rfl, r, rfl, h⟩)) ?_
  rintro _ l ⟨failure | outcome, rfl, htells⟩
  · refine (henv.neutral_requestRebuildOnError _ _).obeys_bind (fun _ => ?_)
      fun _ => htells.of_ne nofun nofun
    exact tells_recorded (htells.of_ne nofun nofun)
  · exact tells_recorded htells

theorem tells_undertake : (env.undertake op).program.Obeys (Hears op.index) (env.Tells op) [] := by
  have hrefused : ∀ (record : LogRecord) (outcome : Outcome), record.level ≠ .info →
      outcome ≠ .applied true →
      (do Service.log record; Service.recorded outcome :
        ServiceAction S C Outcome).program.Obeys (Hears op.index) (env.Tells op) [] := by
    intro record outcome hlevel houtcome
    exact (hearNeutral_log hlevel).obeys_bind
      (fun _ => tells_recorded (.nothing (by simpa using houtcome))) .failed
  have hmarked : (Service.withMark op.mark (env.executeMarked op)).program.Obeys (Hears op.index)
      (env.Tells op) [] :=
    Action.obeys_await_bind fun s _ => ⟨[], Reticent.hears (.of_eq rfl) [],
      Action.obeys_ensuring henv.tells_executeMarked fun _ l h s =>
        ⟨l, Reticent.hears (.of_eq rfl) l, h⟩⟩
  refine (henv.neutral_isGated op.index).obeys_bind (fun gated => ?_) .failed
  split
  · exact hrefused _ _ nofun nofun
  · refine Action.obeys_access_bind fun s => ⟨[], Reticent.hears (.of_eq rfl) [], ?_⟩
    split
    · exact hrefused _ _ nofun nofun
    · refine Action.obeys_access_bind fun s => ⟨[], Reticent.hears (.of_eq rfl) [], ?_⟩
      exact (hearNeutral_count _).obeys_bind (fun _ => hmarked) .failed

/-- What an operation has told when it ends. -/
theorem tells_execute : (env.execute op).program.Obeys (Hears op.index) (env.Tells op) [] := by
  refine Action.obeys_bind _ henv.tells_undertake (fun outcome l htells => ?_) fun _ _ h => h
  exact (Action.answers_update fun s => Reticent.hears (.note rfl) _).obeys_bind
    (Action.obeys_pure htells)

end Environment.IsReticent

/-! ## What the log says -/

/-- The log tells the truth about an operation that has come to its end: it says once that the
operation is finished if the index is traced and the operation changed storage, and never
otherwise. -/
structure Environment.Truthful (env : Environment S U C) (op : Operation)
    (r : Except Failure Outcome) (reports : List LogRecord) : Prop where
  once : env.config.traces op.index = true → r = .ok (.applied true) →
    reports.map (·.line) =
      [s!"INFO index {op.index.name} {op.task.finishedNoun} finished for {op.info}"]
  never : ¬ (env.config.traces op.index = true ∧ r = .ok (.applied true)) → reports = []

namespace Environment.Tells

/-- An operation on a traced index reports every change of storage, once. -/
theorem reports_eq (h : env.Tells op r l) :
    l.filterMap (·.report? op.index) =
      if env.config.traces op.index && l.any (·.changesStorage) then [.finished op] else [] := by
  cases h with
  | nothing => simp
  | change index input =>
    cases htraces : env.config.traces op.index <;>
      simp [news, htraces, Event.report?, Event.changesStorage, LogRecord.tellsFinished_finished]

theorem changesStorage_of_applied (h : env.Tells op (.ok (.applied true)) l) :
    l.any (·.changesStorage) = true := by
  cases h with
  | nothing hr => exact absurd rfl hr
  | change index input => simp [news, Event.changesStorage]

theorem applied_of_succeeds (h : env.Tells op r l) (hsucceeds : (env.setState op).Succeeds)
    (hchanges : l.any (·.changesStorage) = true) : r = .ok (.applied true) := by
  cases h with
  | nothing => simp at hchanges
  | change index input hr => exact hr hsucceeds

end Environment.Tells

/-- A thread that keeps to the protocol is at the place that its own events in a trace make up,
whatever the programs of the other threads are. -/
theorem Pool.Traced.hears {α : Type} {index : IndexId} {p q : Pool (ServiceState S C) α}
    {h : Trace} {i : Nat} {t : Program (ServiceState S C) α} {post : α → List Event → Prop}
    (htrace : p.Traced h q) (ht : p.threads[i]? = some t)
    (hobeys : t.Obeys (Hears index) post []) :
    ∃ u, q.threads[i]? = some u ∧
      u.Obeys (Hears index) post ((h.eventsOf i).filter (·.isTelling index)) := by
  induction htrace with
  | start => exact ⟨t, ht, hobeys⟩
  | @step h q q' j htrace hstep ih =>
    obtain ⟨u, hu, hobeys⟩ := ih
    by_cases hji : j = i
    · subst hji
      obtain ⟨hget, hstep⟩ := hstep
      obtain rfl := Option.some.inj (hu.symm.trans hget)
      obtain ⟨l, hmove, hnext⟩ := hobeys.step hstep
      refine ⟨_, List.getElem?_set_self (List.getElem?_eq_some_iff.1 hget).1, ?_⟩
      rw [Trace.eventsOf_extend_self, List.filter_append, ← hmove]
      exact hnext
    · -- an access of another thread moves neither the program nor the events of this one
      rw [Trace.eventsOf_extend_of_ne _ _ _ hji, hstep.getElem?_of_ne hji]
      exact ⟨u, hu, hobeys⟩

section Interleavings

variable {p q : Pool (ServiceState S C) (Except Failure Outcome)} {h : Trace} {i : Nat}

/-- At the end of an operation its thread has told what the operation tells. -/
theorem Pool.Traced.tells (henv : env.IsReticent op.index)
    (hi : p.threads[i]? = some (env.execute op).program) (htrace : p.Traced h q)
    (hresult : q.result? i = some r) :
    env.Tells op r ((h.eventsOf i).filter (·.isTelling op.index)) := by
  obtain ⟨u, hu, hobeys⟩ := htrace.hears hi henv.tells_execute
  rw [Pool.result?, hu] at hresult
  cases u with
  | done r' =>
    obtain rfl := Option.some.inj hresult
    exact hobeys
  | step => cases hresult

theorem Pool.Traced.reports_eq (henv : env.IsReticent op.index)
    (hi : p.threads[i]? = some (env.execute op).program) (htrace : p.Traced h q)
    (hresult : q.result? i = some r) :
    h.reports i op.index =
      if env.config.traces op.index && h.changesStorage i then [.finished op] else [] := by
  have hreports := (htrace.tells henv hi hresult).reports_eq
  rwa [Event.filterMap_report_filter, Event.any_changesStorage_filter] at hreports

theorem Pool.Traced.changesStorage_of_applied (henv : env.IsReticent op.index)
    (hi : p.threads[i]? = some (env.execute op).program) (htrace : p.Traced h q)
    (hresult : q.result? i = some (.ok (.applied true))) : h.changesStorage i = true := by
  have hchanges := (htrace.tells henv hi hresult).changesStorage_of_applied
  rwa [Event.any_changesStorage_filter] at hchanges

/-- The log tells the truth about an operation on a traced index that ends as one that changed
storage if it changed storage. -/
theorem Pool.Traced.truthful (henv : env.IsReticent op.index)
    (hi : p.threads[i]? = some (env.execute op).program) (htrace : p.Traced h q)
    (hresult : q.result? i = some r) (happlied : env.config.traces op.index = true →
      h.changesStorage i = true → r = .ok (.applied true)) :
    env.Truthful op r (h.reports i op.index) := by
  rw [htrace.reports_eq henv hi hresult]
  refine ⟨fun htraces hr => ?_, fun hnot => if_neg fun hreports => ?_⟩
  · subst hr
    rw [htrace.changesStorage_of_applied henv hi hresult, htraces]
    rfl
  · obtain ⟨htraces, hchanges⟩ := Bool.and_eq_true_iff.1 hreports
    exact hnot ⟨htraces, happlied htraces hchanges⟩

/-- However operations are interleaved with whatever else happens, the log tells the truth about an
operation exactly if a change of storage of a traced index is followed by the end that says so. -/
theorem reports_truthful_iff (env : Environment S U C) (op : Operation)
    (henv : env.IsReticent op.index) (p q : Pool (ServiceState S C) (Except Failure Outcome))
    (i : Nat) (hi : p.threads[i]? = some (env.execute op).program) (h : Trace)
    (htrace : p.Traced h q) (r : Except Failure Outcome) (hresult : q.result? i = some r) :
    env.Truthful op r (h.reports i op.index) ↔
      (env.config.traces op.index = true → h.changesStorage i = true →
        r = .ok (.applied true)) := by
  refine ⟨fun htruthful htraces hchanges => ?_, htrace.truthful henv hi hresult⟩
  by_contra hr
  have hnever := htruthful.never fun happlied => hr happlied.2
  simp [htrace.reports_eq henv hi hresult, htraces, hchanges] at hnever

end Interleavings

end

namespace Sample

/-- Storage in memory that cannot note that it is up to date for the first input. -/
def forgetful : StoreHandle (MemoryIndex Nat Nat) (Mapping Nat Nat) :=
  let memory := StoreHandle.memory (fun content => .ok (Std.ExtTreeMap.empty.insert content.size 1))
    sizes
  { memory with
    setIndexed := fun input =>
      if input = ⟨1⟩ then Action.fail (.error (.storage "disk full"))
      else memory.setIndexed input }

/-- A service with such storage that logs finished updates. -/
def forgetfulness : Environment (MemoryIndex Nat Nat) (Mapping Nat Nat) Unit :=
  ⟨{ Config.standard with traceUpdates := true }, .ofStores fun _ => forgetful, .registry, .zero⟩

/-- Updates of two files. -/
def updates : List Operation :=
  [.update sizes (content 3) ⟨1⟩ .synchronous, .update sizes (content 5) ⟨2⟩ .synchronous]

/-- The threads take turns. -/
def turns : List Nat := (List.replicate 40 [0, 1]).flatten

end Sample

/-- The log tells the truth about the update of the second file. -/
theorem reports_truthful_iff_second :
    ∃ (h : Trace) (q : Pool (MemoryState Nat Nat Unit) (Except Failure Outcome)),
      (Sample.forgetfulness.executions Sample.state Sample.updates).Traced h q ∧
        q.result? 1 = some (.ok (.applied true)) ∧
        Sample.forgetfulness.Truthful (operationAt Sample.updates 1) (.ok (.applied true))
          (h.reports 1 Sample.sizes) := by
  obtain ⟨x, hx⟩ : ∃ x, (Sample.forgetfulness.executions Sample.state Sample.updates).watch
      Sample.turns = x := ⟨_, rfl⟩
  have htrace := Pool.traced_watch (Sample.forgetfulness.executions Sample.state Sample.updates)
    Sample.turns
  rw [hx] at htrace
  have hresult : x.2.result? 1 = some (.ok (.applied true)) := by
    rw [← hx]
    decide +kernel
  exact ⟨x.1, x.2, htrace, hresult, (reports_truthful_iff Sample.forgetfulness
    (operationAt Sample.updates 1) (Environment.isReticent_ofStores _ _ _ _) _ x.2 1 rfl x.1 htrace
    _ hresult).2 fun _ _ => rfl⟩

/-- The update of the first file fails, and yet the log says that it is finished. -/
theorem reports_untruthful :
    ∃ (h : Trace) (q : Pool (MemoryState Nat Nat Unit) (Except Failure Outcome)),
      (Sample.forgetfulness.executions Sample.state Sample.updates).Traced h q ∧
        q.result? 0 = some (.ok (.storageCorrupted (.storage "disk full"))) ∧
        (h.reports 0 Sample.sizes).map (·.line) =
          ["INFO index sizes update finished for [id=1, path=, content=3 bytes]"] ∧
        ¬ Sample.forgetfulness.Truthful (operationAt Sample.updates 0)
          (.ok (.storageCorrupted (.storage "disk full"))) (h.reports 0 Sample.sizes) := by
  have hreports : ((((Sample.forgetfulness.executions Sample.state Sample.updates).watch
      Sample.turns).1.reports 0 Sample.sizes).map (·.line)) =
      ["INFO index sizes update finished for [id=1, path=, content=3 bytes]"] := by
    decide +kernel
  refine ⟨_, _, Pool.traced_watch _ Sample.turns, by decide +kernel, hreports, fun htruthful => ?_⟩
  have hnever := htruthful.never fun happlied => nomatch happlied.2
  rw [hnever] at hreports
  cases hreports

/-! ## Indices in memory -/

/-- An index in memory always notes the state of an input. -/
theorem Environment.succeeds_setState_memory {K V C : Type} [Ord K] [Std.TransOrd K] [BEq V]
    (config : Config) (indexers : IndexId → Indexer K V) (op : Operation) :
    ((memory config indexers : Environment _ _ C).setState op).Succeeds := by
  have hstore : ∀ (f : MemoryIndex K V → MemoryIndex K V),
      (Handle.onStore op.index (Action.update f) :
        ServiceAction (MemoryIndex K V) C Unit).Succeeds := by
    intro f
    rw [Action.update, Handle.onStore_access]
    exact Action.succeeds_access _
  refine (Action.succeeds_await _ _).bind fun _ => Action.Succeeds.ensuring ?_
  cases op.task with
  | removal => exact hstore (·.setUnindexed op.input)
  | update content => exact hstore (·.setIndexed op.input)

/-- So the log tells the truth about every operation on indices in memory. -/
theorem truthful_memory {K V C : Type} [Ord K] [Std.TransOrd K] [BEq V] (config : Config)
    (indexers : IndexId → Indexer K V) (op : Operation)
    {p q : Pool (MemoryState K V C) (Except Failure Outcome)} {i : Nat} {h : Trace}
    {r : Except Failure Outcome}
    (hi : p.threads[i]? = some ((Environment.memory config indexers).execute op).program)
    (htrace : p.Traced h q) (hresult : q.result? i = some r) :
    (Environment.memory config indexers : Environment _ _ C).Truthful op r
      (h.reports i op.index) := by
  have henv := Environment.isReticent_ofStores (C := C) config
    (fun index => StoreHandle.memory (indexers index) index) .zero op.index
  refine htrace.truthful henv hi hresult fun _ hchanges => ?_
  refine (htrace.tells henv hi hresult).applied_of_succeeds
    (Environment.succeeds_setState_memory config indexers op) ?_
  rwa [Event.any_changesStorage_filter]

end FileIndexing
