import FileIndexing.Proofs.Discretion
import FileIndexing.Proofs.Trace

/-!
# Whoever fails to apply an update requests a rebuild

An operation that fails to apply its update owes a request for a rebuild.  It gives the lock of the
index back, reports the damage and makes the request, by three accesses with nothing in between, and
it applies nothing to any index before it has made the request.

* `Duty` is what a thread owes, and `DutyMove` is the protocol of a thread.
* `Handle.NamesAsked` says of a handle that its updates are for the index that it was asked for; the
  request is for that index.
* `dutyNeutral_runAll` says that every list of commands keeps to the protocol.
-/

namespace FileIndexing

open ServiceState

/-- Whether an event tells that an operation failed to apply its update. -/
def Event.isFailure : Event → Bool
  | .applyEnded _ _ .operation none => true
  | _ => false

/-- How far an operation has come that failed to apply its update and has yet to request a
rebuild. -/
inductive FailureStage where
  /-- It still holds the lock of the index. -/
  | locked
  | unlocked
  /-- It has reported the damage. -/
  | reported

/-- The index, if any, for which a thread owes a request, and how far it has come. -/
abbrev Duty := Option (IndexId × FailureStage)

/-- Only an action that failed leaves a duty, and then a certain one. -/
def Duty.After {α : Type} (index : IndexId) (stage : FailureStage) (r : Except Failure α)
    (duty : Duty) : Prop :=
  duty = none ∨ (duty = some (index, stage) ∧ ∃ failure, r = .error failure)

theorem Duty.After.of_error {α β : Type} {index : IndexId} {stage : FailureStage} {duty : Duty}
    {failure : Failure} (h : After index stage (.error failure : Except Failure α) duty) :
    After index stage (.error failure : Except Failure β) duty :=
  h.imp_right fun h => ⟨h.1, failure, rfl⟩

theorem Duty.After.eq_none {α : Type} {index : IndexId} {stage : FailureStage} {duty : Duty}
    {v : α} (h : After index stage (.ok v) duty) : duty = none := by
  obtain rfl | ⟨-, _, hr⟩ := h
  · rfl
  · cases hr

section Protocol

variable {S C : Type}

/-- The later state notes no failure to apply an update. -/
def ServiceState.Unfailing (s t : ServiceState S C) : Prop :=
  ∀ event ∈ s.eventsUntil t, event.isFailure = false

/-- What a thread does by one access, as far as it concerns failures to apply updates. -/
inductive DutyMove : Duty → ServiceState S C → Duty → ServiceState S C → Prop where
  | aside {s t} : s.Unfailing t → DutyMove none s none t
  | fail {s index input} :
    DutyMove none s (some (index, .locked)) (s.note (.applyEnded index input .operation none))
  | release {s index locks} :
    DutyMove (some (index, .locked)) s (some (index, .unlocked)) { s with locks }
  | report {s index cause} :
    DutyMove (some (index, .unlocked)) s (some (index, .reported))
      (s.note (.logged (.corrupted index cause)))
  | request {s} {index : IndexId} :
    DutyMove (some (index, .reported)) s none
      (s.moveRegistry index (s.registry.markRequired index))

namespace ServiceState

/-- Nothing is noted when a lock is taken or given back. -/
theorem eventsUntil_withLocks (s : ServiceState S C) (locks : IndexLocks) :
    s.eventsUntil { s with locks } = [] := eventsUntil_of_journal [] rfl

theorem Unfailing.of_journal {s t : ServiceState S C} (h : t.journal = s.journal) :
    s.Unfailing t := by
  rw [Unfailing, eventsUntil_of_journal [] h]
  simp

theorem Unfailing.note (s : ServiceState S C) {event : Event} (h : event.isFailure = false) :
    s.Unfailing (s.note event) := by
  rw [Unfailing, eventsUntil_note]
  simpa using h

theorem Unfailing.moveRegistry (s : ServiceState S C) (index : IndexId)
    (registry : RebuildRegistry) : s.Unfailing (s.moveRegistry index registry) := by
  rw [Unfailing, eventsUntil_moveRegistry]
  split <;> simp [Event.isFailure]

theorem Unfailing.endRebuild (s : ServiceState S C) (index : IndexId) :
    s.Unfailing (s.endRebuild index) := by
  rw [Unfailing, eventsUntil_endRebuild]
  split <;> simp [Event.isFailure]

theorem Discreet.unfailing {s t : ServiceState S C} (h : s.Discreet t) : s.Unfailing t := by
  cases h with
  | quiet events _ _ hincidental hjournal =>
    rw [Unfailing, eventsUntil_of_journal events hjournal]
    intro event hevent
    have hplain := hincidental event hevent
    cases event <;> simp_all [Event.isIncidental, Event.isRemark, Event.isFailure]
  | request index => exact .moveRegistry s index _

end ServiceState

end Protocol

/-! ## Handles -/

section Handles

variable {S U C : Type}

/-- A handle that prepares updates for the index that it is asked for. -/
def Handle.NamesAsked (handle : Handle S U C) : Prop :=
  ∀ index input content, (handle.prepare index input content).program.Obeys
    (fun (_ : Unit) _ _ _ => True) (fun r _ => ∀ update, r = .ok update → update.index = index) ()

/-- A handle of one index that prepares updates for an index. -/
def StoreHandle.Names (handle : StoreHandle S U) (index : IndexId) : Prop :=
  ∀ input content, (handle.prepare input content).program.Obeys
    (fun (_ : Unit) _ _ _ => True) (fun r _ => ∀ update, r = .ok update → update.index = index) ()

/-- A handle that works on the storage of each index through a handle of its own prepares updates
for the index that it is asked for, if those do. -/
theorem Handle.namesAsked_ofStores [Inhabited S] {handles : IndexId → StoreHandle S U}
    (h : ∀ index, (handles index).Names index) : (ofStores handles : Handle S U C).NamesAsked :=
  fun index input content => Program.obeys_focus (h index input content)

/-- Storage in memory is worked on under the name of its index. -/
theorem StoreHandle.names_memory {K V : Type} [Ord K] [Std.TransOrd K] [BEq V]
    (indexer : Indexer K V) (index : IndexId) : (memory indexer index).Names index := by
  intro input content
  show (Action.resume (mapped indexer index input content) >>= fun data =>
    pure ⟨index, input, data⟩ : Action _ (PreparedUpdate (Mapping K V))).program.Obeys _ _ _
  cases mapped indexer index input content with
  | error failure => exact fun update h => nomatch h
  | ok data =>
    intro update h
    rw [← Except.ok.inj h]

end Handles

/-! ## Keeping to the protocol -/

section Conformance

open Service

variable {S U C α : Type} {env : Environment S U C}

/-- Whatever notes no failure leaves a thread that owes nothing as it is. -/
theorem dutyClass (horacle : env.oracle = .registry) (hhandle : env.handle.IsDiscreet) :
    ServiceClass env Unfailing fun {_} a => a.Neutral DutyMove none :=
  .of_discreet (.ofNeutral fun _ _ => .aside) (fun _ _ h => h.unfailing) horacle hhandle

/-- Whatever leaves a thread that owes nothing as it is leaves no duty. -/
theorem obeys_of_dutyNeutral {index : IndexId} {stage : FailureStage} {a : ServiceAction S C α}
    (ha : a.Neutral DutyMove none) :
    a.program.Obeys DutyMove (Duty.After index stage) none :=
  Program.Obeys.mono ha fun _ _ h => .inl h

/-- The failure to apply an update is a duty of the thread that applied it. -/
theorem obeys_applyUpdate_duty (hhandle : env.handle.IsDiscreet) (update : PreparedUpdate U) :
    (env.applyUpdate .operation update).program.Obeys DutyMove
      (Duty.After update.index .locked) none := by
  refine Action.obeys_access_bind fun s => ⟨none, .aside (.note s rfl), ?_⟩
  refine Action.obeys_outcome_bind (fun _ duty => duty = none)
    ((hhandle.apply update).obeys (fun _ _ h => .aside h.unfailing) fun _ => rfl) ?_
  rintro (failure | changed) _ rfl
  · exact Action.obeys_access_bind fun s =>
      ⟨_, .fail, Action.obeys_fail (.inr ⟨rfl, failure, rfl⟩)⟩
  · exact Action.obeys_access_bind fun s =>
      ⟨none, .aside (.note s rfl), Action.obeys_pure (.inl rfl)⟩

/-- A thread that fails under the lock of an index gives the lock back before anything else. -/
theorem obeys_withIndexLock_duty {index locked : IndexId} {a : ServiceAction S C α}
    (ha : a.program.Obeys DutyMove (Duty.After index .locked) none) :
    (withIndexLock locked a).program.Obeys DutyMove (Duty.After index .unlocked) none := by
  have hP : ActionClass Unfailing fun {_} (a : ServiceAction S C _) => a.Neutral DutyMove none :=
    .ofNeutral fun _ _ => .aside
  have hfind : (findLock locked : ServiceAction S C Nat).Neutral DutyMove none := by
    refine hP.bind (hP.access fun s => .of_journal rfl) fun found => ?_
    cases found with
    | some lock => exact hP.pure lock
    | none => exact hP.access fun s => .of_journal rfl
  refine hfind.obeys_bind (fun lock => ?_) fun _ => .inl rfl
  refine Action.obeys_await_bind fun s _ => ⟨none, .aside (.of_journal rfl), ?_⟩
  refine Action.obeys_ensuring ha ?_
  rintro r duty (rfl | ⟨rfl, hfailed⟩) s
  · exact ⟨none, .aside (.of_journal rfl), .inl rfl⟩
  · exact ⟨_, .release, .inr ⟨rfl, hfailed⟩⟩

/-- What an operation does once its update is prepared leaves it unlocked if it fails. -/
theorem obeys_carryOut_duty (horacle : env.oracle = .registry) (hhandle : env.handle.IsDiscreet)
    (op : Operation) (update : PreparedUpdate U) :
    (env.carryOut op update).program.Obeys DutyMove (Duty.After update.index .unlocked) none := by
  have hP := dutyClass horacle hhandle
  have hgated : (do
      if ← env.isGated update.index then pure none
      else some <$> env.applyUpdate .operation update).program.Obeys DutyMove
        (Duty.After update.index .locked) none := by
    refine (hP.calls.mem_isGated update.index).obeys_bind (fun gated => ?_) fun _ => .inl rfl
    split
    · exact Action.obeys_pure (.inl rfl)
    · refine Action.obeys_map ((obeys_applyUpdate_duty hhandle update).mono ?_)
      rintro (failure | changed) duty h
      · exact h.of_error
      · exact .inl h.eq_none
  refine Action.obeys_bind _ (obeys_withIndexLock_duty hgated) (fun applied duty h => ?_)
    fun _ _ h => h.of_error
  obtain rfl := h.eq_none
  have hsettled : ∀ changed, (do
      env.setState op
      pure (Outcome.applied changed)).Neutral DutyMove none := fun changed =>
    hP.bind (hP.work.mem_setState op) fun _ => hP.pure _
  refine obeys_of_dutyNeutral ?_
  cases applied with
  | none => exact hP.bind (hP.calls.drop op) fun _ => hP.pure _
  | some changed =>
    dsimp only
    split
    · split
      · exact hP.bind (hP.calls.log rfl) fun _ => hsettled changed
      · exact hsettled changed
    · exact hP.pure _

variable (hnames : env.handle.NamesAsked)

include hnames

theorem obeys_prepareTimed_duty (horacle : env.oracle = .registry)
    (hhandle : env.handle.IsDiscreet) (index : IndexId) (input : InputId)
    (content : Option FileContent) :
    (env.prepareTimed index input content).program.Obeys DutyMove
      (fun r duty => duty = none ∧ ∀ update, r = .ok (.ok update) → update.index = index) none := by
  have hP := dutyClass horacle hhandle
  have hprepared : (env.handle.prepare index input content).result.program.Obeys DutyMove
      (fun r duty => duty = none ∧ ∀ update, r = .ok (.ok update) → update.index = index) none := by
    refine Program.Obeys.and_result (hP.calls.result (hP.work.prepare index input content)) ?_
    refine Action.obeys_result (hnames index input content) ?_ ?_ ?_
    · rintro v ⟨⟩ hv update h
      exact hv update (congrArg Except.ok (Except.ok.inj (Except.ok.inj h)))
    · simp
    · simp
  refine Action.obeys_bind _ hprepared ?_ fun _ _ h => ⟨h.1, by simp⟩
  rintro prepared _ ⟨rfl, hprepared⟩
  exact (hP.calls.count _).obeys_bind (fun _ => (hP.calls.count _).obeys_bind
    (fun _ => Action.obeys_pure ⟨rfl, hprepared⟩) fun _ => ⟨rfl, by simp⟩) fun _ => ⟨rfl, by simp⟩

/-- An attempt to carry out an operation that fails to apply its update has given the lock back. -/
theorem obeys_attempt_duty (horacle : env.oracle = .registry) (hhandle : env.handle.IsDiscreet)
    (op : Operation) :
    (env.attempt op).program.Obeys DutyMove (Duty.After op.index .unlocked) none := by
  have hP := dutyClass horacle hhandle
  refine Action.obeys_bind _
    (obeys_prepareTimed_duty hnames horacle hhandle op.index op.input op.task.content?) ?_
    fun _ _ h => .inl h.1
  rintro (cause | update) _ ⟨rfl, hprepared⟩
  · cases cause with
    | mapping failure =>
      exact obeys_of_dutyNeutral (hP.bind (hP.calls.mem_notify _) fun _ => hP.pure _)
    | _ => exact Action.obeys_fail (.inl rfl)
  · rw [← hprepared update rfl]
    exact obeys_carryOut_duty horacle hhandle op update

omit hnames in
/-- Who has failed reports the damage and requests the rebuild. -/
theorem dutyNeutral_requestRebuildOnError (horacle : env.oracle = .registry)
    (hhandle : env.handle.IsDiscreet) (cause : Error) (index : IndexId) :
    (env.requestRebuildOnError cause index).program.Obeys DutyMove (fun _ duty => duty = none)
      (some (index, .unlocked)) := by
  have hP := dutyClass horacle hhandle
  refine Action.obeys_access_bind fun s => ⟨some (index, .reported), .report, ?_⟩
  have hrequest : (env.oracle.request index (.ofError cause)).program.Obeys DutyMove
      (fun _ duty => duty = none) (some (index, .reported)) := by
    rw [horacle]
    exact Action.obeys_access_bind fun s =>
      ⟨none, .request, hP.mem_recordRequest index (.ofError cause) _⟩
  refine Action.obeys_bind _ hrequest ?_ fun _ _ h => h
  rintro _ _ rfl
  exact hP.pure ()

/-- An operation leaves no duty behind. -/
theorem dutyNeutral_execute (horacle : env.oracle = .registry) (hhandle : env.handle.IsDiscreet)
    (op : Operation) : (env.execute op).Neutral DutyMove none := by
  have hP := dutyClass horacle hhandle
  have hmarked : (env.executeMarked op).Neutral DutyMove none := by
    refine Action.obeys_bind_ok
      (fun answer duty => ∃ r, answer = r.mapError Failure.toError ∧
        Duty.After op.index .unlocked r duty)
      (Action.obeys_caught ((obeys_attempt_duty hnames horacle hhandle op).mono
        fun r duty h => ⟨_, rfl, r, rfl, h⟩)) ?_
    rintro _ duty ⟨failure | outcome, rfl, h⟩
    · have hrequest : (env.requestRebuildOnError failure.toError op.index).program.Obeys DutyMove
          (fun _ duty => duty = none) duty := by
        obtain rfl | ⟨rfl, -⟩ := h
        · exact hP.calls.mem_requestRebuildOnError _ _
        · exact dutyNeutral_requestRebuildOnError horacle hhandle _ _
      refine Action.obeys_bind _ hrequest ?_ fun _ _ h => h
      rintro _ _ rfl
      exact hP.calls.mem_recorded _
    · obtain rfl := h.eq_none
      exact hP.calls.mem_recorded outcome
  exact hP.calls.mem_execute (fun _ => hP.update fun s => .note s rfl)
    (hP.mem_withMark op.mark hmarked)

/-- Every list of commands leaves no duty behind. -/
theorem dutyNeutral_runAll (horacle : env.oracle = .registry) (hhandle : env.handle.IsDiscreet)
    (commands : List Command) : (Command.runAll env none commands).Neutral DutyMove none := by
  have hP := dutyClass horacle hhandle
  have hnote : ∀ {event : Event}, event.isFailure = false →
      (note event : ServiceAction S C Unit).Neutral DutyMove none := fun h =>
    hP.update fun s => .note s h
  have hlock : ∀ {α : Type} (index : IndexId) {a : ServiceAction S C α},
      a.Neutral DutyMove none → (withIndexLock index a).Neutral DutyMove none := fun index _ ha =>
    hP.toActionClass.mem_withIndexLock (fun _ _ => .of_journal rfl) index ha
  have hclaim : ∀ index, (env.claimAndClear index).Neutral DutyMove none := fun index =>
    hP.calls.mem_claimAndClear (hlock index)
      (hP.mem_start (hP.access fun s => .moveRegistry s index _))
      (hP.access fun s => .note _ rfl)
      (hP.mem_withStructuralLock (hP.calls.mem_clearIndex (hnote rfl) (fun _ => hnote rfl)
        (hP.mem_of_discreet (hhandle.clear index))))
  have hcommands : CommandClass env (fun _ => True) Unfailing
      fun {_} a => a.Neutral DutyMove none := {
    hP.toActionClass with
    still := fun _ _ h => h.discreet.unfailing
    execute := dutyNeutral_execute hnames horacle hhandle
    request := hP.calls.request
    rebuild := fun index _ _ hrepopulate => hP.calls.mem_rebuildIndex (hclaim index)
      (hP.mem_finish (hP.access fun s => .endRebuild s index)) (fun _ _ => hnote rfl) hrepopulate
    indexFile := hP.work.mem_indexFile fun update => hlock update.index
      (hP.calls.mem_applyUpdate (hnote rfl) (fun _ => hnote rfl) (hP.mem_of_discreet
        (hhandle.apply update)))
    indexingState := hP.work.mem_indexingState }
  exact hcommands.mem_runAll none commands
    (Command.rebuildsOnlyAll_of_forall (fun _ => trivial) commands)

end Conformance

end FileIndexing
