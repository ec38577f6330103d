import FileIndexing.Proofs.Errands
import FileIndexing.Proofs.Handover

/-!
# All operations for a file

The operations for a file are executed one after the other, by the caller or by a worker, whatever
becomes of any of them.

* `exists_executes` says of one operation that it comes to an outcome, whatever the phases of the
  handle and the listeners do, and what it makes of the gates; `exists_batches` says the same of
  several.
* `Action.Reports` says which outcomes and warnings an action adds to the journal
  (`reports_execute`).
* `run_applyNow` puts these together, and `entrust_ends` carries the result over to the workers.
* `apply_fansOut` is the result.
-/

namespace FileIndexing

open FileIndexing.Action Service

variable {S U C α β : Type}

/-! ## One operation after another -/

/-- A behaviour whose phases, called for a registered index, register none and leave every one
registered. -/
structure Behaviour.KeepsIndices (b : Behaviour S U C) : Prop where
  prepare : ∀ index input content w, w.stores.contains index = true →
    (b.prepare index input content w).2.stores.keys = w.stores.keys
  prepared : ∀ index input content w update, (b.prepare index input content w).1 = .ok update →
    update.index = index
  apply : ∀ update w, w.stores.contains update.index = true →
    (b.apply update w).2.stores.keys = w.stores.keys
  setIndexed : ∀ index input w, w.stores.contains index = true →
    (b.setIndexed index input w).2.stores.keys = w.stores.keys
  setUnindexed : ∀ index input w, w.stores.contains index = true →
    (b.setUnindexed index input w).2.stores.keys = w.stores.keys

theorem World.contains_eq_of_keys_eq {v w : World S C} (h : v.stores.keys = w.stores.keys)
    (index : IndexId) : v.stores.contains index = w.stores.contains index := by
  rw [Bool.eq_iff_iff, Std.ExtTreeMap.contains_iff_mem, Std.ExtTreeMap.contains_iff_mem,
    ← Std.ExtTreeMap.mem_keys, h, Std.ExtTreeMap.mem_keys]

theorem Behaviour.KeepsIndices.settle {b : Behaviour S U C} (hkeeps : b.KeepsIndices)
    {op : Operation} {w : World S C} (hregistered : w.stores.contains op.index = true) :
    (b.settle op w).2.stores.keys = w.stores.keys := by
  unfold Behaviour.settle
  cases op.task with
  | removal => exact hkeeps.setUnindexed op.index op.input w hregistered
  | update content => exact hkeeps.setIndexed op.index op.input w hregistered

/-- Then so does an operation. -/
theorem Behaviour.Course.keys_eq {b : Behaviour S U C} (hkeeps : b.KeepsIndices)
    {gates : IndexId → Bool} {listeners : List Listener} {op : Operation} {w : World S C}
    {a : Attempt S C} (h : b.Course gates listeners op w a)
    (hregistered : w.stores.contains op.index = true) : a.world.stores.keys = w.stores.keys := by
  have hprepare : ∀ {r v}, b.prepareFor op w = (r, v) → v.stores.keys = w.stores.keys := by
    intro r v hphase
    have hkeys := hkeeps.prepare op.index op.input op.task.content? w hregistered
    rwa [← Behaviour.prepareFor, hphase] at hkeys
  have happly : ∀ {update r v v'}, b.prepareFor op w = (.ok update, v) →
      b.apply update v = (r, v') → v'.stores.keys = w.stores.keys := by
    intro update r v v' hphase happlied
    have hindex := hkeeps.prepared op.index op.input op.task.content? w update
      (by rw [← Behaviour.prepareFor, hphase])
    have hkeys := hkeeps.apply update v
      (by rw [hindex, World.contains_eq_of_keys_eq (hprepare hphase), hregistered])
    rw [happlied] at hkeys
    exact hkeys.trans (hprepare hphase)
  have hsettle : ∀ {r v v'}, v.stores.keys = w.stores.keys → b.settle op v = (r, v') →
      v'.stores.keys = w.stores.keys := by
    intro r v v' hbefore hsettled
    have hregistered' : v.stores.contains op.index = true := by
      rw [World.contains_eq_of_keys_eq hbefore, hregistered]
    have hkeys := hkeeps.settle hregistered'
    rw [hsettled] at hkeys
    exact hkeys.trans hbefore
  cases h with
  | refused hprepared | unprepared hprepared _ | withheld hprepared _ => exact hprepare hprepared
  | unapplied hprepared _ happlied | unchanged hprepared _ happlied =>
    exact happly hprepared happlied
  | unsettled hprepared _ happlied hsettled | changed hprepared _ happlied hsettled =>
    exact hsettle (happly hprepared happlied) hsettled

section Yields

variable {env : Environment S U C} {b : Behaviour S U C} {op : Operation} {x y : Scene S C}
  {outcome : Outcome}

/-- The part of an operation whose failures count as damage to storage ends in some way, also when a
listener panics.  It leaves the same world as if none did. -/
theorem attempt_yields_any (horacle : env.oracle = .registry) (hperforms : env.handle.Performs b)
    (op : Operation) (hheld : x.held = []) (hshareable : x.coordination.canShare = true) :
    ∃ a : Attempt S C, (∀ cause, a.result ≠ .ok (.storageCorrupted cause)) ∧
      (∃ a', b.Course (env.gates x.registry) x.listeners op x.world a' ∧ a.world = a'.world) ∧
      (env.attempt op).Yields x a.result
        { x with world := a.world, deeds := a.deeds ++ x.deeds } := by
  by_cases hquiet : ∀ refusal w, b.prepareFor op x.world = (.error (.error (.mapping refusal)), w) →
      ∀ tag, Listener.recording tag true ∉ x.listeners
  · obtain ⟨a, hcourse, hattempt⟩ := attempt_yields horacle hperforms hheld hshareable hquiet
    exact ⟨a, fun cause hresult => (hcourse.ok_iff hresult).1 cause rfl, ⟨a, hcourse, rfl⟩,
      hattempt⟩
  · simp only [not_forall, not_not] at hquiet
    obtain ⟨refusal, w, hprepared, tag, hpanics⟩ := hquiet
    have hprepare : (env.prepareTimed op.index op.input op.task.content?).Yields x
        (.ok (.error (.mapping refusal))) { x with world := w } :=
      prepareTimed_yields hperforms hprepared
    obtain ⟨told, hnotify⟩ :=
      yields_notify_panics (op.notice refusal) (x := { x with world := w }) hpanics
    exact ⟨⟨.error (.panic (.text "listener panic")), w, told⟩, by simp,
      ⟨_, .refused hprepared, rfl⟩, hprepare.bind hnotify.bind_error⟩

/-- What an operation makes of the gates, and what it gives back. -/
structure Executes (env : Environment S U C) (b : Behaviour S U C) (op : Operation)
    (x : Scene S C) (outcome : Outcome) (y : Scene S C) : Prop where
  /-- An operation on a gated index is skipped. -/
  gated : env.gates x.registry op.index = true → outcome = .gated
  /-- No gate is opened. -/
  closed : ∀ index, env.gates x.registry index = true → env.gates y.registry index = true
  /-- Damage to storage closes the gate, unless there are no gates. -/
  corrupted : ∀ cause, outcome = .storageCorrupted cause → env.config.testMode = false →
    env.gates y.registry op.index = true
  marks : y.marks = x.marks
  held : y.held = x.held
  coordination : y.coordination = x.coordination
  indices : b.KeepsIndices → y.world.stores.keys = x.world.stores.keys

/-- An operation that is skipped leaves everything as it is. -/
theorem Executes.skipped (hgated : env.gates x.registry op.index = true → outcome = .gated)
    (hother : ∀ cause, outcome ≠ .storageCorrupted cause) : Executes env b op x outcome x where
  gated := hgated
  closed _ h := h
  corrupted cause h := absurd h (hother cause)
  marks := rfl
  held := rfl
  coordination := rfl
  indices _ := rfl

/-- What an operation attempts that passes the gate. -/
theorem Executes.attempted {a a' : Attempt S C} (hopen : env.gates x.registry op.index = false)
    (hregistered : x.world.stores.contains op.index = true)
    (hother : ∀ cause, a.result ≠ .ok (.storageCorrupted cause))
    (hcourse : b.Course (env.gates x.registry) x.listeners op x.world a')
    (hworld : a.world = a'.world) :
    Executes env b op x a.outcome (a.scene op.index x) := by
  have hindices : b.KeepsIndices → a.world.stores.keys = x.world.stores.keys := fun hkeeps => by
    rw [hworld, hcourse.keys_eq hkeeps hregistered]
  cases hresult : a.result with
  | ok outcome =>
    have hregistry : (a.scene op.index x).registry = x.registry := by
      simp [Attempt.scene, Attempt.registry, hresult]
    refine ⟨by simp [hopen], fun index h => by rwa [hregistry], fun cause hcause => ?_, rfl, rfl,
      rfl, hindices⟩
    rw [Attempt.outcome, hresult] at hcause
    exact absurd (hresult.trans (congrArg _ hcause)) (hother cause)
  | error failure =>
    have hregistry : (a.scene op.index x).registry =
        (x.registry.request op.index (.ofError failure.toError)).2 := by
      simp [Attempt.scene, Attempt.registry, hresult]
    refine ⟨by simp [hopen], fun index h => ?_, fun _ _ htest => ?_, rfl, rfl, rfl, hindices⟩
    · have hne : op.index ≠ index := by
        rintro rfl
        simp [hopen] at h
      rw [Environment.gates, hregistry, RebuildRegistry.state_request_of_ne _ _ hne]
      exact h
    · simp [Environment.gates, hregistry, RebuildRegistry.state_request, htest]

/-- An operation comes to an outcome, whatever the phases and the listeners do. -/
theorem exists_executes (horacle : env.oracle = .registry) (hperforms : env.handle.Performs b)
    (hheld : x.held = []) (hshareable : x.coordination.canShare = true)
    (hmark : x.marks.isMarked op.mark = false) :
    ∃ outcome y, (env.execute op).Yields x (.ok outcome) y ∧ Executes env b op x outcome y := by
  cases hgates : env.gates x.registry op.index with
  | true =>
    exact ⟨.gated, x, execute_yields_gated horacle hgates, .skipped (fun _ => rfl) (by simp)⟩
  | false =>
    cases hregistered : x.world.stores.contains op.index with
    | false =>
      exact ⟨.unknownIndex, x, execute_yields_unknown horacle hgates hregistered,
        .skipped (by simp [hgates]) (by simp)⟩
    | true =>
      obtain ⟨a, hother, ⟨a', hcourse, hworld⟩, hattempt⟩ := attempt_yields_any
        (x := { x with marks := x.marks.take op.mark }) horacle hperforms op hheld hshareable
      exact ⟨a.outcome, a.scene op.index x,
        execute_yields_attempted horacle hmark hgates hregistered hattempt,
        .attempted hgates hregistered hother hcourse hworld⟩

/-- What operations come to that are executed one after the other, and what they give back. -/
structure Batches (env : Environment S U C) (b : Behaviour S U C) (ops : List Operation)
    (x : Scene S C) (outcomes : List Outcome) (y : Scene S C) : Prop where
  length : outcomes.length = ops.length
  /-- Operations on indices that are gated from the start are skipped. -/
  gated : ∀ pair ∈ ops.zip outcomes, env.gates x.registry pair.1.index = true → pair.2 = .gated
  /-- So are operations on indices that were damaged on the way, unless there are no gates. -/
  damaged : env.config.testMode = false → (ops.zip outcomes).Pairwise fun earlier later =>
    earlier.1.index = later.1.index → (∃ cause, earlier.2 = .storageCorrupted cause) →
      later.2 = .gated
  marks : y.marks = x.marks
  held : y.held = x.held
  coordination : y.coordination = x.coordination
  indices : b.KeepsIndices → y.world.stores.keys = x.world.stores.keys

/-- Operations come to outcomes one after the other, whatever those are. -/
theorem exists_batches (horacle : env.oracle = .registry) (hperforms : env.handle.Performs b)
    (ops : List Operation) (hheld : x.held = []) (hshareable : x.coordination.canShare = true)
    (hmarks : ∀ op ∈ ops, x.marks.isMarked op.mark = false) :
    ∃ outcomes y, (collect env.execute ops).Yields x (.ok outcomes) y ∧
      Batches env b ops x outcomes y := by
  induction ops generalizing x with
  | nil =>
    exact ⟨[], x, yields_pure [] x, rfl, by simp, by simp, rfl, rfl, rfl, fun _ => rfl⟩
  | cons op rest ih =>
    obtain ⟨hmark, hrest⟩ := List.forall_mem_cons.1 hmarks
    obtain ⟨outcome, y, hexecute, hone⟩ := exists_executes horacle hperforms hheld hshareable hmark
    obtain ⟨outcomes, z, hcollect, hbatches⟩ := ih (hone.held.trans hheld)
      (by rwa [hone.coordination]) (by rwa [hone.marks])
    refine ⟨outcome :: outcomes, z, hexecute.bind (hcollect.bind (yields_pure _ z)), ?_, ?_, ?_,
      hbatches.marks.trans hone.marks, hbatches.held.trans hone.held,
      hbatches.coordination.trans hone.coordination,
      fun hkeeps => (hbatches.indices hkeeps).trans (hone.indices hkeeps)⟩
    · rw [List.length_cons, List.length_cons, hbatches.length]
    · rw [List.zip_cons_cons]
      exact List.forall_mem_cons.2 ⟨hone.gated, fun pair hmem hgates =>
        hbatches.gated pair hmem (hone.closed _ hgates)⟩
    · intro htest
      rw [List.zip_cons_cons]
      refine List.pairwise_cons.2 ⟨fun pair hmem hindex hcause => ?_, hbatches.damaged htest⟩
      obtain ⟨cause, hcorrupted⟩ := hcause
      refine hbatches.gated pair hmem ?_
      rw [← hindex]
      exact hone.corrupted cause hcorrupted htest

end Yields

/-! ## What operations write to the journal -/

/-- Whether an event tells what an operation came to, or that not all operations for a file ran to
completion. -/
def Event.isReport : Event → Bool
  | .executed _ _ | .logged (.incomplete _ _) => true
  | _ => false

theorem Event.not_isReport_of_isRoutine {record : LogRecord} (h : record.isRoutine = true) :
    (Event.logged record).isReport = false := by
  cases record <;> simp_all [LogRecord.isRoutine, isReport]

namespace ServiceState

/-- The reports in the journal, the latest first. -/
def reports (s : ServiceState S C) : List Event := s.journal.filter (·.isReport)

theorem reports_note (s : ServiceState S C) {event : Event} (h : event.isReport = false) :
    (s.note event).reports = s.reports := by
  simp [reports, note, h]

theorem reports_note_report (s : ServiceState S C) {event : Event} (h : event.isReport = true) :
    (s.note event).reports = event :: s.reports := by
  simp [reports, note, h]

theorem reports_moveRegistry (s : ServiceState S C) (index : IndexId)
    (registry : RebuildRegistry) : (s.moveRegistry index registry).reports = s.reports := by
  unfold moveRegistry
  dsimp only
  split
  · rfl
  · exact reports_note _ rfl

end ServiceState

namespace Action

/-- An action that adds no report. -/
def IsSilent (a : ServiceAction S C α) : Prop := ∀ s, a.Leaves s fun _ t => t.reports = s.reports

/-- An action that adds certain reports before it answers. -/
def Reports (a : ServiceAction S C α) (told : α → List Event) : Prop :=
  ∀ s, a.Leaves s fun r t => ∀ v, r = .ok v → t.reports = told v ++ s.reports

theorem silentClass :
    ActionClass (fun s t : ServiceState S C => t.reports = s.reports) fun {_} a => a.IsSilent :=
  .ofLeaves (fun _ => rfl) fun _ _ _ hst htu => htu.trans hst

/-- What a silent action leaves untold is told by what follows it. -/
theorem IsSilent.bind_reports {a : ServiceAction S C α} {k : α → ServiceAction S C β}
    {told : β → List Event} (ha : a.IsSilent) (hk : ∀ v, (k v).Reports told) :
    (a >>= k).Reports told := fun s =>
  leaves_bind _ (ha s)
    (fun v t ht => (hk v t).mono fun _ u hu w hw => by rw [hu w hw, ht])
    fun failure t _ v hv => by cases hv

/-- One after the other, actions report in their order. -/
theorem Reports.collect {f : α → ServiceAction S C β} {event : α → β → Event}
    (hf : ∀ a, (f a).Reports fun b => [event a b]) (list : List α) :
    (Action.collect f list).Reports fun bs =>
      ((list.zip bs).map fun pair => event pair.1 pair.2).reverse := by
  induction list with
  | nil => exact fun s => leaves_pure fun _ _ => rfl
  | cons a rest ih =>
    intro s
    refine leaves_bind _ (hf a s) (fun b t ht => ?_) fun _ _ _ v hv => by cases hv
    refine leaves_bind _ (ih t) (fun bs u hu => leaves_pure ?_) fun _ _ _ v hv => by cases hv
    rintro _ ⟨⟩
    rw [hu bs rfl, ht b rfl]
    simp

end Action

section Reports

variable {env : Environment S U C}

/-- What a service does besides its proper work is silent. -/
theorem silentCalls (horacle : env.oracle = .registry) :
    TallyClass env fun {_} a => a.IsSilent where
  toActionClosure := silentClass.closure
  registered _ := silentClass.access fun _ => rfl
  indices := silentClass.access fun _ => rfl
  listeners := silentClass.access fun _ => rfl
  log h := silentClass.update fun s => s.reports_note (Event.not_isReport_of_isRoutine h)
  deliver _ _ := silentClass.update fun s => s.reports_note rfl
  state index := by
    rw [horacle]
    exact silentClass.access fun _ => rfl
  request index cause := by
    rw [horacle]
    exact silentClass.closure.mem_requestRebuild (silentClass.update fun _ => rfl)
      (fun _ => silentClass.update fun s => s.reports_note rfl) (silentClass.update fun _ => rfl)
      (silentClass.access fun s => s.reports_moveRegistry index _)
  drop _ := silentClass.update fun s => s.reports_note rfl
  count _ := silentClass.update fun _ => rfl
  bump := silentClass.access fun _ => rfl

theorem silent_attempt (horacle : env.oracle = .registry) (hhandle : env.handle.IsWorldly)
    (op : Operation) : (env.attempt op).IsSilent := by
  have hP := silentCalls horacle
  have hphase : ∀ {α : Type} {a : ServiceAction S C α}, a.program.IsWorldly → a.IsSilent :=
    fun ha => silentClass.every (ha.every fun _ _ => rfl)
  have hnote : ∀ {event : Event}, event.isReport = false →
      (note event : ServiceAction S C Unit).IsSilent := fun h =>
    silentClass.update fun s => s.reports_note h
  refine hP.mem_attempt (hphase (hhandle.prepare _ _ _)) (fun update => ?_) ?_
  · exact hP.mem_runUpdateUnless (silentClass.mem_withIndexLock (fun _ _ => rfl) update.index)
      (hP.mem_applyUpdate (hnote rfl) (fun _ => hnote rfl) (hphase (hhandle.apply update)))
  · refine silentClass.mem_withReadLock (fun _ _ => rfl) ?_
    cases op.task with
    | removal => exact hphase (hhandle.setUnindexed op.index op.input)
    | update content => exact hphase (hhandle.setIndexed op.index op.input)

theorem silent_undertake (horacle : env.oracle = .registry) (hhandle : env.handle.IsWorldly)
    (op : Operation) : (env.undertake op).IsSilent := by
  have hP := silentCalls horacle
  exact hP.mem_undertake (silentClass.mem_withMark (fun _ _ => rfl) op.mark
    (hP.mem_executeMarked (silent_attempt horacle hhandle op)))

/-- An operation reports its outcome once and nothing else. -/
theorem reports_execute (horacle : env.oracle = .registry) (hhandle : env.handle.IsWorldly)
    (op : Operation) : (env.execute op).Reports fun outcome => [.executed op outcome] := by
  refine (silent_undertake horacle hhandle op).bind_reports fun outcome s => ?_
  refine leaves_access_bind (leaves_pure ?_)
  rintro _ ⟨⟩
  exact s.reports_note_report rfl

end Reports

/-! ## The operations for a file -/

/-- A list of answers that are paired with something is the list of the answers, paired. -/
theorem Action.collect_paired {σ γ : Type} (f : α → Action σ β) (g : α → γ) (list : List α) :
    collect (fun a => do pure (g a, ← f a)) list =
      (fun bs => (list.map g).zip bs) <$> collect f list := by
  induction list with
  | nil => rfl
  | cons a rest ih =>
    simp only [collect, ih, ← bind_pure_comp, bind_assoc, pure_bind]
    rfl

namespace FileApplication

/-- The result of the operations for a file, given their outcomes. -/
def resultOf (a : FileApplication) (outcomes : List Outcome) : FileApplicationResult :=
  ⟨a.input, (a.operations.map (·.index)).zip outcomes⟩

theorem allSucceeded_resultOf (a : FileApplication) {outcomes : List Outcome}
    (hlength : outcomes.length = a.size) :
    (a.resultOf outcomes).allSucceeded = outcomes.all (·.isSuccess) := by
  have hsnd : (a.resultOf outcomes).outcomes.map Prod.snd = outcomes := by
    refine List.map_snd_zip ?_
    rw [List.length_map, length_operations, hlength]
  rw [FileApplicationResult.allSucceeded, ← hsnd, List.all_map]
  simp only [hsnd]
  rfl

end FileApplication

/-- What there is once the result of the operations for a file is known: a warning, unless all of
them ran to completion. -/
def ServiceState.warned (t : ServiceState S C) (application : FileApplication)
    (outcomes : List Outcome) : ServiceState S C :=
  if (application.resultOf outcomes).allSucceeded then t
  else t.note (.logged (.incomplete application.info application.mode))

/-- The operations for a file are executed one after the other, and then there may be a warning. -/
theorem run_applyNow {env : Environment S U C} {application : FileApplication}
    {s t : ServiceState S C} {outcomes : List Outcome}
    (hcollect : (collect env.execute application.operations).run s = some (.ok outcomes, t)) :
    (env.applyNow application).run s =
      some (.ok (application.resultOf outcomes), t.warned application outcomes) := by
  rw [Environment.applyNow, collect_paired, bind_map_left, run_bind, hcollect]
  show (do
    if !(application.resultOf outcomes).allSucceeded then
      log (.incomplete application.info application.mode)
    pure (application.resultOf outcomes) : ServiceAction S C FileApplicationResult).run t = _
  rw [ServiceState.warned]
  cases (application.resultOf outcomes).allSucceeded <;> rfl

/-! ## The result -/

/-- The order in which operations are executed that were added in a certain order. -/
def executionOrder (added : List Operation) : List Operation :=
  added.filter (·.removes) ++ added.filter (!·.removes)

namespace FileApplication

/-- The operations for a file, added one after the other. -/
def gather (input : InputId) (info : String) (mode : ApplicationMode) (added : List Operation) :
    FileApplication := added.foldl add (empty input info mode)

theorem gather_eq (input : InputId) (info : String) (mode : ApplicationMode)
    (added : List Operation) : gather input info mode added =
      ⟨input, info, mode, added.filter (·.removes), added.filter (!·.removes)⟩ := by
  rw [gather, foldl_add]
  rfl

theorem operations_gather (input : InputId) (info : String) (mode : ApplicationMode)
    (added : List Operation) :
    (gather input info mode added).operations = executionOrder added := by
  rw [gather_eq]
  rfl

theorem size_gather (input : InputId) (info : String) (mode : ApplicationMode)
    (added : List Operation) : (gather input info mode added).size = added.length := by
  rw [gather_eq, size]
  exact (List.length_eq_length_filter_add _).symm

end FileApplication

/-- What becomes of operations for a file. -/
structure FansOut (env : Environment S U C) (application : FileApplication) (added : List Operation)
    (s : ServiceState S C) (outcomes : List Outcome) (t : ServiceState S C) : Prop where
  /-- They come to the outcomes to which they come one by one, the removals in the order in which
  they were added and then the updates in the order in which they were added. -/
  alone : (collect env.execute (executionOrder added)).run s = some (.ok outcomes, t)
  /-- The result has an outcome for each of them, in that order. -/
  size : application.size = added.length
  length : (application.resultOf outcomes).outcomes.length = application.size
  paired : (application.resultOf outcomes).outcomes =
    ((executionOrder added).map (·.index)).zip outcomes
  /-- An operation on an index that an earlier one has damaged is skipped. -/
  gated : env.config.testMode = false →
    ((executionOrder added).zip outcomes).Pairwise fun earlier later =>
      earlier.1.index = later.1.index → (∃ cause, earlier.2 = .storageCorrupted cause) →
        later.2 = .gated
  succeeded : (application.resultOf outcomes).allSucceeded = true ↔
    ∀ outcome ∈ outcomes, ∃ changed, outcome = .applied changed
  /-- According to the journal each of them was executed once, in that order, and there is one
  warning if not all of them ran to completion. -/
  reports : (t.warned application outcomes).reports =
    (if (application.resultOf outcomes).allSucceeded then []
      else [.logged (.incomplete application.info application.mode)]) ++
    (((executionOrder added).zip outcomes).map fun pair => .executed pair.1 pair.2).reverse ++
    s.reports
  /-- The caller gets the result at once, -/
  synchronous : application.mode = .synchronous → (env.apply application).run s =
    some (.ok (.completed (application.resultOf outcomes)), t.warned application outcomes)
  /-- or it gets it from a worker or throws it away, in whatever order the two go on. -/
  deferred : application.mode = .deferred → ∀ limit, 0 < limit → ∀ keep,
    Acc (fun d c => Crew.Step env limit c d) ⟨s, [(env.entrust application keep).program], []⟩ ∧
      ∀ c, Relation.ReflTransGen (Crew.Step env limit)
          ⟨s, [(env.entrust application keep).program], []⟩ c →
        (∀ d, ¬ Crew.Step env limit c d) →
          c.HandedOver keep (application.resultOf outcomes) s (t.warned application outcomes)

/-- Whatever the phases of the handle and the listeners do, operations for a file that are added in
any order are all executed, as if one by one, and come to one result. -/
theorem apply_fansOut (env : Environment S U C) (horacle : env.oracle = .registry)
    (hhandle : env.handle.IsWorldly) (input : InputId) (info : String) (mode : ApplicationMode)
    (added : List Operation) (s : ServiceState S C) (hs : s.IsUnlocked)
    (hmarks : ∀ op ∈ added, s.marks.isMarked op.mark = false) (hidle : s.deferred.IsIdle) :
    ∃ outcomes t, FansOut env (.gather input info mode added) added s outcomes t := by
  obtain ⟨b, hperforms⟩ := hhandle.exists_performs
  have hops := FileApplication.operations_gather input info mode added
  have hsize := FileApplication.size_gather input info mode added
  generalize FileApplication.gather input info mode added = application at hops hsize ⊢
  obtain ⟨outcomes, _, hcollect, hbatches⟩ := exists_batches (x := s.scene) horacle hperforms
    (executionOrder added) hs.held hs.shareable fun op hmem => by
      refine hmarks op ?_
      simp only [executionOrder, List.mem_append, List.mem_filter] at hmem
      exact hmem.elim And.left And.left
  obtain ⟨t, halone, -⟩ := hcollect s rfl
  have hlength : outcomes.length = application.size := by
    rw [hbatches.length, ← hops, FileApplication.length_operations]
  have hnow : (env.applyNow application).run s =
      some (.ok (application.resultOf outcomes), t.warned application outcomes) :=
    run_applyNow (by rwa [hops])
  have hreports : t.reports = (((executionOrder added).zip outcomes).map fun pair =>
      .executed pair.1 pair.2).reverse ++ s.reports :=
    Reports.collect (reports_execute horacle hhandle) _ s _ t halone outcomes rfl
  refine ⟨outcomes, t, {
    alone := halone
    size := hsize
    length := ?_
    paired := by rw [FileApplication.resultOf, hops]
    gated := hbatches.damaged
    succeeded := ?_
    reports := ?_
    synchronous := ?_
    deferred := fun hmode limit hlimit keep =>
      entrust_ends hmode hlimit (fun _ => oblivious_applyNow horacle hhandle application) hnow hidle
        keep }⟩
  · simp [FileApplication.resultOf, FileApplication.length_operations, hlength]
  · rw [FileApplication.allSucceeded_resultOf _ hlength, List.all_eq_true]
    simp only [Outcome.isSuccess_iff]
  · rw [ServiceState.warned]
    split
    · exact hreports
    · rw [ServiceState.reports_note_report _ rfl, hreports]
      rfl
  · intro hmode
    unfold Environment.apply
    rw [hmode, run_bind, hnow]
    rfl

namespace Sample

/-- Two updates and a removal; one of the updates is for an index that is not registered. -/
def mixed : List Operation :=
  [.update sizes (content 2) ⟨1⟩ .deferred, .removal sizes none none ⟨1⟩ .deferred,
    .update ⟨"names"⟩ (content 2) ⟨1⟩ .deferred]

end Sample

/-- The removal is executed first and damages its index, so that the update of that index is
skipped.  The other update is executed nevertheless. -/
theorem apply_fansOut_mixed : ∃ outcomes t,
    FansOut Sample.confusion (.gather ⟨1⟩ "" .deferred Sample.mixed) Sample.mixed Sample.unconfused
      outcomes t ∧
    outcomes = [.storageCorrupted (.mapping Sample.refusal), .gated, .unknownIndex] := by
  obtain ⟨outcomes, t, hfans⟩ := apply_fansOut Sample.confusion rfl Sample.confused.isWorldly_handle
    ⟨1⟩ "" .deferred Sample.mixed Sample.unconfused ⟨rfl, rfl⟩ (by decide +kernel)
    ⟨rfl, by decide +kernel, by decide +kernel⟩
  have hrun : ((collect Sample.confusion.execute (executionOrder Sample.mixed)).run
      Sample.unconfused).map (fun r => r.1.toOption) =
      some (some [.storageCorrupted (.mapping Sample.refusal), .gated, .unknownIndex]) := by
    decide +kernel
  rw [hfans.alone] at hrun
  exact ⟨outcomes, t, hfans, Option.some.inj (Option.some.inj hrun)⟩

end FileIndexing
