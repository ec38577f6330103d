import FileIndexing.Proofs.Progress
import FileIndexing.Proofs.Translation

/-!
# What is done without regard to the workers

Operations and rebuilds neither look at nor touch what was left to the workers.  So an operation
does the same while other threads submit operations, take their results or throw them away.

* `Program.IsOblivious` says of a program that a change of the state makes no difference to it,
  apart from being there in the end as well (`Program.IsOblivious.run`).
* `Program.IsWorldly` are the programs that work on the world of a service only and never wait, and
  `Handle.IsWorldly` the handles whose phases are such programs.  They may fail and panic in any
  way.
* `oblivious_execute` and `oblivious_applyNow` say that operations are oblivious to what is left to
  the workers, and `oblivious_indexFile` and `oblivious_rebuildIndex` that rebuilds are.
-/

namespace FileIndexing

/-! ## Programs to which a change of the state makes no difference -/

namespace Program

variable {σ α β : Type}

/-- A program that waits for, does and goes on with the same after a certain change of the state as
without it. -/
def IsOblivious (f : σ → σ) : Program σ α → Prop
  | .done _ => True
  | .step ready act next =>
    ∀ s, ready (f s) = ready s ∧ act (f s) = f (act s) ∧ next (f s) = next s ∧
      (next s).IsOblivious f

variable {f : σ → σ}

/-- Run after the change, a program has the same result, and the change is there in the end. -/
theorem IsOblivious.run {p : Program σ α} (hp : p.IsOblivious f) (s : σ) :
    p.run (f s) = (p.run s).map fun r => (r.1, f r.2) := by
  induction p generalizing s with
  | done a => rfl
  | step ready act next ih =>
    obtain ⟨hready, hact, hgo, hnext⟩ := hp s
    rw [Program.run, Program.run, hready, hact, hgo]
    split
    · exact ih s hnext (act s)
    · rfl

theorem IsOblivious.bind {p : Program σ α} {k : α → Program σ β} (hp : p.IsOblivious f)
    (hk : ∀ a, (k a).IsOblivious f) : (p.bind k).IsOblivious f := by
  induction p with
  | done a => exact hk a
  | step ready act next ih =>
    intro s
    obtain ⟨hready, hact, hgo, hnext⟩ := hp s
    exact ⟨hready, hact, by simp only [hgo], ih s hnext⟩

end Program

namespace Action

variable {σ α : Type} {f : σ → σ}

/-- Oblivious actions are closed under doing one after another. -/
theorem obliviousClosure (f : σ → σ) :
    ActionClosure fun {_} (a : Action σ _) => a.program.IsOblivious f where
  resume r := by cases r <;> trivial
  bind ha hk := by
    refine ha.bind ?_
    intro r
    cases r with
    | ok v => exact hk v
    | error failure => trivial
  outcome ha := ha.bind fun _ => trivial

theorem oblivious_access {g : σ → α × σ} (hanswer : ∀ s, (g (f s)).1 = (g s).1)
    (hstate : ∀ s, (g (f s)).2 = f (g s).2) : (access g).program.IsOblivious f := fun s =>
  ⟨rfl, hstate s, by simp only [hanswer], trivial⟩

theorem oblivious_update {g : σ → σ} (h : ∀ s, g (f s) = f (g s)) :
    (update g).program.IsOblivious f := oblivious_access (fun _ => rfl) h

theorem oblivious_read {g : σ → α} (h : ∀ s, g (f s) = g s) :
    (read g).program.IsOblivious f := oblivious_access h fun _ => rfl

theorem oblivious_await {ready : σ → Bool} {act : σ → σ} (hready : ∀ s, ready (f s) = ready s)
    (hact : ∀ s, act (f s) = f (act s)) : (await ready act).program.IsOblivious f := fun s =>
  ⟨hready s, hact s, rfl, trivial⟩

end Action

/-! ## Programs that work on the world only -/

section Worldly

variable {S U C α : Type}

namespace ServiceState

/-- Puts another world in place of the one there is. -/
def withWorld (s : ServiceState S C) (w : World S C) : ServiceState S C :=
  { s with stores := w.stores, client := w.client }

theorem scene_withWorld (s : ServiceState S C) (w : World S C) :
    (s.withWorld w).scene = { s.scene with world := w } := rfl

end ServiceState

namespace Program

/-- A program of a service that works on its world and on nothing else, and never waits. -/
inductive IsWorldly : Program (ServiceState S C) α → Prop where
  | done (a : α) : IsWorldly (.done a)
  | step {ready : ServiceState S C → Bool} {act : ServiceState S C → ServiceState S C}
      {next : ServiceState S C → Program (ServiceState S C) α} (change : World S C → World S C) :
      (∀ s, ready s = true) → (∀ s, act s = s.withWorld (change s.world)) →
      (∀ s t, s.world = t.world → next s = next t) → (∀ s, IsWorldly (next s)) →
      IsWorldly (.step ready act next)

/-- Such a program is a function on worlds. -/
theorem IsWorldly.run {p : Program (ServiceState S C) α} (hp : p.IsWorldly) (w : World S C) :
    ∃ (a : α) (v : World S C), ∀ s : ServiceState S C, s.world = w →
      p.run s = some (a, s.withWorld v) := by
  induction hp generalizing w with
  | done a =>
    refine ⟨a, w, ?_⟩
    rintro s rfl
    rfl
  | @step ready act next change hready hact hgo _ ih =>
    obtain ⟨s₀, rfl⟩ : ∃ s : ServiceState S C, s.world = w :=
      ⟨.ofStores .standard w.stores true w.client, rfl⟩
    obtain ⟨a, v, hrun⟩ := ih s₀ (change s₀.world)
    refine ⟨a, v, fun s hs => ?_⟩
    rw [Program.run, if_pos (hready s), hgo s s₀ hs, hact s, hs]
    exact hrun _ rfl

theorem IsWorldly.bind {β : Type} {p : Program (ServiceState S C) α}
    {k : α → Program (ServiceState S C) β} (hp : p.IsWorldly) (hk : ∀ a, (k a).IsWorldly) :
    (p.bind k).IsWorldly := by
  induction hp with
  | done a => exact hk a
  | step change hready hact hgo _ ih =>
    exact .step change hready hact (fun s t h => by simp only [hgo s t h]) ih

/-- Its accesses put other worlds in place. -/
theorem IsWorldly.every {R : ServiceState S C → ServiceState S C → Prop}
    (hR : ∀ s w, R s (s.withWorld w)) {p : Program (ServiceState S C) α} (hp : p.IsWorldly) :
    p.Every R := by
  induction hp with
  | done a => trivial
  | step change _ hact _ _ ih => exact fun s _ => ⟨by rw [hact]; exact hR s _, ih s⟩

/-- What a program on the storage of an index does it does to the world. -/
theorem isWorldly_onStore [Inhabited S] (index : IndexId) {p : Program S α}
    (hp : p.Prompt fun _ _ => True) :
    (p.focus (fun s : ServiceState S C => s.stores[index]?.getD default) fun s store =>
      { s with stores := s.stores.insert index store }).IsWorldly := by
  induction p with
  | done a => exact .done a
  | step ready act next ih =>
    refine .step (fun w => { w with
      stores := w.stores.insert index (act (w.stores[index]?.getD default)) })
      (fun s => (hp _).1) (fun _ => rfl) (fun s t h => ?_) fun s => ih _ (hp _).2.2
    have hstores : s.stores = t.stores := congrArg World.stores h
    simp only [hstores]

end Program

namespace Handle

/-- A handle whose phases work on the world only and never wait.  They may fail and panic. -/
structure IsWorldly (handle : Handle S U C) : Prop where
  prepare : ∀ index input content, (handle.prepare index input content).program.IsWorldly
  apply : ∀ update, (handle.apply update).program.IsWorldly
  setIndexed : ∀ index input, (handle.setIndexed index input).program.IsWorldly
  setUnindexed : ∀ index input, (handle.setUnindexed index input).program.IsWorldly

/-- A handle that works on the storage of every index through a handle of its own is worldly, if
none of those waits. -/
theorem isWorldly_ofStores [Inhabited S] {handles : IndexId → StoreHandle S U}
    (h : ∀ index, (handles index).IsBrisk) : (ofStores handles : Handle S U C).IsWorldly where
  prepare index input content := Program.isWorldly_onStore index ((h index).prepare input content)
  apply update := Program.isWorldly_onStore update.index ((h update.index).apply update)
  setIndexed index input := Program.isWorldly_onStore index ((h index).setIndexed input)
  setUnindexed index input := Program.isWorldly_onStore index ((h index).setUnindexed input)

end Handle

/-- A worldly action does what some phase does. -/
theorem Program.IsWorldly.exists_performs {a : ServiceAction S C α} (ha : a.program.IsWorldly) :
    ∃ phase : Phase S C α, a.Performs phase := by
  choose r v hrun using ha.run
  refine ⟨fun w => (r w, v w), ?_⟩
  rintro x s rfl
  exact ⟨s.withWorld (v s.world), hrun s.world s rfl, s.scene_withWorld _⟩

/-- A worldly handle behaves in some way. -/
theorem Handle.IsWorldly.exists_performs {handle : Handle S U C} (h : handle.IsWorldly) :
    ∃ b : Behaviour S U C, handle.Performs b := by
  choose prepare hprepare using fun index input content =>
    (h.prepare index input content).exists_performs
  choose apply happly using fun update => (h.apply update).exists_performs
  choose setIndexed hsetIndexed using fun index input =>
    (h.setIndexed index input).exists_performs
  choose setUnindexed hsetUnindexed using fun index input =>
    (h.setUnindexed index input).exists_performs
  exact ⟨⟨prepare, apply, setIndexed, setUnindexed⟩,
    ⟨hprepare, happly, hsetIndexed, hsetUnindexed⟩⟩

theorem Phase.isWorldly_toAction (phase : Phase S C α) : phase.toAction.program.IsWorldly := by
  refine .step (fun w => (phase w).2) (fun _ => rfl) (fun _ => rfl) (fun s t h => ?_) fun s => ?_
  · simp only [h]
  · show (Action.resume (phase s.world).1 : ServiceAction S C α).program.IsWorldly
    cases (phase s.world).1 <;> exact .done _

/-- Conversely, every behaviour is that of a worldly handle. -/
theorem Behaviour.isWorldly_handle (b : Behaviour S U C) : b.handle.IsWorldly where
  prepare _ _ _ := Phase.isWorldly_toAction _
  apply _ := Phase.isWorldly_toAction _
  setIndexed _ _ := Phase.isWorldly_toAction _
  setUnindexed _ _ := Phase.isWorldly_toAction _

end Worldly

/-! ## Operations -/

section Operations

open FileIndexing.Action Service

variable {S U C α : Type} {env : Environment S U C} {d : DeferredWork}

/-- The same state, with other work left to the workers. -/
def ServiceState.withDeferred (d : DeferredWork) (s : ServiceState S C) : ServiceState S C :=
  { s with deferred := d }

theorem ServiceState.withDeferred_moveRegistry (s : ServiceState S C) (index : IndexId)
    (registry : RebuildRegistry) : (s.withDeferred d).moveRegistry index registry =
      (s.moveRegistry index registry).withDeferred d := by
  by_cases hsame : s.registry.state index = registry.state index
  · simp [moveRegistry, withDeferred, hsame]
  · simp [moveRegistry, withDeferred, hsame, note]

theorem ServiceState.withDeferred_endRebuild (s : ServiceState S C) (index : IndexId) :
    (s.withDeferred d).endRebuild index = (s.endRebuild index).withDeferred d := by
  have hmoved := s.withDeferred_moveRegistry (d := d) index (s.registry.markFinished index)
  have hregistry : (s.withDeferred d).registry = s.registry := rfl
  cases hfinish : s.registry.canFinish index with
  | true => simp [endRebuild, hregistry, hfinish, hmoved]
  | false =>
    simp only [endRebuild, hregistry, hfinish, hmoved]
    rfl

theorem Program.IsWorldly.oblivious {p : Program (ServiceState S C) α} (hp : p.IsWorldly) :
    p.IsOblivious (ServiceState.withDeferred d) := by
  induction hp with
  | done a => trivial
  | @step ready act next change hready hact hgo _ ih =>
    exact fun s => ⟨by rw [hready, hready], by rw [hact, hact]; rfl, hgo _ _ rfl, ih s⟩

/-- What a service does besides its proper work is oblivious. -/
theorem obliviousCalls (horacle : env.oracle = .registry) (d : DeferredWork) :
    TallyClass env fun {_} a => a.program.IsOblivious (ServiceState.withDeferred d) where
  toActionClosure := obliviousClosure _
  registered _ := oblivious_read fun _ => rfl
  indices := oblivious_read fun _ => rfl
  listeners := oblivious_read fun _ => rfl
  log _ := oblivious_update fun _ => rfl
  deliver _ _ := oblivious_update fun _ => rfl
  state index := by
    rw [horacle]
    exact oblivious_read fun _ => rfl
  request index cause := by
    rw [horacle]
    exact (obliviousClosure _).mem_requestRebuild (oblivious_update fun _ => rfl)
      (fun _ => oblivious_update fun _ => rfl) (oblivious_update fun _ => rfl)
      (oblivious_access (fun _ => rfl) fun s => s.withDeferred_moveRegistry index _)
  drop _ := oblivious_update fun _ => rfl
  count _ := oblivious_update fun _ => rfl
  bump := oblivious_access (fun _ => rfl) fun _ => rfl

theorem oblivious_withIndexLock (index : IndexId) {a : ServiceAction S C α}
    (ha : a.program.IsOblivious (ServiceState.withDeferred d)) :
    (withIndexLock index a).program.IsOblivious (ServiceState.withDeferred d) := by
  have hP := obliviousClosure (ServiceState.withDeferred (S := S) (C := C) d)
  have hfind : (findLock index : ServiceAction S C Nat).program.IsOblivious
      (ServiceState.withDeferred d) := by
    refine hP.bind (oblivious_read fun _ => rfl) fun found => ?_
    cases found with
    | some lock => exact hP.pure lock
    | none => exact oblivious_access (fun _ => rfl) fun _ => rfl
  exact hP.bind hfind fun lock => hP.bind (oblivious_await (fun _ => rfl) fun _ => rfl) fun _ =>
    hP.ensuring ha (oblivious_update fun _ => rfl)

theorem oblivious_withReadLock {a : ServiceAction S C α}
    (ha : a.program.IsOblivious (ServiceState.withDeferred d)) :
    (withReadLock a).program.IsOblivious (ServiceState.withDeferred d) :=
  (obliviousClosure _).bind (oblivious_await (fun _ => rfl) fun _ => rfl) fun _ =>
    (obliviousClosure _).ensuring ha (oblivious_update fun _ => rfl)

theorem oblivious_withStructuralLock {a : ServiceAction S C α}
    (ha : a.program.IsOblivious (ServiceState.withDeferred d)) :
    (withStructuralLock a).program.IsOblivious (ServiceState.withDeferred d) :=
  (obliviousClosure _).bind (oblivious_update fun _ => rfl) fun _ =>
    (obliviousClosure _).bind (oblivious_await (fun _ => rfl) fun _ => rfl) fun _ =>
      (obliviousClosure _).ensuring ha (oblivious_update fun _ => rfl)

theorem oblivious_withMark (mark : WriteMark) {a : ServiceAction S C α}
    (ha : a.program.IsOblivious (ServiceState.withDeferred d)) :
    (withMark mark a).program.IsOblivious (ServiceState.withDeferred d) :=
  (obliviousClosure _).bind (oblivious_await (fun _ => rfl) fun _ => rfl) fun _ =>
    (obliviousClosure _).ensuring ha (oblivious_update fun _ => rfl)

theorem oblivious_note (event : Event) :
    (note event : ServiceAction S C Unit).program.IsOblivious (ServiceState.withDeferred d) :=
  oblivious_update fun _ => rfl

theorem oblivious_applyUpdate (horacle : env.oracle = .registry) (hhandle : env.handle.IsWorldly)
    (origin : Origin) (update : PreparedUpdate U) :
    (env.applyUpdate origin update).program.IsOblivious (ServiceState.withDeferred d) :=
  (obliviousCalls horacle d).mem_applyUpdate (oblivious_note _) (fun _ => oblivious_note _)
    (hhandle.apply update).oblivious

/-- An operation does the same whatever is left to the workers. -/
theorem oblivious_execute (horacle : env.oracle = .registry) (hhandle : env.handle.IsWorldly)
    (op : Operation) : (env.execute op).program.IsOblivious (ServiceState.withDeferred d) := by
  have hP := obliviousCalls horacle d
  have hrun : ∀ update, (env.runUpdateUnless .operation update env.isGated).program.IsOblivious
      (ServiceState.withDeferred d) := fun update =>
    hP.mem_runUpdateUnless (oblivious_withIndexLock update.index)
      (oblivious_applyUpdate horacle hhandle .operation update)
  have hset : (env.setState op).program.IsOblivious (ServiceState.withDeferred d) := by
    refine oblivious_withReadLock ?_
    cases op.task with
    | removal => exact (hhandle.setUnindexed op.index op.input).oblivious
    | update content => exact (hhandle.setIndexed op.index op.input).oblivious
  exact hP.mem_execute (fun _ => oblivious_note _) (oblivious_withMark op.mark
    (hP.mem_executeMarked
      (hP.mem_attempt (hhandle.prepare op.index op.input _).oblivious hrun hset)))

/-- So do the operations for a file. -/
theorem oblivious_applyNow (horacle : env.oracle = .registry) (hhandle : env.handle.IsWorldly)
    (application : FileApplication) :
    (env.applyNow application).program.IsOblivious (ServiceState.withDeferred d) := by
  exact (obliviousClosure _).mem_applyNow (oblivious_execute horacle hhandle)
    (fun _ _ => oblivious_update fun _ => rfl) application

/-- So do requests of rebuilds. -/
theorem oblivious_request (horacle : env.oracle = .registry) (index : IndexId)
    (cause : RebuildCause) :
    (env.oracle.request index cause).program.IsOblivious (ServiceState.withDeferred d) :=
  (obliviousCalls horacle d).request index cause

/-- So does putting a file back. -/
theorem oblivious_indexFile (horacle : env.oracle = .registry) (hhandle : env.handle.IsWorldly)
    (index : IndexId) (input : InputId) (content : FileContent) :
    (env.indexFile index input content).program.IsOblivious (ServiceState.withDeferred d) := by
  have hP := obliviousCalls horacle d
  exact hP.mem_indexFile (fun _ => oblivious_note _) (oblivious_withMark _
    (hP.mem_indexMarked (hhandle.prepare index input _).oblivious
      (fun update => oblivious_withIndexLock update.index
        (oblivious_applyUpdate horacle hhandle .rebuild update))
      (oblivious_withReadLock (hhandle.setIndexed index input).oblivious)))

/-- And so does a rebuild whose files are put back without looking at that. -/
theorem oblivious_rebuildIndex (horacle : env.oracle = .registry) {index : IndexId}
    (hclear : (env.handle.clear index).program.IsWorldly) {repopulate : ServiceAction S C Unit}
    (hrepopulate : repopulate.program.IsOblivious (ServiceState.withDeferred d)) :
    (env.rebuildIndex index repopulate).program.IsOblivious (ServiceState.withDeferred d) := by
  have hP := obliviousCalls horacle d
  have hclaim : (env.claimAndClear index).program.IsOblivious (ServiceState.withDeferred d) :=
    hP.mem_claimAndClear (oblivious_withIndexLock index)
      (hP.mem_start horacle (oblivious_access (fun _ => rfl) fun s =>
        s.withDeferred_moveRegistry index _))
      (oblivious_access (fun _ => rfl) fun _ => rfl)
      (oblivious_withStructuralLock
        (hP.mem_clearIndex (oblivious_note _) (fun _ => oblivious_note _) hclear.oblivious))
  exact hP.mem_rebuildIndex hclaim
    (hP.mem_finish horacle
      (oblivious_access (fun _ => rfl) fun s => s.withDeferred_endRebuild index))
    (fun _ _ => oblivious_note _) hrepopulate

end Operations

end FileIndexing
