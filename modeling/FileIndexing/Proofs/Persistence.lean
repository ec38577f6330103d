import FileIndexing.Proofs.Aftermath
import FileIndexing.Proofs.Containment
import Mathlib.Logic.Relation

/-!
# How long a gate stays closed

Once an operation has reported damage to storage, operations on the same index are skipped until a
rebuild of the index completes, whatever else the program does that uses the service: rebuilds that
fail, are overtaken by requests or end in a panic do not open the gate, and neither does what is
done inside of them.

* `Program.Leads` says that a program, run alone, comes to what is left of it in a later state.
* `Uses` are the programs that use a service and end rebuilds only by `Environment.rebuildIndex`;
  `uses_execute` and `uses_runAll` say that the calls of a service are such programs.
* `GateMove` says what they may do to the gate of one index: while a program is `calm` it does not
  open the gate, and whoever opens it is `closing` until the rebuild is noted as completed.
  `ShutSince` is what every such access preserves.
* `execute_leaves_corrupted` and `run_execute_gated` are about the two operations.
* `gate_persists` is the result.
-/

namespace FileIndexing

open FileIndexing.Action Service

/-! ## Programs on their way -/

namespace Program

variable {σ α L : Type}

/-- Run alone, a program comes to another one, which is left of it, and to a later state. -/
def Leads (p : Program σ α) (s : σ) (q : Program σ α) (t : σ) : Prop :=
  Relation.ReflTransGen (fun a b : Program σ α × σ => Step a.1 a.2 b.1 b.2) (p, s) (q, t)

/-- A program that is followed by another one leads to it, once it has come to its end. -/
theorem leads_of_run {β : Type} {p : Program σ β} {s t : σ} {b : β} (h : p.run s = some (b, t))
    (k : β → Program σ α) : (p.bind k).Leads s (k b) t := by
  induction p generalizing s with
  | done a =>
    obtain ⟨rfl, rfl⟩ := Prod.mk.inj (Option.some.inj h)
    exact .refl
  | step ready act next ih =>
    rw [run] at h
    split at h
    · next hready =>
      have hstep : Step ((Program.step ready act next).bind k) s ((next s).bind k) (act s) :=
        .step ready act _ s hready
      exact Relation.ReflTransGen.head hstep (ih s h)
    · cases h

/-- What a program that keeps to a protocol comes to keeps to it as well, and what the moves of the
protocol preserve holds then. -/
theorem Obeys.leads {move : L → σ → L → σ → Prop} {post : α → L → Prop} (inv : L → σ → Prop)
    (hmove : ∀ l s l' t, inv l s → move l s l' t → inv l' t) {p q : Program σ α} {s t : σ} {l : L}
    (hp : p.Obeys move post l) (hs : inv l s) (h : p.Leads s q t) :
    ∃ l', q.Obeys move post l' ∧ inv l' t := by
  suffices hpairs : ∀ b : Program σ α × σ, Relation.ReflTransGen (fun a b => Step a.1 a.2 b.1 b.2)
      (p, s) b → ∃ l', b.1.Obeys move post l' ∧ inv l' b.2 from hpairs (q, t) h
  intro b hpath
  induction hpath with
  | refl => exact ⟨l, hp, hs⟩
  | tail _ hstep ih =>
    obtain ⟨l', hobeys, hinv⟩ := ih
    obtain ⟨l'', hmoved, hobeys'⟩ := hobeys.step hstep
    exact ⟨l'', hobeys', hmove _ _ _ _ hinv hmoved⟩

end Program

/-! ## What may be done to a gate -/

namespace ServiceState

variable {S C : Type} {index : IndexId} {s t u : ServiceState S C}

/-- An access that adds to the journal at most, and does not open the gate of an index. -/
structure KeepsShut (index : IndexId) (s t : ServiceState S C) : Prop where
  journal : s.journal <:+ t.journal
  shut : t.registry.state index = .ok → s.registry.state index = .ok

theorem KeepsShut.of_eq (hjournal : t.journal = s.journal) (hregistry : t.registry = s.registry) :
    s.KeepsShut index t :=
  ⟨hjournal ▸ List.suffix_rfl, by rw [hregistry]; exact id⟩

theorem KeepsShut.note (s : ServiceState S C) (event : Event) : s.KeepsShut index (s.note event) :=
  ⟨List.suffix_cons _ _, id⟩

/-- What moves the state of an index keeps the gate shut if it does not move it to that of a
consistent index. -/
theorem KeepsShut.moveRegistry (s : ServiceState S C) (other : IndexId) {registry : RebuildRegistry}
    (hshut : registry.state index = .ok → s.registry.state index = .ok) :
    s.KeepsShut index (s.moveRegistry other registry) :=
  ⟨suffix_moveRegistry s other registry, by rwa [registry_moveRegistry]⟩

/-- The end of a rebuild keeps the gate shut, unless it is the running one of that index. -/
theorem KeepsShut.endRebuild (s : ServiceState S C) {other : IndexId}
    (h : ¬(other = index ∧ s.registry.state other = .running)) :
    s.KeepsShut index (s.endRebuild other) :=
  ⟨suffix_endRebuild s other, by
    rw [registry_endRebuild, RebuildRegistry.state_markFinished, if_neg h]; exact id⟩

/-- What spares an index keeps its gate shut. -/
theorem Spares.keepsShut (h : s.Spares index t) : s.KeepsShut index t := by
  obtain ⟨events, hjournal, hstate⟩ := h
  refine ⟨⟨events, hjournal.symm⟩, fun hok => ?_⟩
  rw [hok] at hstate
  split at hstate
  · cases hstate
  · exact hstate.symm

/-- What spares an index leaves it scheduled. -/
theorem Spares.required (h : s.Spares index t) (hrequired : s.registry.state index = .required) :
    t.registry.state index = .required := by
  obtain ⟨events, -, hstate⟩ := h
  rw [hstate]
  split
  · rfl
  · exact hrequired

/-- The state after an operation that was skipped at once: one more operation is counted as
skipped, which is written to the log, and nothing else is done. -/
def skip (s : ServiceState S C) (op : Operation) : ServiceState S C :=
  { s with
    counters := s.counters.recordGated
    journal := .executed op .gated :: .logged (.skipped op) :: s.journal }

end ServiceState

open ServiceState

/-- Where a program stands with the gate of an index. -/
inductive GatePlace where
  /-- It does not open the gate by its next access. -/
  | calm
  /-- It has opened the gate and has yet to note that the rebuild is complete. -/
  | closing

/-- Where a program stands when a rebuild has come to its end, before that is noted. -/
def GatePlace.after : Except Failure RebuildRun → GatePlace
  | .ok .completed => .closing
  | _ => .calm

/-- What a program may do to the gate of an index by one access. -/
inductive GateMove {S C : Type} (index : IndexId) :
    GatePlace → ServiceState S C → GatePlace → ServiceState S C → Prop where
  | keep {s t : ServiceState S C} : s.KeepsShut index t → GateMove index .calm s .calm t
  /-- Ends a rebuild of the index. -/
  | finish (s : ServiceState S C) : GateMove index .calm s .closing (s.endRebuild index)
  /-- Writes to the log that the rebuild is finished. -/
  | log (s : ServiceState S C) (record : LogRecord) :
      GateMove index .closing s .closing (s.note (.logged record))
  /-- Notes that the rebuild is complete. -/
  | complete (s : ServiceState S C) (run : Nat) :
      GateMove index .closing s .calm (s.note (.rebuildEnded index run (some .completed)))

/-- What is known of the gate of an index since a state in which it was shut: whenever it is open
and nobody is closing, a run on the index has completed since. -/
structure ShutSince {S C : Type} (index : IndexId) (t : ServiceState S C) (place : GatePlace)
    (s : ServiceState S C) : Prop where
  journal : t.journal <:+ s.journal
  reopened : place = .calm → s.registry.state index = .ok →
    ∃ event ∈ t.eventsUntil s, event.returns? index = some .completed

/-- Every access keeps what is known of the gate. -/
theorem ShutSince.step {S C : Type} {index : IndexId} {t s s' : ServiceState S C}
    {place place' : GatePlace} (h : ShutSince index t place s)
    (hmove : GateMove index place s place' s') : ShutSince index t place' s' := by
  cases hmove with
  | keep hkeeps =>
    refine ⟨h.journal.trans hkeeps.journal, fun _ hok => ?_⟩
    obtain ⟨event, hevent, hreturns⟩ := h.reopened rfl (hkeeps.shut hok)
    exact ⟨event, mem_eventsUntil_of_suffix h.journal hkeeps.journal hevent, hreturns⟩
  | finish => exact ⟨h.journal.trans (suffix_endRebuild s index), nofun⟩
  | log => exact ⟨h.journal.trans (List.suffix_cons _ _), nofun⟩
  | complete _ run =>
    obtain ⟨events, hjournal⟩ := h.journal
    refine ⟨⟨.rebuildEnded index run (some .completed) :: events, by simp [hjournal]⟩,
      fun _ _ => ⟨.rebuildEnded index run (some .completed), ?_, by simp [Event.returns?]⟩⟩
    rw [eventsUntil_of_journal (.rebuildEnded index run (some .completed) :: events)
      (by simp [hjournal])]
    exact List.mem_cons_self

/-- Whoever is closing adds to the journal by the next access. -/
theorem GateMove.journal_ne {S C : Type} {index : IndexId} {s s' : ServiceState S C}
    {place : GatePlace} (h : GateMove index .closing s place s') : s'.journal ≠ s.journal := by
  cases h <;> exact List.cons_ne_self _ _

section Uses

variable {S U C : Type}

/-- The programs that use a service, and that make no index consistent but by rebuilding it. -/
inductive Uses (env : Environment S U C) : ∀ {α : Type}, ServiceAction S C α → Prop where
  | every {α : Type} {a : ServiceAction S C α} :
      (∀ index, a.program.Every (KeepsShut index)) → Uses env a
  | bind {α β : Type} {a : ServiceAction S C α} {k : α → ServiceAction S C β} :
      Uses env a → (∀ v, Uses env (k v)) → Uses env (a >>= k)
  | outcome {α : Type} {a : ServiceAction S C α} : Uses env a → Uses env a.outcome
  | rebuildIndex (index : IndexId) {repopulate : ServiceAction S C Unit} :
      Uses env (env.handle.clear index) → Uses env repopulate →
      Uses env (env.rebuildIndex index repopulate)

variable {env : Environment S U C} {index : IndexId}

theorem gateQuietClass (horacle : env.oracle = .registry) (index : IndexId) :
    QuietClass env (KeepsShut index) fun {_} a => a.Neutral (GateMove index) .calm where
  toActionClass := .ofNeutral fun _ _ h => .keep h
  still _ _ h := (h.discreet.spares index).keepsShut
  request s other := (Discreet.spares (.request s other) index).keepsShut
  oracle := horacle

/-- A claim opens no gate. -/
theorem gateNeutral_claimAndClear (horacle : env.oracle = .registry) (other : IndexId)
    (hclear : (env.handle.clear other).Neutral (GateMove index) .calm) :
    (env.claimAndClear other).Neutral (GateMove index) .calm := by
  have hP := gateQuietClass horacle index
  have hnote : ∀ event, (note event : ServiceAction S C Unit).Neutral (GateMove index) .calm :=
    fun event => hP.update fun s => .note s event
  have hstart : (env.oracle.start other).Neutral (GateMove index) .calm := by
    refine hP.mem_start (hP.access fun s => .moveRegistry s other ?_)
    rw [RebuildRegistry.state_markRunning]
    split
    · nofun
    · exact id
  have hnumber : (Environment.numberRun other : ServiceAction S C Nat).Neutral (GateMove index)
      .calm := hP.access fun s => ⟨List.suffix_cons _ _, id⟩
  exact hP.calls.mem_claimAndClear (hP.mem_withIndexLock (fun _ _ => .of_eq rfl rfl) other)
    hstart hnumber
    (hP.mem_withStructuralLock (fun _ _ => .of_eq rfl rfl)
      (hP.calls.mem_clearIndex (hnote _) (fun _ => hnote _) hclear))

/-- The end of a rebuild opens the gate of its index only if it completes. -/
theorem obeys_concludeRebuild (horacle : env.oracle = .registry) (filled : Except Error Unit) :
    (env.concludeRebuild index filled).program.Obeys (GateMove index) (fun r l => l = .after r)
      .calm := by
  have hP := gateQuietClass horacle index
  rcases filled with cause | _
  · exact Neutral.obeys_bind (hP.calls.mem_requestRebuildOnError cause index)
      (fun _ => obeys_fail rfl) fun _ => rfl
  · refine obeys_access_bind fun s => ⟨.calm, .keep (.of_eq rfl rfl), ?_⟩
    have hfinish : (env.oracle.finish index).program.Obeys (GateMove index)
        (fun r l => ∃ finished, r = .ok finished ∧ l = if finished then .closing else .calm)
        .calm := by
      rw [horacle]
      refine obeys_access_bind fun s => ?_
      cases hcan : s.registry.canFinish index with
      | true =>
        exact ⟨.closing, .finish s, obeys_access_bind fun t => ⟨.closing, .log t _,
          obeys_pure ⟨true, rfl, rfl⟩⟩⟩
      | false =>
        have hother : ¬(index = index ∧ s.registry.state index = .running) := by
          simpa [RebuildRegistry.canFinish] using hcan
        exact ⟨.calm, .keep (.endRebuild s hother), obeys_access_bind fun t =>
          ⟨.calm, .keep (.note t _), obeys_pure ⟨false, rfl, rfl⟩⟩⟩
    refine obeys_bind_ok _ hfinish ?_
    rintro finished _ rfl
    cases finished <;> exact obeys_pure rfl

/-- Rebuilding an index leaves a program calm. -/
theorem gateNeutral_rebuildIndex (horacle : env.oracle = .registry) (other : IndexId)
    {repopulate : ServiceAction S C Unit}
    (hclear : (env.handle.clear other).Neutral (GateMove index) .calm)
    (hrepopulate : repopulate.Neutral (GateMove index) .calm) :
    (env.rebuildIndex other repopulate).Neutral (GateMove index) .calm := by
  have hP := gateQuietClass horacle index
  have hclaim := gateNeutral_claimAndClear horacle other hclear
  by_cases hother : other = index
  · subst hother
    refine hP.bind (hP.calls.registered other) fun registered => ?_
    split
    · exact hP.raise _
    · refine hP.bind hclaim ?_
      rintro (_ | ⟨run, cleared⟩)
      · exact hP.pure _
      · -- Whoever completed the rebuild is still closing when the end of the run is noted.
        refine obeys_outcome_bind (fun r l => l = .after r) ?_ ?_
        · have hfilled := hP.calls.result (hP.bind (hP.resume cleared) fun _ => hrepopulate)
          exact Neutral.obeys_bind hfilled (obeys_concludeRebuild horacle) fun _ => rfl
        · rintro r _ rfl
          refine obeys_access_bind fun s => ⟨.calm, ?_, obeys_resume rfl⟩
          match r with
          | .ok .completed => exact .complete s run
          | .ok .notScheduled | .ok .rescheduled | .error _ => exact .keep (.note s _)
  · exact hP.calls.mem_rebuildIndex hclaim
      (hP.mem_finish (hP.access fun s => .endRebuild s fun h => hother h.1))
      (fun run answer => hP.update fun s => .note s _) hrepopulate

/-- The programs that use a service are calm before they start and after they have ended. -/
theorem Uses.neutral (horacle : env.oracle = .registry) {α : Type} {a : ServiceAction S C α}
    (h : Uses env a) (index : IndexId) : a.Neutral (GateMove index) .calm := by
  have hP := gateQuietClass horacle index
  induction h with
  | every ha => exact hP.every (ha index)
  | bind _ _ iha ihk => exact hP.bind iha ihk
  | outcome _ iha => exact hP.outcome iha
  | rebuildIndex other _ _ ihclear ihrepopulate =>
    exact gateNeutral_rebuildIndex horacle other ihclear ihrepopulate

theorem usesActionClass :
    ActionClass (fun s t : ServiceState S C => ∀ index, s.KeepsShut index t)
      fun {_} a => Uses env a where
  every h := .every fun index => h.mono fun _ _ hkeeps => hkeeps index
  bind := .bind
  outcome := .outcome

theorem usesClass (horacle : env.oracle = .registry) (hhandle : env.handle.IsDiscreet) :
    ServiceClass env (fun s t => ∀ index, s.KeepsShut index t) fun {_} a => Uses env a :=
  .of_discreet usesActionClass (fun _ _ h index => (h.spares index).keepsShut) horacle hhandle

theorem uses_withIndexLock {α : Type} (index : IndexId) {a : ServiceAction S C α}
    (ha : Uses env a) : Uses env (withIndexLock index a) :=
  usesActionClass.mem_withIndexLock (fun _ _ _ => .of_eq rfl rfl) index ha

theorem uses_applyUpdate (horacle : env.oracle = .registry) (hhandle : env.handle.IsDiscreet)
    (origin : Origin) (update : PreparedUpdate U) : Uses env (env.applyUpdate origin update) := by
  have hP := usesClass horacle hhandle
  have hnote : ∀ event, Uses env (note event) := fun event => hP.update fun s _ => .note s event
  exact hP.calls.mem_applyUpdate (hnote _) (fun _ => hnote _)
    (hP.mem_of_discreet (hhandle.apply update))

theorem uses_execute (horacle : env.oracle = .registry) (hhandle : env.handle.IsDiscreet)
    (op : Operation) : Uses env (env.execute op) := by
  have hP := usesClass horacle hhandle
  exact hP.work.mem_execute (fun update => hP.calls.mem_runUpdateUnless (uses_withIndexLock _)
    (uses_applyUpdate horacle hhandle .operation update)) op

theorem uses_rebuildIndex (horacle : env.oracle = .registry) (hhandle : env.handle.IsDiscreet)
    (index : IndexId) {repopulate : ServiceAction S C Unit} (hrepopulate : Uses env repopulate) :
    Uses env (env.rebuildIndex index repopulate) :=
  .rebuildIndex index ((usesClass horacle hhandle).mem_of_discreet (hhandle.clear index))
    hrepopulate

/-- Whatever commands ask of a service, whatever is rebuilt inside of a rebuild, they only use
it. -/
theorem uses_runAll (horacle : env.oracle = .registry) (hhandle : env.handle.IsDiscreet)
    (session : Option IndexId) (commands : List Command) :
    Uses env (Command.runAll env session commands) := by
  have hP := usesClass horacle hhandle
  have hclass : CommandClass env (fun _ => True) (fun s t => ∀ index, s.KeepsShut index t)
      fun {_} a => Uses env a := {
    hP.toActionClass with
    still := hP.still
    execute := uses_execute horacle hhandle
    request := hP.calls.request
    rebuild := fun index _ _ => uses_rebuildIndex horacle hhandle index
    indexFile := hP.work.mem_indexFile fun update =>
      uses_withIndexLock update.index (uses_applyUpdate horacle hhandle .rebuild update)
    indexingState := hP.work.mem_indexingState }
  exact hclass.mem_runAll session commands (Command.rebuildsOnlyAll_of_forall (fun _ => trivial) _)

end Uses

/-! ## The two operations -/

section Operations

variable {env : Environment S U C} {op : Operation}

/-- The part of an operation whose failures count as damage never answers that storage is
damaged. -/
theorem attempt_leaves (s : ServiceState S C) :
    (env.attempt op).Leaves s fun r _ => ∀ cause, r ≠ .ok (.storageCorrupted cause) := by
  have hset : ∀ changed u, (do env.setState op; pure (.applied changed) :
      ServiceAction S C Outcome).Leaves u fun r _ => ∀ cause, r ≠ .ok (.storageCorrupted cause) :=
    fun _ _ => leaves_bind_of_forall (fun _ _ => leaves_pure (by simp)) (by simp)
  refine leaves_bind_of_forall ?_ (by simp)
  rintro (cause | update) t
  · cases cause with
    | mapping failure => exact leaves_bind_of_forall (fun _ _ => leaves_pure (by simp)) (by simp)
    | _ => exact leaves_fail (by simp)
  · refine leaves_bind_of_forall ?_ (by simp)
    rintro (_ | changed) u
    · exact leaves_bind_of_forall (fun _ _ => leaves_pure (by simp)) (by simp)
    · dsimp only
      split
      · split
        · exact leaves_bind_of_forall (fun _ _ => hset _ _) (by simp)
        · exact hset _ _
      · exact leaves_pure (by simp)

/-- An operation answers what is counted as its outcome. -/
theorem recorded_leaves (outcome : Outcome) (s : ServiceState S C) :
    (recorded outcome).Leaves s fun r _ => ∀ other, r = .ok other → other = outcome :=
  leaves_bind_of_forall (fun _ _ => leaves_pure fun _ h => (Except.ok.inj h).symm) (by simp)

/-- Recording an outcome leaves a scheduled index scheduled. -/
theorem recorded_leaves_required (horacle : env.oracle = .registry) {index : IndexId}
    (outcome : Outcome) {s : ServiceState S C} (hrequired : s.registry.state index = .required) :
    (recorded outcome).Leaves s fun _ t => t.registry.state index = .required := by
  have hspares : (recorded outcome : ServiceAction S C Outcome).program.Every (Spares index) :=
    (spareQuietClass horacle index).calls.mem_recorded outcome
  exact (leaves_of_every (Spares.refl index) (fun _ _ _ => Spares.trans) hspares).mono
    fun _ _ h => h.required hrequired

/-- An operation that ends with damage to storage leaves its index scheduled. -/
theorem undertake_leaves_corrupted (horacle : env.oracle = .registry) (s : ServiceState S C) :
    (env.undertake op).Leaves s fun r t => ∀ cause, r = .ok (.storageCorrupted cause) →
      t.registry.state op.index = .required := by
  have hother : ∀ outcome, (∀ cause, outcome ≠ .storageCorrupted cause) → ∀ u : ServiceState S C,
      (recorded outcome).Leaves u fun r t => ∀ cause, r = .ok (.storageCorrupted cause) →
        t.registry.state op.index = .required := by
    intro outcome hne u
    exact (recorded_leaves outcome u).mono fun r t h cause hr => absurd (h _ hr).symm (hne cause)
  have hmarked : ∀ u, (env.executeMarked op).Leaves u fun r t =>
      ∀ cause, r = .ok (.storageCorrupted cause) → t.registry.state op.index = .required := by
    intro u
    refine leaves_bind (fun r _ => ∀ outcome, r = .ok (.ok outcome) →
      ∀ cause, outcome ≠ .storageCorrupted cause) (leaves_caught ?_) ?_ (by simp)
    · refine (attempt_leaves u).mono ?_
      rintro (failure | outcome) v h other hother
      · cases hother
      · obtain rfl := Except.ok.inj (Except.ok.inj hother)
        exact fun cause hcorrupted => h cause (by rw [hcorrupted])
    · rintro (cause | outcome) v h
      · refine leaves_bind _ (requestRebuildOnError_leaves horacle cause) ?_ (by simp)
        exact fun _ w hend => (recorded_leaves_required horacle _ hend.2).mono
          fun _ _ hrequired _ _ => hrequired
      · exact hother outcome (h outcome rfl) v
  refine leaves_bind_of_forall (fun gated u => ?_) (by simp)
  split
  · exact leaves_bind_of_forall (fun _ => hother _ (by simp)) (by simp)
  · refine leaves_bind_of_forall (fun registered v => ?_) (by simp)
    split
    · exact leaves_bind_of_forall (fun _ => hother _ (by simp)) (by simp)
    · refine leaves_bind_of_forall (fun _ v => leaves_bind_of_forall (fun _ w => ?_) (by simp))
        (by simp)
      exact leaves_await_bind fun _ => leaves_ensuring (hmarked _)

/-- An operation that answers that storage is damaged leaves its index scheduled. -/
theorem execute_leaves_corrupted (horacle : env.oracle = .registry) (s : ServiceState S C) :
    (env.execute op).Leaves s fun r t => ∀ cause, r = .ok (.storageCorrupted cause) →
      t.registry.state op.index = .required := by
  refine leaves_bind _ (undertake_leaves_corrupted horacle s) (fun outcome t h => ?_) (by simp)
  refine leaves_access_bind (leaves_pure fun cause hr => ?_)
  exact h cause (congrArg Except.ok (Except.ok.inj hr))

/-- An operation on an index that is not consistent is skipped, and the handle is not asked. -/
theorem run_execute_gated (env : Environment S U C) (horacle : env.oracle = .registry)
    (htest : env.config.testMode = false) {s : ServiceState S C}
    (hstate : s.registry.state op.index ≠ .ok) :
    (env.execute op).run s = some (.ok .gated, s.skip op) := by
  rw [Environment.execute, Environment.undertake, Environment.isGated_of_registry horacle htest,
    bind_assoc, bind_assoc, run_bind, run_read]
  simp only [Option.bind_some, pure_bind, hstate, decide_false, Bool.not_false, if_true]
  rfl

/-- The first thing that an operation does is to look at the state of its index. -/
theorem program_execute (horacle : env.oracle = .registry) (htest : env.config.testMode = false)
    (op : Operation) :
    ∃ next, (env.execute op).program = .step (fun _ => true) (fun s => s) next := by
  rw [Environment.execute, Environment.undertake, Environment.isGated_of_registry horacle htest,
    bind_assoc, bind_assoc]
  exact ⟨_, rfl⟩

end Operations

/-! ## The result -/

section Persistence

variable {α : Type} {env : Environment S U C}

/-- Once an operation has answered that storage is damaged, every later operation on the same index
is skipped until a rebuild of the index completes, wherever the two stand in a program that uses the
service.  The operation counts as skipped and does nothing else, for any handle. -/
theorem gate_persists (horacle : env.oracle = .registry) (htest : env.config.testMode = false)
    {p : ServiceAction S C α} (hp : Uses env p) {failing later : Operation} {cause : Error}
    (hindex : later.index = failing.index) {s u t v : ServiceState S C}
    {k k' : Except Failure Outcome → Program (ServiceState S C) (Except Failure α)}
    (hbefore : p.program.Leads s ((env.execute failing).program.bind k) u)
    (hfailed : (env.execute failing).run u = some (.ok (.storageCorrupted cause), t))
    (hafter : (k (.ok (.storageCorrupted cause))).Leads t ((env.execute later).program.bind k') v)
    (hincomplete : ∀ event ∈ t.eventsUntil v, event.returns? failing.index ≠ some .completed)
    (handle : Handle S U C) :
    (({ env with handle } : Environment S U C).execute later).run v =
      some (.ok .gated, v.skip later) := by
  -- Where the program stands when the failure has been answered does not matter.
  obtain ⟨place, hobeys, -⟩ := (hp.neutral horacle failing.index).leads (fun _ _ => True)
    (fun _ _ _ _ _ _ => trivial) trivial (hbefore.trans (Program.leads_of_run hfailed k))
  have hrequired : t.registry.state failing.index = .required :=
    execute_leaves_corrupted horacle u _ t hfailed cause rfl
  obtain ⟨place', hobeys', hsince⟩ := hobeys.leads (ShutSince failing.index t)
    (fun _ _ _ _ h => h.step) ⟨List.suffix_rfl, by simp [hrequired]⟩ hafter
  refine run_execute_gated { env with handle } horacle htest fun hok => ?_
  rw [hindex] at hok
  have hcalm : place' = .calm := by
    cases place' with
    | calm => rfl
    | closing =>
      obtain ⟨next, hnext⟩ := program_execute horacle htest later
      rw [hnext] at hobeys'
      obtain ⟨_, hmove, -⟩ := hobeys' v rfl
      exact absurd rfl hmove.journal_ne
  obtain ⟨event, hevent, hcompleted⟩ := hsince.reopened hcalm hok
  exact hincomplete event hevent hcompleted

end Persistence

namespace Sample

/-- An update by a file that cannot be stored, and one by a file that can. -/
def unstorable : Operation := .update sizes (content 3) ⟨1⟩ .synchronous
def storable : Operation := .update sizes (content 5) ⟨2⟩ .synchronous

/-- A rebuild that fails with the file that cannot be stored. -/
def futile : ServiceAction (MemoryIndex Nat Nat) Unit RebuildRun :=
  fragility.rebuildIndex sizes
    (Command.runAll fragility (some sizes) [.indexFile ⟨1⟩ (content 3) true])

/-- The one update, the rebuild and the other update. -/
def stubborn : ServiceAction (MemoryIndex Nat Nat) Unit Outcome := do
  let _ ← fragility.execute unstorable
  let _ ← futile.result
  fragility.execute storable

end Sample

/-- The rebuild fails as the first update did, so that the second one is skipped. -/
theorem gate_persists_stubborn : ∃ t v,
    (Sample.fragility.execute Sample.unstorable).run Sample.state =
        some (.ok (.storageCorrupted (.storage "disk full")), t) ∧
      Sample.futile.result.run t = some (.ok (.error (.storage "disk full")), v) ∧
      (Sample.fragility.execute Sample.storable).run v =
        some (.ok .gated, v.skip Sample.storable) := by
  have hruns : ((Sample.fragility.execute Sample.unstorable).run Sample.state).bind (fun x =>
      (Sample.futile.result.run x.2).map fun y => (x.1, y.1, (x.2.eventsUntil y.2).all fun event =>
        event.returns? Sample.unstorable.index ≠ some .completed)) =
      some (.ok (.storageCorrupted (.storage "disk full")),
        .ok (.error (.storage "disk full")), true) := rfl
  obtain ⟨⟨_, t⟩, hfailed, hrest⟩ := Option.bind_eq_some_iff.1 hruns
  obtain ⟨⟨_, v⟩, hrebuilt, heq⟩ := Option.map_eq_some_iff.1 hrest
  simp only [Prod.mk.injEq] at heq
  obtain ⟨rfl, rfl, hincomplete⟩ := heq
  have hdiscreet : Sample.fragility.handle.IsDiscreet := Handle.isDiscreet_ofStores _
  have hfutile : Uses Sample.fragility Sample.futile :=
    uses_rebuildIndex rfl hdiscreet _ (uses_runAll rfl hdiscreet _ _)
  have hstubborn : Uses Sample.fragility Sample.stubborn :=
    .bind (uses_execute rfl hdiscreet _) fun _ =>
      .bind (usesActionClass.closure.result hfutile) fun _ => uses_execute rfl hdiscreet _
  have hafter : (do let _ ← Sample.futile.result; Sample.fragility.execute Sample.storable :
      ServiceAction _ _ Outcome).program.Leads t
        ((Sample.fragility.execute Sample.storable).program.bind .done) v := by
    rw [Program.bind_done]
    exact Program.leads_of_run hrebuilt _
  have hindex : Sample.storable.index = Sample.unstorable.index := rfl
  exact ⟨t, v, hfailed, hrebuilt, gate_persists rfl rfl hstubborn hindex .refl hfailed hafter
    (by simpa using hincomplete) Sample.fragility.handle⟩

end FileIndexing
