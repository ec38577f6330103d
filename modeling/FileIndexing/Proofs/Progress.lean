import FileIndexing.Proofs.Exclusion
import FileIndexing.Proofs.Trace
import Mathlib.Logic.Hydra

/-!
# Threads do not wait for each other for ever

The threads of a service wait for three kinds of things: for the mark of an input in an index, for
the lock of an index, and for the coordination lock, to share it or to hold it alone.

* `Need` are the things that a thread may wait for, in the order of their ranks, and `Holding` are
  those that it may hold.  `Need.exists_blocker` says that a need that is not met is held back by
  something whose ceiling is not below the rank of the need.
* `Program.Attends` says of a program that it waits only for needs whose rank is above the ceiling
  of everything that it holds, and `Action.Patient` of an action that it may be done by whoever
  holds only things with low ceilings.  `patientCalls` says that all calls are patient, for handles
  and oracles that neither wait nor call the service (`Handle.IsBrisk`, `Oracle.IsBrisk`).
* `HoldingInvariant` says that whatever is held according to the state is held by some thread, and
  `HoldingInvariant.exists_step` that therefore some thread can go on: one whose need is of the
  highest rank.
* `Pool.wellFounded_step` says that no pool goes on for ever, and `Pool.Entangled` that some threads
  wait for each other, so that none of them can go on whatever the others do.
* `deadlock_free` is the result.
-/

namespace FileIndexing

open FileIndexing.Action Service ServiceState

/-! ## What threads hold and wait for -/

/-- What a thread may hold. -/
inductive Holding where
  | mark (pair : WriteMark)
  | lock (lock : Nat)
  /-- A place among those who wait to hold the coordination lock alone. -/
  | queued
  | sharing
  | alone
  deriving DecidableEq

/-- What a thread may wait for. -/
inductive Need where
  | mark (pair : WriteMark)
  | lock (lock : Nat)
  | share
  | hold

/-- The needs in the order in which a thread may come to wait for them. -/
def Need.rank : Need → Nat
  | .mark _ => 0
  | .lock _ => 1
  | .share => 2
  | .hold => 3

/-- Whoever holds a thing waits only for needs of ranks above its ceiling. -/
def Holding.ceiling : Holding → Nat
  | .mark _ => 0
  | .lock _ => 1
  | .queued => 2
  | .sharing | .alone => 3

section States

variable {S C : Type}

namespace ServiceState

/-- How often a thing is held according to the state of a service. -/
def amount (s : ServiceState S C) : Holding → Nat
  | .mark pair => s.marks.held.count pair
  | .lock lock => s.locks.held.count lock
  | .queued => s.coordination.waiting
  | .sharing => s.coordination.readers
  | .alone => s.coordination.writer.toNat

/-- Nobody holds anything. -/
def IsFree (s : ServiceState S C) : Prop := ∀ holding, s.amount holding = 0

theorem AtRest.isFree {s : ServiceState S C} (h : s.AtRest) : s.IsFree := by
  obtain ⟨writersFirst, hcoordination⟩ := h.coordination
  intro holding
  cases holding <;> simp [amount, h.marks, h.unheld, hcoordination, MarkTable.empty,
    Coordination.free]

/-- Whether a need is met. -/
def meets (s : ServiceState S C) : Need → Bool
  | .mark pair => !s.marks.isMarked pair
  | .lock lock => s.locks.isFree lock
  | .share => s.coordination.canShare
  | .hold => s.coordination.canHold

/-- The marks, the locks that are held and the coordination lock are the same. -/
structure SameHoldings (s t : ServiceState S C) : Prop where
  marks : t.marks = s.marks
  held : t.locks.held = s.locks.held
  coordination : t.coordination = s.coordination

theorem SameHoldings.amount_eq {s t : ServiceState S C} (h : s.SameHoldings t)
    (holding : Holding) : t.amount holding = s.amount holding := by
  cases holding <;> simp [amount, h.marks, h.held, h.coordination]

theorem SameHoldings.moveRegistry (s : ServiceState S C) (index : IndexId)
    (registry : RebuildRegistry) : s.SameHoldings (s.moveRegistry index registry) := by
  rw [ServiceState.moveRegistry]
  split <;> exact ⟨rfl, rfl, rfl⟩

theorem SameHoldings.endRebuild (s : ServiceState S C) (index : IndexId) :
    s.SameHoldings (s.endRebuild index) := by
  have hmoved := SameHoldings.moveRegistry s index (s.registry.markFinished index)
  unfold ServiceState.endRebuild
  split
  · exact hmoved
  · exact ⟨hmoved.marks, hmoved.held, hmoved.coordination⟩

end ServiceState

/-- What holds a need back is held by somebody who waits for needs of higher ranks at most. -/
theorem Need.exists_blocker {s : ServiceState S C} {need : Need} (h : s.meets need = false) :
    ∃ holding : Holding, 0 < s.amount holding ∧ need.rank ≤ holding.ceiling := by
  cases need with
  | mark pair =>
    refine ⟨.mark pair, List.count_pos_iff.2 ?_, Nat.le_refl _⟩
    simpa [meets, MarkTable.isMarked] using h
  | lock lock =>
    refine ⟨.lock lock, List.count_pos_iff.2 ?_, Nat.le_refl _⟩
    simpa [meets, IndexLocks.isFree] using h
  | share =>
    cases hwriter : s.coordination.writer with
    | true => exact ⟨.alone, by simp [amount, hwriter], by decide⟩
    | false =>
      refine ⟨.queued, ?_, by decide⟩
      simp [meets, Coordination.canShare, hwriter] at h
      exact Nat.pos_of_ne_zero h.1
  | hold =>
    cases hwriter : s.coordination.writer with
    | true => exact ⟨.alone, by simp [amount, hwriter], by decide⟩
    | false =>
      refine ⟨.sharing, ?_, by decide⟩
      simp [meets, Coordination.canHold, hwriter] at h
      exact Nat.pos_of_ne_zero h

/-- By one access a thread comes to hold other things, as the state tells.  What it gives back has
to be held according to the state before. -/
def HoldMove (l : List Holding) (s : ServiceState S C) (l' : List Holding) (t : ServiceState S C) :
    Prop :=
  ∀ holding, l.count holding ≤ s.amount holding →
    t.amount holding + l.count holding = s.amount holding + l'.count holding

theorem ServiceState.SameHoldings.holdMove {s t : ServiceState S C} (h : s.SameHoldings t)
    (l : List Holding) : HoldMove l s l t := fun holding _ => by rw [h.amount_eq]

theorem count_cons_holding (holding other : Holding) (l : List Holding) :
    (holding :: l).count other = l.count other + [holding].count other := by
  simp [List.count_cons]

theorem holdMove_take {s t : ServiceState S C} {holding : Holding}
    (h : ∀ other, t.amount other = s.amount other + [holding].count other) (l : List Holding) :
    HoldMove l s (holding :: l) t := fun other _ => by
  rw [h, count_cons_holding holding other l]
  omega

theorem holdMove_release {s t : ServiceState S C} {holding : Holding}
    (h : ∀ other, t.amount other = s.amount other - [holding].count other) (l : List Holding) :
    HoldMove (holding :: l) s l t := fun other hle => by
  rw [count_cons_holding holding other l] at hle ⊢
  rw [h]
  omega

end States

/-! ## Patience -/

section Patience

variable {S C α β : Type}

/-- A thread that holds some things waits, if at all, for needs of ranks above the ceilings of all
of them, and goes on as soon as the need is met.  What it holds changes as the state tells. -/
def Program.Attends (post : α → List Holding → Prop) :
    Program (ServiceState S C) α → List Holding → Prop
  | .done a, l => post a l
  | .step ready act next, l =>
    ((∀ s, ready s = true) ∨ ∃ need : Need, (∀ holding ∈ l, holding.ceiling < need.rank) ∧
      ∀ s, s.meets need = true → ready s = true) ∧
    ∀ s, ready s = true → ∃ l', HoldMove l s l' (act s) ∧ (next s).Attends post l'

namespace Program

variable {post : α → List Holding → Prop}

theorem Attends.step {p q : Program (ServiceState S C) α} {s t : ServiceState S C}
    {l : List Holding} (hp : p.Attends post l) (h : p.Step s q t) :
    ∃ l', HoldMove l s l' t ∧ q.Attends post l' := by
  cases h with
  | step ready act next s hready => exact hp.2 s hready

theorem Attends.bind {p : Program (ServiceState S C) α} {k : α → Program (ServiceState S C) β}
    {mid : α → List Holding → Prop} {post : β → List Holding → Prop} {l : List Holding}
    (h : p.Attends mid l) (hk : ∀ a l', mid a l' → (k a).Attends post l') :
    (p.bind k).Attends post l := by
  induction p generalizing l with
  | done a => exact hk _ _ h
  | step ready act next ih =>
    refine ⟨h.1, fun s hs => ?_⟩
    obtain ⟨l', hmove, hnext⟩ := h.2 s hs
    exact ⟨l', hmove, ih s hnext⟩

/-- Every access of a program can be made at once, and is of one kind. -/
def Prompt {σ : Type} (R : σ → σ → Prop) : Program σ α → Prop
  | .done _ => True
  | .step ready act next => ∀ s, ready s = true ∧ R s (act s) ∧ (next s).Prompt R

theorem Prompt.bind {σ : Type} {R : σ → σ → Prop} {p : Program σ α} {k : α → Program σ β}
    (h : p.Prompt R) (hk : ∀ a, (k a).Prompt R) : (p.bind k).Prompt R := by
  induction p with
  | done a => exact hk a
  | step ready act next ih => exact fun s => ⟨(h s).1, (h s).2.1, ih s (h s).2.2⟩

/-- A prompt program on a part of the state is prompt, and only ever replaces that part. -/
theorem prompt_focus {σ τ : Type} {R : τ → τ → Prop} {get : τ → σ} {set : τ → σ → τ}
    (hset : ∀ t s, R t (set t s)) {p : Program σ α} (h : p.Prompt fun _ _ => True) :
    (p.focus get set).Prompt R := by
  induction p with
  | done a => trivial
  | step ready act next ih =>
    intro t
    obtain ⟨hready, -, hnext⟩ := h (get t)
    exact ⟨hready, hset _ _, ih (get t) hnext⟩

end Program

namespace Action

/-- An action that may be done by whoever holds only things with ceilings below a rank.  However it
ends, it has given back what it has taken. -/
def Patient (rank : Nat) (a : ServiceAction S C α) : Prop :=
  ∀ l : List Holding, (∀ holding ∈ l, holding.ceiling < rank) →
    a.program.Attends (fun _ l' => l' = l) l

/-- What may be done by whoever holds things with high ceilings may be done by others, too. -/
theorem Patient.mono {rank rank' : Nat} {a : ServiceAction S C α} (h : a.Patient rank')
    (hle : rank ≤ rank') : a.Patient rank := fun l hl =>
  h l fun holding hmem => (hl holding hmem).trans_le hle

theorem attends_resume {post : Except Failure α → List Holding → Prop} {r : Except Failure α}
    {l : List Holding} (h : post r l) :
    (resume r : ServiceAction S C α).program.Attends post l := by
  cases r <;> exact h

theorem attends_bind {a : ServiceAction S C α} {k : α → ServiceAction S C β}
    {post : Except Failure β → List Holding → Prop} {l : List Holding}
    (ha : a.program.Attends (fun _ l' => l' = l) l) (hk : ∀ v, (k v).program.Attends post l)
    (hfail : ∀ failure, post (.error failure) l) : (a >>= k).program.Attends post l := by
  refine Program.Attends.bind ha ?_
  rintro (failure | v) _ rfl
  · exact hfail failure
  · exact hk v

theorem attends_outcome_bind {a : ServiceAction S C α}
    {k : Except Failure α → ServiceAction S C β} {post : Except Failure β → List Holding → Prop}
    {l : List Holding} (ha : a.program.Attends (fun _ l' => l' = l) l)
    (hk : ∀ r, (k r).program.Attends post l) : (a.outcome >>= k).program.Attends post l := by
  have houtcome : a.outcome.program.Attends
      (fun r l' => (∃ r', r = .ok r') ∧ l' = l) l :=
    Program.Attends.bind ha fun r _ hl => ⟨⟨r, rfl⟩, hl⟩
  refine Program.Attends.bind houtcome ?_
  rintro _ _ ⟨⟨r, rfl⟩, rfl⟩
  exact hk r

theorem patientClosure (rank : Nat) :
    ActionClosure fun {_} (a : ServiceAction S C _) => a.Patient rank where
  resume _ _ _ := attends_resume rfl
  bind ha hk l hl := attends_bind (ha l hl) (fun v => hk v l hl) fun _ => rfl
  outcome ha l hl := Program.Attends.bind (ha l hl) fun _ _ hend => hend

theorem promptClosure {σ : Type} (R : σ → σ → Prop) :
    ActionClosure fun {_} (a : Action σ _) => a.program.Prompt R where
  resume r := by cases r <;> trivial
  bind ha hk := by
    refine Program.Prompt.bind ha ?_
    intro r
    cases r with
    | ok v => exact hk v
    | error failure => trivial
  outcome ha := Program.Prompt.bind ha fun _ => trivial

theorem prompt_access {σ : Type} {R : σ → σ → Prop} {f : σ → α × σ} (h : ∀ s, R s (f s).2) :
    (access f).program.Prompt R := fun s => ⟨rfl, h s, trivial⟩

theorem patient_of_prompt {a : ServiceAction S C α} (h : a.program.Prompt SameHoldings)
    (rank : Nat) : a.Patient rank := fun l _ => by
  suffices hprogram : ∀ p : Program (ServiceState S C) (Except Failure α), p.Prompt SameHoldings →
      p.Attends (fun _ l' => l' = l) l from hprogram a.program h
  intro p
  induction p with
  | done r => exact fun _ => rfl
  | step ready act next ih =>
    exact fun h => ⟨.inl fun s => (h s).1, fun s _ => ⟨l, (h s).2.1.holdMove l, ih s (h s).2.2⟩⟩

theorem patient_access {f : ServiceState S C → α × ServiceState S C}
    (h : ∀ s : ServiceState S C, s.SameHoldings (f s).2) (rank : Nat) :
    (access f).Patient rank := patient_of_prompt (prompt_access h) rank

/-- What is done while holding something is done by somebody who holds that as well. -/
theorem attends_ensuring {a : ServiceAction S C α} {rank : Nat} (ha : a.Patient rank)
    {holding : Holding} {release : ServiceState S C → ServiceState S C}
    (hrelease : ∀ s other, (release s).amount other = s.amount other - [holding].count other)
    {l : List Holding} (hl : ∀ other ∈ holding :: l, other.ceiling < rank) :
    (a.ensuring (update release)).program.Attends (fun _ l' => l' = l) (holding :: l) := by
  refine attends_outcome_bind (ha _ hl) fun r => ?_
  exact ⟨.inl fun _ => rfl, fun s _ => ⟨l, holdMove_release (hrelease s) l, attends_resume rfl⟩⟩

/-- An action is patient that waits for something, does what those may do who hold it, and gives it
back. -/
theorem patient_holding (need : Need) (holding : Holding) {rank rank' : Nat}
    {act release : ServiceState S C → ServiceState S C} {a : ServiceAction S C α}
    (ha : a.Patient rank')
    (hact : ∀ s, s.meets need = true →
      ∀ other, (act s).amount other = s.amount other + [holding].count other)
    (hrelease : ∀ s other, (release s).amount other = s.amount other - [holding].count other)
    (hneed : rank ≤ need.rank) (hholding : holding.ceiling < rank') (hle : rank ≤ rank') :
    (do await (fun s : ServiceState S C => s.meets need) act
        a.ensuring (update release)).Patient rank := by
  intro l hl
  refine ⟨.inr ⟨need, fun other hmem => (hl other hmem).trans_le hneed, fun _ h => h⟩,
    fun s hs => ⟨holding :: l, holdMove_take (hact s hs) l, ?_⟩⟩
  refine attends_ensuring ha hrelease fun other hmem => ?_
  rcases List.mem_cons.1 hmem with rfl | hmem
  · exact hholding
  · exact (hl other hmem).trans_le hle

theorem patient_withMark {mark : WriteMark} {a : ServiceAction S C α} (ha : a.Patient 1) :
    (withMark mark a).Patient 0 := by
  refine patient_holding (.mark mark) (.mark mark) ha (fun s _ other => ?_) (fun s other => ?_)
    (Nat.le_refl _) Nat.one_pos (by decide)
  · cases other <;> simp [amount, MarkTable.take, List.count_cons]
  · cases other <;> simp [amount, MarkTable.release, List.count_erase, List.count_singleton]

theorem patient_withIndexLock {index : IndexId} {a : ServiceAction S C α} (ha : a.Patient 2) :
    (withIndexLock index a).Patient 1 := by
  have hP := patientClosure (S := S) (C := C) 1
  have hfind : (findLock index : ServiceAction S C Nat).Patient 1 := by
    refine hP.bind (patient_access (fun _ => ⟨rfl, rfl, rfl⟩) 1) fun found => ?_
    cases found with
    | some lock => exact hP.pure lock
    | none =>
      refine patient_access (fun s => ⟨rfl, ?_, rfl⟩) 1
      show (s.locks.findOrMake index).2.held = _
      rw [IndexLocks.findOrMake]
      split <;> rfl
  refine hP.bind hfind fun lock => patient_holding (.lock lock) (.lock lock) ha
    (fun s _ other => ?_) (fun s other => ?_) (Nat.le_refl _) Nat.one_lt_two (by decide)
  · cases other <;> simp [amount, IndexLocks.acquire, List.count_cons]
  · cases other <;> simp [amount, IndexLocks.release, List.count_erase, List.count_singleton]

theorem patient_withReadLock {a : ServiceAction S C α} (ha : a.Patient 4) :
    (withReadLock a).Patient 2 := by
  refine patient_holding .share .sharing ha (fun s _ other => ?_) (fun s other => ?_)
    (Nat.le_refl _) (by decide) (by decide)
  · cases other <;> simp [amount, Coordination.share]
  · cases other <;> simp [amount, Coordination.unshare]

/-- Whoever queues for the coordination lock keeps others from sharing it, and waits only for those
who share it already or hold it alone. -/
theorem patient_withStructuralLock {a : ServiceAction S C α} (ha : a.Patient 4) :
    (withStructuralLock a).Patient 2 := by
  intro l hl
  have hlow : ∀ {rank : Nat}, 2 ≤ rank → ∀ holding ∈ l, holding.ceiling < rank :=
    fun hle holding hmem => (hl holding hmem).trans_le hle
  refine ⟨.inl fun _ => rfl, fun s _ => ⟨.queued :: l, holdMove_take (fun other => ?_) l, ?_⟩⟩
  · cases other <;> simp [amount, Coordination.queue]
  refine ⟨.inr ⟨.hold, ?_, fun _ h => h⟩, fun s hs => ⟨.alone :: l, fun other hle => ?_, ?_⟩⟩
  · exact List.forall_mem_cons.2 ⟨by decide, hlow (by decide)⟩
  · have hwriter : s.coordination.writer = false := by
      have hcan : s.coordination.canHold = true := hs
      simp only [Coordination.canHold, Bool.and_eq_true, Bool.not_eq_true'] at hcan
      exact hcan.1
    cases other with
    | queued =>
      simp [amount, Coordination.hold] at hle ⊢
      omega
    | alone => simp [amount, Coordination.hold, hwriter, Nat.add_comm]
    | _ => simp [amount, Coordination.hold]
  · refine attends_ensuring ha (fun s other => ?_)
      (List.forall_mem_cons.2 ⟨by decide, hlow (by decide)⟩)
    cases other with
    | alone => cases hwriter : s.coordination.writer <;> simp [amount, Coordination.unhold, hwriter]
    | _ => simp [amount, Coordination.unhold]

end Action

end Patience

/-! ## Calls -/

section Calls

variable {S U C : Type}

/-- A handle whose phases do not wait for anything and do not call the service. -/
structure Handle.IsBrisk (handle : Handle S U C) : Prop where
  prepare : ∀ index input content,
    (handle.prepare index input content).program.Prompt SameHoldings
  apply : ∀ update, (handle.apply update).program.Prompt SameHoldings
  setIndexed : ∀ index input, (handle.setIndexed index input).program.Prompt SameHoldings
  setUnindexed : ∀ index input, (handle.setUnindexed index input).program.Prompt SameHoldings
  indexingState : ∀ index input, (handle.indexingState index input).program.Prompt SameHoldings
  clear : ∀ index, (handle.clear index).program.Prompt SameHoldings

/-- A handle of one index whose phases do not wait for anything. -/
structure StoreHandle.IsBrisk (handle : StoreHandle S U) : Prop where
  prepare : ∀ input content, (handle.prepare input content).program.Prompt fun _ _ => True
  apply : ∀ update, (handle.apply update).program.Prompt fun _ _ => True
  setIndexed : ∀ input, (handle.setIndexed input).program.Prompt fun _ _ => True
  setUnindexed : ∀ input, (handle.setUnindexed input).program.Prompt fun _ _ => True
  indexingState : ∀ input, (handle.indexingState input).program.Prompt fun _ _ => True
  clear : handle.clear.program.Prompt fun _ _ => True

/-- An oracle whose calls do not wait for anything and do not call the service. -/
structure Oracle.IsBrisk (oracle : Oracle S C) : Prop where
  state : ∀ index, (oracle.state index).program.Prompt SameHoldings
  request : ∀ index cause, (oracle.request index cause).program.Prompt SameHoldings
  start : ∀ index, (oracle.start index).program.Prompt SameHoldings
  finish : ∀ index, (oracle.finish index).program.Prompt SameHoldings

/-- The registry of a service is brisk. -/
theorem Oracle.isBrisk_registry : (registry : Oracle S C).IsBrisk := by
  have hP := promptClosure (SameHoldings (S := S) (C := C))
  have hlog : ∀ record, (log record : ServiceAction S C Unit).program.Prompt SameHoldings :=
    fun _ => prompt_access fun _ => ⟨rfl, rfl, rfl⟩
  exact {
    state := fun index => prompt_access fun _ => ⟨rfl, rfl, rfl⟩
    request := fun index cause => hP.mem_requestRebuild (prompt_access fun _ => ⟨rfl, rfl, rfl⟩)
      (fun _ => hlog _) (prompt_access fun _ => ⟨rfl, rfl, rfl⟩)
      (prompt_access fun s => .moveRegistry s index _)
    start := fun index => hP.mem_startRebuild (prompt_access fun s => .moveRegistry s index _)
      (hlog _)
    finish := fun index => hP.mem_finishRebuild (prompt_access fun s => .endRebuild s index)
      fun _ => hlog _ }

/-- Work on the storage of an index leaves marks and locks alone. -/
theorem Handle.prompt_onStore [Inhabited S] {α : Type} (index : IndexId) {a : Action S α}
    (ha : a.program.Prompt fun _ _ => True) :
    (onStore index a : ServiceAction S C α).program.Prompt SameHoldings :=
  Program.prompt_focus (fun _ _ => ⟨rfl, rfl, rfl⟩) ha

/-- A handle that works on the storage of each index through a brisk handle of its own is brisk. -/
theorem Handle.isBrisk_ofStores [Inhabited S] {handles : IndexId → StoreHandle S U}
    (h : ∀ index, (handles index).IsBrisk) : (ofStores handles : Handle S U C).IsBrisk where
  prepare index input content := prompt_onStore index ((h index).prepare input content)
  apply update := prompt_onStore update.index ((h update.index).apply update)
  setIndexed index input := prompt_onStore index ((h index).setIndexed input)
  setUnindexed index input := prompt_onStore index ((h index).setUnindexed input)
  indexingState index input := prompt_onStore index ((h index).indexingState input)
  clear index := prompt_onStore index (h index).clear

/-- Storage in memory is brisk. -/
theorem StoreHandle.isBrisk_memory {K V : Type} [Ord K] [Std.TransOrd K] [BEq V]
    (indexer : Indexer K V) (index : IndexId) : (memory indexer index).IsBrisk where
  prepare input content := by
    show (Action.resume (mapped indexer index input content) >>= fun data =>
      pure ⟨index, input, data⟩ : Action _ (PreparedUpdate (Mapping K V))).program.Prompt _
    cases mapped indexer index input content <;> trivial
  apply update s := ⟨rfl, trivial, trivial⟩
  setIndexed input s := ⟨rfl, trivial, trivial⟩
  setUnindexed input s := ⟨rfl, trivial, trivial⟩
  indexingState input s := ⟨rfl, trivial, trivial⟩
  clear s := ⟨rfl, trivial, fun _ => ⟨rfl, trivial, trivial⟩⟩

variable {env : Environment S U C}

/-- What a service counts, looks at, logs and requests is done without waiting. -/
theorem patientClass (horacle : env.oracle.IsBrisk) (rank : Nat) :
    TallyClass env fun {_} a => a.Patient rank where
  toActionClosure := patientClosure rank
  registered _ := patient_access (fun _ => ⟨rfl, rfl, rfl⟩) rank
  indices := patient_access (fun _ => ⟨rfl, rfl, rfl⟩) rank
  listeners := patient_access (fun _ => ⟨rfl, rfl, rfl⟩) rank
  log _ := patient_access (fun _ => ⟨rfl, rfl, rfl⟩) rank
  deliver _ _ := patient_access (fun _ => ⟨rfl, rfl, rfl⟩) rank
  state index := patient_of_prompt (horacle.state index) rank
  request index cause := patient_of_prompt (horacle.request index cause) rank
  drop _ := patient_access (fun _ => ⟨rfl, rfl, rfl⟩) rank
  count _ := patient_access (fun _ => ⟨rfl, rfl, rfl⟩) rank
  bump := patient_access (fun _ => ⟨rfl, rfl, rfl⟩) rank

theorem patient_note (event : Event) (rank : Nat) :
    (note event : ServiceAction S C Unit).Patient rank :=
  patient_access (fun _ => ⟨rfl, rfl, rfl⟩) rank

variable (horacle : env.oracle.IsBrisk) (hhandle : env.handle.IsBrisk)

include horacle hhandle

theorem patient_applyUpdate (origin : Origin) (update : PreparedUpdate U) :
    (env.applyUpdate origin update).Patient 2 :=
  (patientClass horacle 2).mem_applyUpdate (patient_note _ 2) (fun _ => patient_note _ 2)
    (patient_of_prompt (hhandle.apply update) 2)

/-- Whoever carries out an operation under its mark may come to wait for the lock of the index. -/
theorem patient_executeMarked (op : Operation) : (env.executeMarked op).Patient 1 := by
  have hP := patientClass horacle 1
  refine hP.mem_executeMarked
    (hP.mem_attempt (patient_of_prompt (hhandle.prepare _ _ _) 1) (fun update => ?_) ?_)
  · exact patient_withIndexLock ((patientClass horacle 2).mem_applyUnlessGated
      (patient_applyUpdate horacle hhandle .operation update))
  · refine (patient_withReadLock ?_).mono (by decide)
    cases op.task with
    | removal => exact patient_of_prompt (hhandle.setUnindexed op.index op.input) 4
    | update content => exact patient_of_prompt (hhandle.setIndexed op.index op.input) 4

/-- Whoever rebuilds an index may come to wait for the coordination lock while holding the lock of
the index. -/
theorem patient_claimAndClear (index : IndexId) : (env.claimAndClear index).Patient 1 := by
  have hP := patientClass horacle 2
  refine patient_withIndexLock (hP.mem_clearIfStarted ?_ ?_ ?_)
  · exact patient_of_prompt (horacle.start index) 2
  · exact patient_access (fun _ => ⟨rfl, rfl, rfl⟩) 2
  · exact patient_withStructuralLock ((patientClass horacle 4).mem_clearIndex (patient_note _ 4)
      (fun _ => patient_note _ 4) (patient_of_prompt (hhandle.clear index) 4))

theorem patient_indexMarked (index : IndexId) (input : InputId) (content : FileContent) :
    (env.indexMarked index input content).Patient 1 :=
  (patientClass horacle 1).mem_indexMarked (patient_of_prompt (hhandle.prepare _ _ _) 1)
    (fun update => patient_withIndexLock (patient_applyUpdate horacle hhandle .rebuild update))
    ((patient_withReadLock (patient_of_prompt (hhandle.setIndexed index input) 4)).mono
      (by decide))

/-- Between two calls a thread holds nothing, and each call waits in the order of the ranks. -/
theorem patientCalls : CallClass env (fun _ => True) fun _ {_} a => a.Patient 0 := by
  have hP := patientClass horacle 0
  have hexecute : ∀ op, (env.execute op).Patient 0 := fun op =>
    hP.mem_execute (fun _ => patient_note _ 0)
      (patient_withMark (patient_executeMarked horacle hhandle op))
  exact {
    closure := fun _ => hP.toActionClosure
    registered := fun _ => hP.indices
    apply := fun _ => hP.toActionClosure.mem_apply hexecute (fun _ _ => patient_note _ 0)
      fun _ => patient_access (fun _ => ⟨rfl, rfl, rfl⟩) 0
    bump := fun _ => hP.bind hP.bump fun _ => hP.bind (patient_note _ 0) fun _ => hP.pure _
    execute := fun _ => hexecute
    request := fun _ => hP.request
    rebuild := fun _ index _ _ hrepopulate => hP.mem_rebuildIndex
      ((patient_claimAndClear horacle hhandle index).mono (Nat.zero_le 1))
      (patient_of_prompt (horacle.finish index) 0)
      (fun _ _ => patient_note _ 0) hrepopulate
    indexFile := fun index input content => hP.mem_indexFile (fun _ => patient_note _ 0)
      (patient_withMark (patient_indexMarked horacle hhandle index input content))
    indexingState := fun _ index input => hP.mem_indexingState
      ((patient_withReadLock (patient_of_prompt (hhandle.indexingState index input) 4)).mono
        (Nat.zero_le 2)) }

theorem patient_runAll (session : Option IndexId) (commands : List Command) :
    (Command.runAll env session commands).Patient 0 :=
  (patientCalls horacle hhandle).mem_runAll session commands
    (Command.rebuildsOnlyAll_of_forall (fun _ => trivial) commands)

end Calls

/-! ## Pools -/

section Pools

variable {S C α : Type} {q r : Pool (ServiceState S C) α}

/-- Every thread waits in the order of the ranks and holds nothing when it is done, and whatever is
held according to the state is held by some thread. -/
structure HoldingInvariant (q : Pool (ServiceState S C) α) (place : Nat → List Holding) :
    Prop where
  attends : ∀ (i : Nat) t, q.threads[i]? = some t → t.Attends (fun _ l => l = []) (place i)
  held : ∀ holding, q.state.amount holding =
    ∑ i ∈ Finset.range q.threads.length, (place i).count holding

/-- A step of a thread keeps the invariant, with another place for that thread. -/
theorem HoldingInvariant.step {place : Nat → List Holding} (h : HoldingInvariant q place)
    (hstep : q.Step r) : ∃ place', HoldingInvariant r place' := by
  obtain ⟨i, hby⟩ := hstep.exists_stepBy
  have hi := hby.lt_length_threads
  obtain ⟨l, hmove, hattends⟩ := hby.moves (fun _ t l => t.Attends (fun _ l => l = []) l)
    (fun h hstep => h.step hstep) h.attends
  refine ⟨Function.update place i l, hattends, fun holding => ?_⟩
  have hsum := h.held holding
  have hle : (place i).count holding ≤ q.state.amount holding := by
    rw [hsum]
    exact Finset.single_le_sum (f := fun j => (place j).count holding) (fun _ _ => Nat.zero_le _)
      (Finset.mem_range.2 hi)
  have hmoved := hmove holding hle
  have htotal := Pool.sum_places_update hi place l fun l => l.count holding
  rw [hby.length_threads]
  omega

/-- Whatever is held according to the state is held by a thread that is not done. -/
theorem HoldingInvariant.exists_holder {place : Nat → List Holding} (h : HoldingInvariant q place)
    {holding : Holding} (hheld : 0 < q.state.amount holding) :
    ∃ j t, q.threads[j]? = some t ∧ t.result? = none ∧ holding ∈ place j := by
  rw [h.held] at hheld
  obtain ⟨j, hj, hcount⟩ := Finset.exists_ne_zero_of_sum_ne_zero (Nat.pos_iff_ne_zero.1 hheld)
  have hmem : holding ∈ place j := List.count_pos_iff.1 (Nat.pos_of_ne_zero hcount)
  obtain ⟨t, hget⟩ : ∃ t, q.threads[j]? = some t :=
    ⟨_, List.getElem?_eq_getElem (Finset.mem_range.1 hj)⟩
  refine ⟨j, t, hget, ?_, hmem⟩
  cases t with
  | step ready act next => rfl
  | done a =>
    have hempty : place j = [] := h.attends j _ hget
    rw [hempty] at hmem
    cases hmem

/-- A thread that is not done can go on, or waits for a need that is held back by another one that
is not done. -/
theorem HoldingInvariant.exists_stepBy_or_blocker {place : Nat → List Holding}
    (h : HoldingInvariant q place) {i : Nat} {t : Program (ServiceState S C) α}
    (hget : q.threads[i]? = some t) (hunfinished : t.result? = none) :
    (∃ r, q.StepBy i r) ∨ ∃ need : Need, (∀ holding ∈ place i, holding.ceiling < need.rank) ∧
      ∃ j u holding, q.threads[j]? = some u ∧ u.result? = none ∧ holding ∈ place j ∧
        need.rank ≤ holding.ceiling := by
  cases t with
  | done a => cases hunfinished
  | step ready act next =>
    have hstep : ready q.state = true → ∃ r, q.StepBy i r := fun hready =>
      ⟨_, .access hget (.step ready act next q.state hready)⟩
    rcases (h.attends i _ hget).1 with hready | ⟨need, hceiling, hready⟩
    · exact .inl (hstep (hready q.state))
    · cases hmet : q.state.meets need with
      | true => exact .inl (hstep (hready q.state hmet))
      | false =>
        obtain ⟨holding, hheld, hrank⟩ := need.exists_blocker hmet
        obtain ⟨j, u, hj, hu, hmem⟩ := h.exists_holder hheld
        exact .inr ⟨need, hceiling, j, u, holding, hj, hu, hmem, hrank⟩

/-- Some thread can go on if one that is not done holds something: whoever holds back what it waits
for holds something with a higher ceiling, and no ceiling is above the highest. -/
theorem HoldingInvariant.exists_step_of_holding {place : Nat → List Holding}
    (h : HoldingInvariant q place) (n : Nat) {i : Nat} {t : Program (ServiceState S C) α}
    {holding : Holding} (hget : q.threads[i]? = some t) (hunfinished : t.result? = none)
    (hmem : holding ∈ place i) (hceiling : 3 < holding.ceiling + n) : ∃ j r, q.StepBy j r := by
  induction n generalizing i t holding with
  | zero => cases holding <;> simp [Holding.ceiling] at hceiling
  | succ n ih =>
    rcases h.exists_stepBy_or_blocker hget hunfinished with ⟨r, hstep⟩ | ⟨need, hbelow, hblocked⟩
    · exact ⟨i, r, hstep⟩
    · obtain ⟨j, u, other, hj, hu, hother, hrank⟩ := hblocked
      have hlower := hbelow holding hmem
      exact ih hj hu hother (by omega)

/-- In a pool whose threads wait in the order of the ranks some thread can go on, unless all are
done. -/
theorem HoldingInvariant.exists_stepBy {place : Nat → List Holding} (h : HoldingInvariant q place)
    {i : Nat} {t : Program (ServiceState S C) α} (hget : q.threads[i]? = some t)
    (hunfinished : t.result? = none) : ∃ j r, q.StepBy j r := by
  rcases h.exists_stepBy_or_blocker hget hunfinished with ⟨r, hstep⟩ | ⟨need, -, hblocked⟩
  · exact ⟨i, r, hstep⟩
  · obtain ⟨j, u, holding, hj, hu, hmem, -⟩ := hblocked
    exact h.exists_step_of_holding 4 hj hu hmem (by omega)

end Pools

namespace Pool

variable {σ α : Type}

/-- No threads go on for ever. -/
theorem wellFounded_step : WellFounded fun r q : Pool σ α => q.Step r := by
  have hprograms : WellFounded fun p' p : Program σ α => ∃ s s', p.Step s p' s' := by
    refine ⟨fun p => ?_⟩
    induction p with
    | done a =>
      refine ⟨_, ?_⟩
      rintro p' ⟨s, s', hstep⟩
      cases hstep
    | step ready act next ih =>
      refine ⟨_, ?_⟩
      rintro p' ⟨s, s', hstep⟩
      cases hstep
      exact ih s
  refine Subrelation.wf ?_ (InvImage.wf (fun q : Pool σ α => (q.threads : Multiset (Program σ α)))
    hprograms.cutExpand)
  rintro r q ⟨before, after, p, p', s, t, hstep⟩
  have hsplit : ∀ a : Program σ α, ((before ++ a :: after : List _) : Multiset _) =
      {a} + ((before ++ after : List _) : Multiset _) := fun a =>
    Multiset.coe_eq_coe.2 List.perm_middle
  show Relation.CutExpand _ _ _
  simp only [hsplit]
  exact Relation.cutExpand_single_add ⟨s, t, hstep⟩ _

/-- A pool that can be reached while some threads stand still. -/
def ReachesWithout (still : Set Nat) : Pool σ α → Pool σ α → Prop :=
  Relation.ReflTransGen fun q r => ∃ i, i ∉ still ∧ q.StepBy i r

/-- Some threads, not all of which are done, wait for each other: none of them can go on, whatever
the others do. -/
def Entangled (q : Pool σ α) (threads : Set Nat) : Prop :=
  (∃ i ∈ threads, ∃ t, q.threads[i]? = some t ∧ t.result? = none) ∧
    ∀ r, q.ReachesWithout threads r → ∀ i ∈ threads, ∀ r', ¬ r.StepBy i r'

/-- Threads that wait for each other still do so after others have gone on. -/
theorem Entangled.step {q r : Pool σ α} {threads : Set Nat} (h : q.Entangled threads) {j : Nat}
    (hj : j ∉ threads) (hstep : q.StepBy j r) : r.Entangled threads := by
  obtain ⟨⟨i, hi, t, hget, hunfinished⟩, hstuck⟩ := h
  refine ⟨⟨i, hi, t, ?_, hunfinished⟩, fun u hu => hstuck u (.head ⟨j, hj, hstep⟩ hu)⟩
  rw [hstep.getElem?_of_ne fun hij => hj (hij ▸ hi), hget]

end Pool

/-- Where threads wait in the order of the ranks, none wait for each other. -/
theorem HoldingInvariant.not_entangled {S C α : Type} {q : Pool (ServiceState S C) α}
    {place : Nat → List Holding} (h : HoldingInvariant q place) (threads : Set Nat) :
    ¬ q.Entangled threads := by
  induction q using Pool.wellFounded_step.induction generalizing place with
  | _ q ih =>
    intro hentangled
    obtain ⟨⟨i, -, t, hget, hunfinished⟩, hstuck⟩ := id hentangled
    obtain ⟨j, r, hstep⟩ := h.exists_stepBy hget hunfinished
    by_cases hj : j ∈ threads
    · exact hstuck q .refl j hj r hstep
    · obtain ⟨place', hr⟩ := h.step hstep.step
      exact ih r hstep.step hr (hentangled.step hj hstep)

/-! ## The result -/

/-- Whatever threads carry out operations, rebuild indices and look at indexing states, with any
handle and any oracle that neither wait nor call the service: as long as some of them is not done,
one of them can go on, and no threads wait for each other, whether or not those who wait to hold the
coordination lock alone keep others from sharing it. -/
theorem deadlock_free {S U C : Type} (env : Environment S U C) (horacle : env.oracle.IsBrisk)
    (hhandle : env.handle.IsBrisk) (s : ServiceState S C) (hs : s.AtRest)
    (commands : List (List Command)) (q : Pool (ServiceState S C) (Except Failure Unit))
    (hq : (env.threads s commands).Reaches q) :
    (q.isDone = false → ∃ r, q.Step r) ∧ ∀ threads : Set Nat, ¬ q.Entangled threads := by
  have hinvariant : ∃ place, HoldingInvariant q place := by
    induction hq with
    | refl =>
      refine ⟨fun _ => [], fun i t hget => ?_, fun holding => ?_⟩
      · obtain ⟨list, -, rfl⟩ := List.mem_map.1 (List.mem_of_getElem? hget)
        exact patient_runAll horacle hhandle none list [] (by simp)
      · exact (hs.isFree holding).trans (by simp)
    | tail _ hstep ih =>
      obtain ⟨place, h⟩ := ih
      exact h.step hstep
  obtain ⟨place, h⟩ := hinvariant
  refine ⟨fun hdone => ?_, h.not_entangled⟩
  obtain ⟨t, ht, hunfinished⟩ := List.all_eq_false.1 hdone
  obtain ⟨i, hget⟩ := List.getElem?_of_mem ht
  obtain ⟨j, r, hstep⟩ := h.exists_stepBy hget (by simpa using hunfinished)
  exact ⟨r, hstep.step⟩

namespace Sample

/-- Two threads update one file, and a third one rebuilds the index and puts that file back. -/
def contending : List (List Command) :=
  [[.execute (.update sizes (content 3) ⟨1⟩ .synchronous)],
    [.execute (.update sizes (content 5) ⟨1⟩ .synchronous)],
    [.request sizes ⟨"damage"⟩, .rebuild sizes [.indexFile ⟨1⟩ (content 5) true]]]

/-- The first thread shares the coordination lock and holds the mark of the file. -/
def crossing : List Nat := List.replicate 16 0 ++ List.replicate 10 1 ++ List.replicate 20 2

theorem isBrisk_environment : environment.handle.IsBrisk :=
  Handle.isBrisk_ofStores fun _ => StoreHandle.isBrisk_memory _ _

end Sample

/-- One thread waits for the mark of the file, another one holds the lock of the index and waits for
the coordination lock, and neither does so for ever. -/
theorem deadlock_free_contending :
    ∃ q, (Sample.environment.threads Sample.state Sample.contending).Reaches q ∧
      q.threads.map (·.isReady q.state) = [true, false, false] ∧ (∃ r, q.Step r) ∧
        ¬ q.Entangled {1, 2} := by
  obtain ⟨q, hq⟩ : ∃ q, (Sample.environment.threads Sample.state Sample.contending).follow
      Sample.crossing = q := ⟨_, rfl⟩
  have hreaches : (Sample.environment.threads Sample.state Sample.contending).Reaches q := by
    rw [← hq]
    exact Pool.reaches_follow _ _
  have hready : q.threads.map (·.isReady q.state) = [true, false, false] ∧ q.isDone = false := by
    rw [← hq]
    decide +kernel
  have hfree := deadlock_free Sample.environment Oracle.isBrisk_registry
    Sample.isBrisk_environment Sample.state
    (atRest_ofStores _ _ _ _) Sample.contending q hreaches
  exact ⟨q, hreaches, hready.1, hfree.1 hready.2, hfree.2 _⟩

end FileIndexing
