import FileIndexing.Proofs.Discretion
import FileIndexing.Proofs.Trace
import Mathlib.Data.UInt

/-!
# What the counters count

The counters of a service and its journal tell of the same things, but they change at different
moments: an operation counts as a modification and as started when it has passed the gate, its
outcome is counted wherever it is decided, and the end of the call is noted last of all.  Whenever no
call is under way, the two agree.

* `DriftMove` is the protocol of a thread that keeps account of how far its own accesses have moved
  a quantity.  `Action.Drifts` says by how much an action moves it, and `Action.Balances` that it
  moves it back by the end.  `Pool.Traced.sum_drifts` adds up the accounts of all threads.
* `ServiceAccount` lists what is accounted for, `ServiceState.counted` and `ServiceState.noted` are
  what the counters and the journal tell of it, and `ServiceState.surplus` is the difference.
* `drifts_undertake` follows an operation on all of its ways: each counts exactly what the end of
  the call is due.
* `balanced_runAll` is the walk: no list of commands leaves a surplus, whatever the handle does, as
  long as its own calls leave none.
* `balanced_of_quiet` is the result: the counters agree with the journal, modulo 2^64, whenever
  every thread is between two calls.
-/

namespace FileIndexing

/-! ## Quantities that threads move -/

section Drift

variable {σ M α β : Type} [AddCommGroup M] {φ : σ → M}

/-- A thread keeps account of how far its own accesses have moved a quantity. -/
def DriftMove (φ : σ → M) (l : M) (s : σ) (l' : M) (t : σ) : Prop := φ t + l = φ s + l'

theorem driftMove_of_eq {l d : M} {s t : σ} (h : φ t = φ s + d) : DriftMove φ l s (l + d) t := by
  rw [DriftMove, h, add_assoc, add_comm d l]

namespace Action

/-- However an action is interleaved with others, its own accesses move a quantity by an amount
that fits the way in which the action ends. -/
def Drifts (φ : σ → M) (a : Action σ α) (post : Except Failure α → M → Prop) : Prop :=
  ∀ l, a.program.Obeys (DriftMove φ) (fun r l' => ∃ d, l' = l + d ∧ post r d) l

/-- An action that moves a quantity by a fixed amount and does not fail. -/
def Moves (φ : σ → M) (a : Action σ α) (e : M) : Prop :=
  a.Drifts φ fun r d => (∃ v, r = .ok v) ∧ d = e

/-- However an action is interleaved with others, its own accesses move a quantity back by the end
as far as they have moved it. -/
def Balances (φ : σ → M) (a : Action σ α) : Prop := ∀ l, a.Neutral (DriftMove φ) l

variable {a : Action σ α} {post : Except Failure α → M → Prop}

theorem Drifts.mono {post' : Except Failure α → M → Prop} (h : a.Drifts φ post)
    (himp : ∀ r d, post r d → post' r d) : a.Drifts φ post' := fun l =>
  (h l).mono fun r _ hend => by
    obtain ⟨d, hl, hd⟩ := hend
    exact ⟨d, hl, himp r d hd⟩

theorem Balances.drifts (h : a.Balances φ) : a.Drifts φ fun _ d => d = 0 := fun l =>
  (h l).mono fun _ _ hl => ⟨0, by simpa using hl, rfl⟩

theorem Drifts.balances (h : a.Drifts φ fun _ d => d = 0) : a.Balances φ := fun l =>
  (h l).mono fun r l' hend => by
    obtain ⟨d, rfl, rfl⟩ := hend
    exact add_zero l

/-- Run alone, an action that moves a quantity back leaves it as it was. -/
theorem Balances.run_eq (h : a.Balances φ) {s t : σ} {r : Except Failure α}
    (hrun : a.run s = some (r, t)) : φ t = φ s := by
  obtain ⟨l, rfl, ht⟩ := leaves_of_obeys (fun l u => φ u = φ s + l) (fun l u l' v hu hmove => by
    refine add_right_cancel (b := l) ?_
    rw [hmove, hu, add_right_comm]) (h 0) (add_zero (φ s)).symm r t hrun
  rw [ht, add_zero]

theorem drifts_resume {r : Except Failure α} (h : post r 0) :
    (resume r : Action σ α).Drifts φ post := fun l =>
  obeys_resume ⟨0, (add_zero l).symm, h⟩

theorem drifts_pure {v : α} (h : post (.ok v) 0) : (pure v : Action σ α).Drifts φ post :=
  drifts_resume (r := .ok v) h

theorem drifts_raise {cause : Error} (h : post (.error (.error cause)) 0) :
    (raise cause : Action σ α).Drifts φ post := drifts_resume (r := .error (.error cause)) h

theorem moves_pure (v : α) : (pure v : Action σ α).Moves φ 0 := drifts_pure ⟨⟨v, rfl⟩, rfl⟩

theorem moves_access {f : σ → α × σ} {e : M} (h : ∀ s, φ (f s).2 = φ s + e) :
    (access f).Moves φ e := fun l =>
  obeys_access fun s => ⟨l + e, driftMove_of_eq (h s), e, rfl, ⟨_, rfl⟩, rfl⟩

theorem moves_await {ready : σ → Bool} {act : σ → σ} (h : ∀ s, φ (act s) = φ s) :
    (await ready act).Moves φ 0 := fun l s _ =>
  ⟨l, by simp [DriftMove, h], 0, (add_zero l).symm, ⟨_, rfl⟩, rfl⟩

/-- What follows an action adds to how far the quantity has been moved. -/
theorem Drifts.bind {k : α → Action σ β} {mid : Except Failure α → M → Prop}
    {post : Except Failure β → M → Prop} (ha : a.Drifts φ mid)
    (hk : ∀ v d, mid (.ok v) d → (k v).Drifts φ fun r e => post r (d + e))
    (hfail : ∀ failure d, mid (.error failure) d → post (.error failure) d) :
    (a >>= k).Drifts φ post := fun l => by
  refine obeys_bind _ (ha l) ?_ ?_
  · rintro v _ ⟨d, rfl, hd⟩
    refine (hk v d hd (l + d)).mono ?_
    rintro r _ ⟨e, rfl, hpost⟩
    exact ⟨d + e, add_assoc l d e, hpost⟩
  · rintro failure _ ⟨d, rfl, hd⟩
    exact ⟨d, rfl, hfail failure d hd⟩

/-- What follows an action that does not fail adds to its fixed amount. -/
theorem Moves.bind {k : α → Action σ β} {post : Except Failure β → M → Prop} {e : M}
    (ha : a.Moves φ e) (hk : ∀ v, (k v).Drifts φ fun r d => post r (e + d)) :
    (a >>= k).Drifts φ post := by
  refine Drifts.bind ha ?_ ?_
  · rintro v _ ⟨-, rfl⟩
    exact hk v
  · rintro failure _ ⟨⟨v, hr⟩, -⟩
    cases hr

theorem Moves.then {k : α → Action σ β} {e e' : M} (ha : a.Moves φ e)
    (hk : ∀ v, (k v).Moves φ e') : (a >>= k).Moves φ (e + e') :=
  ha.bind fun v => (hk v).mono fun _ _ hend => ⟨hend.1, by rw [hend.2]⟩

theorem Moves.seq {k : α → Action σ β} (ha : a.Moves φ 0) (hk : ∀ v, (k v).Moves φ 0) :
    (a >>= k).Moves φ 0 := by
  have h := ha.then hk
  rwa [add_zero] at h

theorem Drifts.outcome {post : Except Failure (Except Failure α) → M → Prop}
    (h : a.Drifts φ fun r d => post (.ok r) d) : a.outcome.Drifts φ post := fun l =>
  obeys_outcome (h l)

theorem Drifts.caught {post : Except Failure (Except Error α) → M → Prop}
    (h : a.Drifts φ fun r d => post (.ok (r.mapError Failure.toError)) d) :
    a.caught.Drifts φ post := fun l => obeys_caught (h l)

/-- What a thread does in any case is added however the action ended. -/
theorem Drifts.ensuring {f : σ → σ} (h : a.Drifts φ post) (hf : ∀ s, φ (f s) = φ s) :
    (a.ensuring (update f)).Drifts φ post := fun l => by
  refine obeys_ensuring (h l) ?_
  rintro r l' hend s
  exact ⟨l', by simp [DriftMove, hf], hend⟩

end Action

end Drift

/-- The quantity has moved by as much as the accounts of all threads add up to. -/
theorem Pool.Traced.sum_drifts {S C M α : Type} [AddCommGroup M] {φ : ServiceState S C → M}
    {p q : Pool (ServiceState S C) α} {h : Trace} {post : Nat → α → M → Prop}
    (hobeys : p.Obeys (fun _ => DriftMove φ) post fun _ => 0) (htrace : p.Traced h q) :
    ∃ place : Nat → M, φ q.state = φ p.state + ∑ i ∈ Finset.range q.threads.length, place i ∧
      q.Obeys (fun _ => DriftMove φ) post place := by
  obtain ⟨place, hsum, hq⟩ := htrace.invariant
    (fun _ s place => φ s = φ p.state + ∑ i ∈ Finset.range p.threads.length, place i) hobeys
    (by simp) fun {_ q _ i place l} htrace hstep hsum hmove => by
      have hi : i < p.threads.length := htrace.length_threads ▸ hstep.lt_length_threads
      have htotal := Pool.sum_places_update hi place l id
      simp only [id] at htotal
      refine add_right_cancel (b := place i) ?_
      rw [add_assoc, htotal, hmove, hsum, add_assoc]
  rw [htrace.length_threads]
  exact ⟨place, hsum, hq⟩

/-! ## Accounts -/

/-- What the counters and the journal of a service both tell of. -/
inductive ServiceAccount where
  /-- The calls to carry out an operation that have come to their ends. -/
  | calls
  /-- The operations that have been carried out to an end, in success or not. -/
  | conclusions
  /-- The operations that have been begun: they have been carried out to an end or dropped. -/
  | beginnings
  /-- The operations that changed storage. -/
  | changes
  /-- The modifications that are none of operations. -/
  | modifications
  deriving DecidableEq

/-- Whether an outcome tells that an operation has been carried out to an end, in success or
not. -/
def Outcome.isConclusive : Outcome → Bool
  | .applied _ | .mappingFailed _ | .storageCorrupted _ => true
  | .gated | .unknownIndex => false

namespace Event

/-- Whether an event tells that a call to carry out an operation has come to its end. -/
def isExecution : Event → Bool
  | .executed _ _ => true
  | _ => false

/-- Whether an event tells that an operation has been carried out to an end. -/
def isConclusion : Event → Bool
  | .executed _ outcome => outcome.isConclusive
  | _ => false

/-- Whether an event tells that an operation changed storage. -/
def isChange : Event → Bool
  | .executed _ outcome => outcome.storageChanged
  | _ => false

/-- Whether an event tells that somebody counted a modification of their own. -/
def isBump : Event → Bool
  | .bumped => true
  | _ => false

/-- Whether an event tells that a rebuild has put the files of its index back. -/
def isRefill : Event → Bool
  | .rebuildEnded _ _ (some .completed) | .rebuildEnded _ _ (some .rescheduled) => true
  | _ => false

theorem not_isConclusion_of_isDropped (event : Event) (h : event.isDropped = true) :
    event.isConclusion = false := by
  cases event with
  | executed op outcome => cases h
  | _ => rfl

theorem not_isBump_of_isRefill (event : Event) (h : event.isRefill = true) :
    event.isBump = false := by
  cases event with
  | bumped => cases h
  | _ => rfl

/-- Whether an event is to be counted in an account. -/
def countsFor (event : Event) : ServiceAccount → Bool
  | .calls => event.isExecution
  | .conclusions => event.isConclusion
  | .beginnings => event.isConclusion || event.isDropped
  | .changes => event.isChange
  | .modifications => event.isBump || event.isRefill

@[simp] theorem countsFor_bumped (account : ServiceAccount) :
    bumped.countsFor account = decide (account = .modifications) := by cases account <;> rfl

@[simp] theorem countsFor_dropped (op : Operation) (account : ServiceAccount) :
    (logged (.dropped op)).countsFor account = decide (account = .beginnings) := by
  cases account <;> rfl

end Event

namespace ServiceState

variable {S C : Type}

/-- How many events of a kind are in the journal, modulo 2^64. -/
def tally (s : ServiceState S C) (p : Event → Bool) : UInt64 := UInt64.ofNat (s.journal.countP p)

theorem tally_or {s : ServiceState S C} {p q : Event → Bool}
    (h : ∀ event, q event = true → p event = false) :
    s.tally (fun event => p event || q event) = s.tally p + s.tally q := by
  rw [tally, tally, tally, ← UInt64.ofNat_add]
  congr 1
  induction s.journal with
  | nil => rfl
  | cons event journal ih =>
    simp only [List.countP_cons, ih]
    cases hq : q event with
    | false =>
      cases p event <;> simp
      omega
    | true => simp [h event hq]; omega

/-- What the counters of a service tell of an account. -/
def counted (s : ServiceState S C) : ServiceAccount → UInt64
  | .calls => s.counters.gated + s.counters.succeeded + s.counters.mappingFailures +
      s.counters.storageFailures + s.counters.unknownIndices
  | .conclusions =>
    s.counters.succeeded + s.counters.mappingFailures + s.counters.storageFailures
  | .beginnings => s.counters.started
  | .changes => s.counters.changes
  | .modifications => s.modCount - s.counters.started

/-- What the journal of a service tells of an account. -/
def noted (account : ServiceAccount) (s : ServiceState S C) : UInt64 :=
  s.tally (·.countsFor account)

/-- By how much the counters exceed the journal in an account. -/
def surplus (account : ServiceAccount) (s : ServiceState S C) : UInt64 :=
  s.counted account - s.noted account

/-- The counters of a service agree with its journal, modulo 2^64. -/
structure IsBalanced (s : ServiceState S C) : Prop where
  calls : s.tally Event.isExecution = s.counters.gated + s.counters.succeeded +
    s.counters.mappingFailures + s.counters.storageFailures + s.counters.unknownIndices
  started : s.counters.started = s.counters.succeeded + s.counters.mappingFailures +
    s.counters.storageFailures + s.tally Event.isDropped
  changes : s.counters.changes = s.tally Event.isChange
  modCount : s.modCount =
    s.counters.started + s.tally Event.isBump + s.tally Event.isRefill

end ServiceState

/-! ## Accesses that leave the accounts alone -/

namespace ServiceState

variable {S C : Type} {s t u : ServiceState S C}

/-- The later state has the surplus of the earlier one in every account. -/
def SameSurplus (s t : ServiceState S C) : Prop :=
  ∀ account, t.surplus account = s.surplus account

theorem surplus_note (s : ServiceState S C) (event : Event) (account : ServiceAccount) :
    (s.note event).surplus account =
      s.surplus account - if event.countsFor account then 1 else 0 := by
  have hcounted : (s.note event).counted account = s.counted account := by cases account <;> rfl
  unfold surplus noted tally
  rw [hcounted, journal_note, List.countP_cons]
  split
  · simp only [UInt64.ofNat_add]
    grind
  · simp

theorem SameSurplus.trans (h : s.SameSurplus t) (h' : t.SameSurplus u) : s.SameSurplus u :=
  fun account => (h' account).trans (h account)

/-- An access that neither counts nor notes anything. -/
theorem SameSurplus.of_eq (hcounters : t.counters = s.counters)
    (hmodCount : t.modCount = s.modCount) (hjournal : t.journal = s.journal) :
    s.SameSurplus t := by
  intro account
  cases account <;> simp [surplus, counted, noted, tally, hcounters, hmodCount, hjournal]

theorem SameSurplus.countTotal (s : ServiceState S C) (totalNanos : UInt64) :
    s.SameSurplus { s with counters := { s.counters with totalNanos } } := by
  intro account
  cases account <;> rfl

theorem SameSurplus.countMax (s : ServiceState S C) (maxNanos : UInt64) :
    s.SameSurplus { s with counters := { s.counters with maxNanos } } := by
  intro account
  cases account <;> rfl

theorem SameSurplus.note (s : ServiceState S C) {event : Event}
    (h : ∀ account, event.countsFor account = false) : s.SameSurplus (s.note event) := by
  intro account
  simp [surplus_note, h account]

theorem SameSurplus.log (s : ServiceState S C) {record : LogRecord}
    (h : (Event.logged record).isDropped = false) : s.SameSurplus (s.note (.logged record)) :=
  .note s fun account => by
    cases account with
    | beginnings => exact h
    | _ => rfl

theorem SameSurplus.moveRegistry (s : ServiceState S C) (index : IndexId)
    (registry : RebuildRegistry) : s.SameSurplus (s.moveRegistry index registry) := by
  have hregistry : s.SameSurplus { s with registry } := .of_eq rfl rfl rfl
  unfold ServiceState.moveRegistry
  dsimp only
  split
  · exact hregistry
  · exact hregistry.trans (.note _ fun account => by cases account <;> rfl)

theorem SameSurplus.endRebuild (s : ServiceState S C) (index : IndexId) :
    s.SameSurplus (s.endRebuild index) := by
  have hmoved := SameSurplus.moveRegistry s index (s.registry.markFinished index)
  unfold ServiceState.endRebuild
  split
  · exact hmoved
  · exact hmoved.trans (.note _ fun account => by cases account <;> rfl)

end ServiceState

open ServiceState

section Walk

variable {S U C α : Type} {env : Environment S U C}

/-- However an action is interleaved with others, its own accesses leave no surplus. -/
def Action.IsBalanced (a : ServiceAction S C α) : Prop := ∀ account, a.Balances (surplus account)

/-- A handle none of whose phases leaves a surplus.  It may count and note what the service counts
and notes, and even call the service, but has to balance its accounts by the end of each phase. -/
structure Handle.IsBalanced (handle : Handle S U C) : Prop where
  prepare : ∀ index input content, (handle.prepare index input content).IsBalanced
  apply : ∀ update, (handle.apply update).IsBalanced
  setIndexed : ∀ index input, (handle.setIndexed index input).IsBalanced
  setUnindexed : ∀ index input, (handle.setUnindexed index input).IsBalanced
  indexingState : ∀ index input, (handle.indexingState index input).IsBalanced
  clear : ∀ index, (handle.clear index).IsBalanced

theorem accountClass : ActionClass (SameSurplus (S := S) (C := C)) fun {_} a => a.IsBalanced :=
  .all fun account => .all fun _ => .ofNeutral fun _ _ h => by rw [DriftMove, h account]

/-- A handle that works on the storage of each index through a handle of its own leaves no
surplus. -/
theorem Handle.isBalanced_ofStores [Inhabited S] (handles : IndexId → StoreHandle S U) :
    (ofStores handles : Handle S U C).IsBalanced := by
  have hstore : ∀ {α : Type} (index : IndexId) (a : Action S α),
      (onStore index a : ServiceAction S C α).IsBalanced := fun index a =>
    accountClass.every (Program.every_focus (fun _ _ => .of_eq rfl rfl rfl) a.program)
  exact ⟨fun _ _ _ => hstore _ _, fun _ => hstore _ _, fun _ _ => hstore _ _,
    fun _ _ => hstore _ _, fun _ _ => hstore _ _, fun _ => hstore _ _⟩

open Service

/-- What is noted that counts for no account. -/
theorem balanced_note {event : Event} (h : ∀ account, event.countsFor account = false) :
    (note event : ServiceAction S C Unit).IsBalanced :=
  accountClass.update fun s => .note s h

/-- Looking, logging and requesting rebuilds leaves no surplus. -/
theorem plainBalanced (horacle : env.oracle = .registry) :
    PlainClass env fun {_} a => a.IsBalanced where
  toActionClosure := accountClass.closure
  registered _ := accountClass.access fun s => .of_eq rfl rfl rfl
  indices := accountClass.access fun s => .of_eq rfl rfl rfl
  listeners := accountClass.access fun s => .of_eq rfl rfl rfl
  log h := accountClass.update fun s => .log s (LogRecord.not_isDropped_of_isRoutine h)
  deliver _ _ := balanced_note fun account => by cases account <;> rfl
  state index := by
    rw [horacle]
    exact accountClass.access fun s => .of_eq rfl rfl rfl
  request index cause := by
    rw [horacle]
    exact accountClass.closure.mem_requestRebuild
      (accountClass.update fun s => .of_eq rfl rfl rfl)
      (fun before => accountClass.update fun s => .log s rfl)
      (accountClass.update fun s => .of_eq rfl rfl rfl)
      (accountClass.access fun s => .moveRegistry s index _)

theorem balanced_withIndexLock (index : IndexId) {a : ServiceAction S C α} (ha : a.IsBalanced) :
    (withIndexLock index a).IsBalanced :=
  accountClass.mem_withIndexLock (fun _ _ => .of_eq rfl rfl rfl) index ha

theorem balanced_withReadLock {a : ServiceAction S C α} (ha : a.IsBalanced) :
    (withReadLock a).IsBalanced :=
  accountClass.mem_withReadLock (fun _ _ => .of_eq rfl rfl rfl) ha

variable (horacle : env.oracle = .registry) (hhandle : env.handle.IsBalanced)

include horacle hhandle

theorem balanced_applyUpdate (origin : Origin) (update : PreparedUpdate U) :
    (env.applyUpdate origin update).IsBalanced :=
  (plainBalanced horacle).mem_applyUpdate
    (balanced_note fun account => by cases account <;> rfl)
    (fun _ => balanced_note fun account => by cases account <;> rfl) (hhandle.apply update)

theorem balanced_runUpdateUnless (update : PreparedUpdate U) :
    (env.runUpdateUnless .operation update env.isGated).IsBalanced :=
  (plainBalanced horacle).mem_runUpdateUnless (balanced_withIndexLock update.index)
    (balanced_applyUpdate horacle hhandle .operation update)

omit horacle in
theorem balanced_setState (op : Operation) : (env.setState op).IsBalanced := by
  refine balanced_withReadLock ?_
  cases op.task with
  | removal => exact hhandle.setUnindexed op.index op.input
  | update content => exact hhandle.setIndexed op.index op.input

/-- The time that preparing an update takes is in no account. -/
theorem balanced_prepareTimed (index : IndexId) (input : InputId) (content : Option FileContent) :
    (env.prepareTimed index input content).IsBalanced := by
  have hP := plainBalanced horacle
  have htotal : (count (·.addToTotal env.preparationTime) : ServiceAction S C Unit).IsBalanced :=
    accountClass.update fun s => .countTotal s _
  have hmax : (count (·.raiseMax env.preparationTime) : ServiceAction S C Unit).IsBalanced :=
    accountClass.update fun s => .countMax s _
  exact hP.bind (hP.result (hhandle.prepare index input content)) fun prepared =>
    hP.bind htotal fun _ => hP.bind hmax fun _ => hP.pure prepared

end Walk

/-! ## Calls -/

/-- What an operation that has been begun owes an account until its end is noted. -/
def ServiceAccount.debt : ServiceAccount → UInt64
  | .beginnings => 1
  | _ => 0

/-- What an attempt to carry out an operation has paid of that: all of it, if the operation has been
dropped. -/
def ServiceAccount.paid {ε : Type} (account : ServiceAccount) : Except ε Outcome → UInt64
  | .ok outcome => if outcome.isConclusive then 0 else -account.debt
  | .error _ => 0

/-- What the end of a rebuild adds to an account. -/
def ServiceAccount.refilled (account : ServiceAccount) : Except Failure RebuildRun → UInt64
  | .ok .completed | .ok .rescheduled => if account = .modifications then 1 else 0
  | _ => 0

/-- What the end of a rebuild adds is what noting it takes away again. -/
theorem ServiceAccount.refilled_eq (index : IndexId) (run : Nat) (account : ServiceAccount)
    (answer : Except Failure RebuildRun) : account.refilled answer =
      if (Event.rebuildEnded index run answer.toOption).countsFor account then 1 else 0 := by
  rcases answer with _ | _ | _ | _ <;> cases account <;>
    simp [refilled, Event.countsFor, Event.isExecution, Event.isConclusion, Event.isDropped,
      Event.isChange, Event.isBump, Event.isRefill, Except.toOption]

/-- What counting an outcome adds to an account. -/
@[simp] def Outcome.credit (outcome : Outcome) : ServiceAccount → UInt64
  | .calls => 1
  | .conclusions => if outcome.isConclusive then 1 else 0
  | .changes => if outcome.storageChanged then 1 else 0
  | .beginnings | .modifications => 0

/-- What noting the end of a call to execute an operation takes from an account. -/
def ServiceAccount.due (account : ServiceAccount) (op : Operation) :
    Except Failure Outcome → UInt64
  | .ok outcome => if (Event.executed op outcome).countsFor account then 1 else 0
  | .error _ => 0

/-- What counting an outcome adds is what noting it takes away again, but for what the operation
owes. -/
theorem ServiceAccount.credit_eq (outcome : Outcome) (op : Operation) (account : ServiceAccount) :
    outcome.credit account =
      account.due op (.ok outcome) - if outcome.isConclusive then account.debt else 0 := by
  rcases outcome with (_ | _) | _ | _ | _ | _ <;> cases account <;>
    simp [due, Event.countsFor, Event.isExecution, Event.isConclusion, Event.isDropped,
      Event.isChange, Event.isBump, Event.isRefill, debt, Outcome.isConclusive,
      Outcome.storageChanged]

section Calls

open Service

variable {S U C α : Type} {env : Environment S U C} {account : ServiceAccount}

/-- An action that leaves no surplus, followed by another one. -/
theorem Action.IsBalanced.bind_drifts {β : Type} {a : ServiceAction S C α}
    {k : α → ServiceAction S C β} {post : Except Failure β → UInt64 → Prop} (ha : a.IsBalanced)
    (hk : ∀ v, (k v).Drifts (surplus account) post) (hfail : ∀ failure, post (.error failure) 0) :
    (a >>= k).Drifts (surplus account) post := by
  refine (ha account).drifts.bind (fun v d hd => ?_) fun failure d hd => ?_
  · subst hd
    simpa using hk v
  · subst hd
    exact hfail failure

theorem moves_count {f : Counters → Counters} {d : UInt64}
    (h : ∀ s : ServiceState S C,
      ({ s with counters := f s.counters } : ServiceState S C).counted account =
        s.counted account + d) :
    (count f : ServiceAction S C Unit).Moves (surplus account) d := by
  refine Action.moves_access fun s => ?_
  show _ - s.noted account = _
  rw [h, surplus]
  grind

theorem moves_note (event : Event) :
    (note event : ServiceAction S C Unit).Moves (surplus account)
      (-if event.countsFor account then 1 else 0) :=
  Action.moves_access fun s => by rw [surplus_note, sub_eq_add_neg]

theorem moves_of_same {f : ServiceState S C → α × ServiceState S C}
    (h : ∀ s : ServiceState S C, s.SameSurplus (f s).2) :
    (Action.access f).Moves (surplus account) 0 :=
  Action.moves_access fun s => by rw [h s account, add_zero]

theorem moves_log {record : LogRecord} (h : (Event.logged record).isDropped = false) :
    (log record : ServiceAction S C Unit).Moves (surplus account) 0 :=
  moves_of_same fun s => .log s h

theorem moves_bumpModCount :
    (bumpModCount : ServiceAction S C UInt64).Moves (surplus account)
      (if account = .modifications then 1 else 0) := by
  refine Action.moves_access fun s => ?_
  cases account <;> simp [surplus, counted, noted, tally]
  grind

/-- Counting an outcome adds to the accounts that the outcome counts for. -/
theorem moves_recordOutcome (outcome : Outcome) :
    (recordOutcome outcome : ServiceAction S C Unit).Moves (surplus account)
      (outcome.credit account) := by
  cases outcome with
  | applied changed =>
    have hsucceeded : (count (·.recordSucceeded) : ServiceAction S C Unit).Moves (surplus account)
        ((Outcome.applied false).credit account) :=
      moves_count fun s => by
        cases account <;>
          simp [counted, Counters.recordSucceeded, Outcome.isConclusive, Outcome.storageChanged] <;>
          grind
    have hchange : (count (·.recordChange) : ServiceAction S C Unit).Moves (surplus account)
        (if account = .changes then 1 else 0) :=
      moves_count fun s => by cases account <;> simp [counted, Counters.recordChange]
    cases changed with
    | false =>
      have h := hsucceeded.then fun _ => Action.moves_pure ()
      rwa [add_zero] at h
    | true =>
      have hsum : (Outcome.applied true).credit account = (Outcome.applied false).credit account +
          if account = .changes then 1 else 0 := by
        cases account <;> simp [Outcome.isConclusive, Outcome.storageChanged]
      rw [hsum]
      exact hsucceeded.then fun _ => hchange
  | gated =>
    exact moves_count fun s => by
      cases account <;>
        simp [counted, Counters.recordGated, Outcome.isConclusive, Outcome.storageChanged]
      grind
  | mappingFailed failure =>
    exact moves_count fun s => by
      cases account <;>
        simp [counted, Counters.recordMappingFailure, Outcome.isConclusive,
          Outcome.storageChanged] <;> grind
  | storageCorrupted cause =>
    exact moves_count fun s => by
      cases account <;>
        simp [counted, Counters.recordStorageFailure, Outcome.isConclusive,
          Outcome.storageChanged] <;> grind
  | unknownIndex =>
    exact moves_count fun s => by
      cases account <;>
        simp [counted, Counters.recordUnknownIndex, Outcome.isConclusive, Outcome.storageChanged]
      grind

theorem drifts_recorded (outcome : Outcome) :
    (recorded outcome : ServiceAction S C Outcome).Drifts (surplus account) fun r d =>
      r = .ok outcome ∧ d = outcome.credit account :=
  (moves_recordOutcome outcome).bind fun _ => Action.drifts_pure ⟨rfl, add_zero _⟩

variable (horacle : env.oracle = .registry) (hhandle : env.handle.IsBalanced)

include horacle hhandle

/-- An operation whose update has been prepared pays what it owes if it is dropped. -/
theorem drifts_carryOut (op : Operation) (update : PreparedUpdate U) :
    (env.carryOut op update).Drifts (surplus account) fun r d => d = account.paid r := by
  have happlied : ∀ changed, (do env.setState op; pure (Outcome.applied changed) :
      ServiceAction S C Outcome).Drifts (surplus account) fun r d => d = account.paid r :=
    fun changed => (balanced_setState hhandle op).bind_drifts
      (fun _ => Action.drifts_pure rfl) fun _ => rfl
  refine (balanced_runUpdateUnless horacle hhandle update).bind_drifts ?_ fun _ => rfl
  intro answer
  rcases answer with _ | changed
  · refine (moves_note (.logged (.dropped op))).bind fun _ => Action.drifts_pure ?_
    cases account <;> simp [ServiceAccount.paid, Outcome.isConclusive, ServiceAccount.debt]
  · dsimp only
    split
    · split
      · exact Action.IsBalanced.bind_drifts ((plainBalanced horacle).log rfl)
          (fun _ => happlied changed) fun _ => rfl
      · exact happlied changed
    · exact Action.drifts_pure rfl

theorem drifts_attempt (op : Operation) :
    (env.attempt op).Drifts (surplus account) fun r d => d = account.paid r := by
  refine (balanced_prepareTimed horacle hhandle op.index op.input op.task.content?).bind_drifts ?_
    fun _ => rfl
  intro prepared
  rcases prepared with cause | update
  · cases cause with
    | mapping failure =>
      exact Action.IsBalanced.bind_drifts ((plainBalanced horacle).mem_notify _)
        (fun _ => Action.drifts_pure rfl) fun _ => rfl
    | _ => exact Action.drifts_raise rfl
  · exact drifts_carryOut horacle hhandle op update

omit hhandle in
/-- Requesting a rebuild after an error does not fail. -/
theorem moves_requestRebuildOnError (cause : Error) (index : IndexId) :
    (env.requestRebuildOnError cause index).Moves (surplus account) 0 := by
  have hrequest : (env.oracle.request index (.ofError cause)).Moves (surplus account) 0 := by
    rw [horacle]
    refine Action.Moves.seq (moves_of_same fun s => .moveRegistry s index _) fun before => ?_
    cases before with
    | none => exact Action.moves_pure false
    | some before =>
      exact Action.Moves.seq (moves_of_same fun s => .of_eq rfl rfl rfl) fun _ =>
        Action.Moves.seq (moves_log rfl) fun _ =>
          Action.Moves.seq (moves_of_same fun s => .of_eq rfl rfl rfl) fun _ =>
            Action.moves_pure true
  exact Action.Moves.seq (moves_log rfl) fun _ => hrequest.seq fun _ => Action.moves_pure ()

/-- Under its mark an operation pays what it owes, and adds what is due for its outcome. -/
theorem drifts_executeMarked (op : Operation) :
    (env.executeMarked op).Drifts (surplus account) fun r d =>
      d = account.due op r - account.debt := by
  have hcaught : (env.attempt op).caught.Drifts (surplus account) fun r d =>
      ∃ answer, r = .ok answer ∧ d = account.paid answer := by
    refine Action.Drifts.caught ((drifts_attempt horacle hhandle op).mono ?_)
    rintro r _ rfl
    exact ⟨_, rfl, by cases r <;> rfl⟩
  refine hcaught.bind ?_ ?_
  · rintro answer _ ⟨_, hanswer, rfl⟩
    obtain rfl := Except.ok.inj hanswer
    cases answer with
    | ok outcome =>
      refine (drifts_recorded outcome).mono ?_
      rintro _ _ ⟨rfl, rfl⟩
      rw [ServiceAccount.credit_eq outcome op, ServiceAccount.paid]
      split <;> grind
    | error cause =>
      refine (moves_requestRebuildOnError horacle cause op.index).bind fun _ =>
        (drifts_recorded _).mono ?_
      rintro _ _ ⟨rfl, rfl⟩
      rw [ServiceAccount.credit_eq _ op]
      simp [ServiceAccount.paid, Outcome.isConclusive]
  · rintro failure _ ⟨_, hr, -⟩
    cases hr

/-- Whichever way an operation takes, what it adds to an account is what is due for its outcome. -/
theorem drifts_undertake (op : Operation) :
    (env.undertake op).Drifts (surplus account) fun r d => d = account.due op r := by
  have hP := plainBalanced horacle
  have hskipped : ∀ {record : LogRecord}, record.isRoutine = true → ∀ outcome : Outcome,
      outcome.isConclusive = false → (do
        log record
        recorded outcome : ServiceAction S C Outcome).Drifts (surplus account)
          fun r d => d = account.due op r := by
    intro record hrecord outcome houtcome
    refine Action.IsBalanced.bind_drifts (hP.log hrecord)
      (fun _ => (drifts_recorded outcome).mono ?_) fun _ => rfl
    rintro _ _ ⟨rfl, rfl⟩
    rw [ServiceAccount.credit_eq outcome op]
    simp [houtcome]
  have hbegun : (do
      let _ ← bumpModCount
      count (·.recordStarted)
      withMark op.mark (env.executeMarked op) : ServiceAction S C Outcome).Drifts (surplus account)
        fun r d => d = account.due op r := by
    have hstarted : (count (·.recordStarted) : ServiceAction S C Unit).Moves (surplus account)
        (account.debt - if account = .modifications then 1 else 0) :=
      moves_count fun s => by
        cases account <;> simp [counted, Counters.recordStarted, ServiceAccount.debt]
        grind
    have hmarked : (withMark op.mark (env.executeMarked op)).Drifts (surplus account)
        fun r d => d = account.due op r - account.debt :=
      Action.Moves.bind (Action.moves_await fun s => SameSurplus.of_eq rfl rfl rfl account) fun _ =>
        ((drifts_executeMarked horacle hhandle op).mono fun _ _ hd => by simpa using hd).ensuring
          fun s => SameSurplus.of_eq rfl rfl rfl account
    refine moves_bumpModCount.bind fun _ => hstarted.bind fun _ => hmarked.mono ?_
    rintro _ _ rfl
    grind
  refine Action.IsBalanced.bind_drifts (hP.mem_isGated _) (fun gated => ?_) fun _ => rfl
  split
  · exact hskipped rfl .gated rfl
  · refine Action.IsBalanced.bind_drifts (hP.registered _) (fun registered => ?_) fun _ => rfl
    split
    · exact hskipped rfl .unknownIndex rfl
    · exact hbegun

/-- An operation leaves no surplus. -/
theorem balanced_execute (op : Operation) : (env.execute op).IsBalanced := by
  intro account
  refine Action.Drifts.balances ((drifts_undertake horacle hhandle op).bind ?_ fun _ _ hd => hd)
  rintro outcome _ rfl
  refine (moves_note (.executed op outcome)).bind fun _ => Action.drifts_pure ?_
  simp [ServiceAccount.due]

/-- Putting a file back leaves no surplus. -/
theorem balanced_indexFile (index : IndexId) (input : InputId) (content : FileContent) :
    (env.indexFile index input content).IsBalanced := by
  have hP := plainBalanced horacle
  refine hP.mem_indexFile (fun _ => balanced_note fun account => by cases account <;> rfl)
    (accountClass.mem_withMark (fun _ _ => .of_eq rfl rfl rfl) _ ?_)
  exact hP.mem_indexMarked (hhandle.prepare index input _)
    (fun update => balanced_withIndexLock update.index
      (balanced_applyUpdate horacle hhandle .rebuild update))
    (balanced_withReadLock (hhandle.setIndexed index input))

omit hhandle in
/-- The end of a rebuild counts a modification if the files of the index have been put back. -/
theorem drifts_concludeRebuild (index : IndexId) (filled : Except Error Unit) :
    (env.concludeRebuild index filled).Drifts (surplus account) fun r d =>
      d = account.refilled r := by
  cases filled with
  | error cause =>
    refine (moves_requestRebuildOnError horacle cause index).bind fun _ => Action.drifts_raise ?_
    simp [ServiceAccount.refilled]
  | ok value =>
    have hfinish : (env.oracle.finish index).Moves (surplus account) 0 := by
      rw [horacle]
      refine Action.Moves.seq (moves_of_same fun s => .endRebuild s index) fun finished => ?_
      cases finished <;> exact Action.Moves.seq (moves_log rfl) fun _ => Action.moves_pure _
    refine moves_bumpModCount.bind fun _ => hfinish.bind fun finished => ?_
    cases finished <;> exact Action.drifts_pure (by simp [ServiceAccount.refilled])

/-- A rebuild leaves no surplus, if putting the files back leaves none. -/
theorem balanced_rebuildIndex (index : IndexId) {repopulate : ServiceAction S C Unit}
    (hrepopulate : repopulate.IsBalanced) : (env.rebuildIndex index repopulate).IsBalanced := by
  have hP := plainBalanced horacle
  have hclear : (withStructuralLock (env.clearIndex index)).IsBalanced :=
    accountClass.mem_withStructuralLock (fun _ _ => .of_eq rfl rfl rfl)
      (hP.mem_clearIndex (balanced_note fun account => by cases account <;> rfl)
        (fun _ => balanced_note fun account => by cases account <;> rfl) (hhandle.clear index))
  have hnumber : (Environment.numberRun index : ServiceAction S C Nat).IsBalanced :=
    accountClass.access fun s => SameSurplus.trans (.of_eq rfl rfl rfl)
      (.note _ fun account => by cases account <;> rfl)
  have hclaim : (env.claimAndClear index).IsBalanced :=
    hP.mem_claimAndClear (balanced_withIndexLock index)
      (hP.mem_start horacle (accountClass.access fun s => .moveRegistry s index _)) hnumber hclear
  refine hP.mem_rebuildIndex_of_refill hclaim fun run cleared account => ?_
  have hfilled : (Action.result do
      Action.resume cleared
      repopulate : ServiceAction S C _).IsBalanced :=
    hP.result (hP.bind (hP.resume cleared) fun _ => hrepopulate)
  have hrefill : (env.refill index cleared repopulate).Drifts (surplus account) fun r d =>
      d = account.refilled r :=
    hfilled.bind_drifts (fun filled => drifts_concludeRebuild horacle index filled) fun _ => rfl
  refine Action.Drifts.balances ?_
  have houtcome : (env.refill index cleared repopulate).outcome.Drifts (surplus account)
      fun r d => ∃ answer, r = .ok answer ∧ d = account.refilled answer :=
    Action.Drifts.outcome (hrefill.mono fun r _ hd => ⟨r, rfl, hd⟩)
  refine houtcome.bind ?_ ?_
  · rintro answer _ ⟨_, hanswer, rfl⟩
    obtain rfl := Except.ok.inj hanswer
    refine (moves_note _).bind fun _ => Action.drifts_resume ?_
    rw [ServiceAccount.refilled_eq index run account answer]
    grind
  · rintro failure _ ⟨_, hr, -⟩
    cases hr

omit horacle hhandle in
/-- A modification on somebody's own account leaves no surplus. -/
theorem balanced_increaseModCount : (increaseModCount : ServiceAction S C UInt64).IsBalanced := by
  intro account
  refine Action.Drifts.balances ?_
  refine moves_bumpModCount.bind fun _ => (moves_note _).bind fun _ => Action.drifts_pure ?_
  simp

/-- No call leaves a surplus. -/
theorem balancedCalls : CallClass env (fun _ => True) fun _ {_} a => a.IsBalanced where
  closure _ := accountClass.closure
  registered _ := (plainBalanced horacle).indices
  apply _ := accountClass.closure.mem_apply (balanced_execute horacle hhandle)
    (fun _ _ => accountClass.update fun s => .log s rfl) fun _ =>
      accountClass.access fun _ => .of_eq rfl rfl rfl
  bump _ := balanced_increaseModCount
  execute _ := balanced_execute horacle hhandle
  request _ := (plainBalanced horacle).request
  rebuild _ index _ := balanced_rebuildIndex horacle hhandle index
  indexFile := balanced_indexFile horacle hhandle
  indexingState _ index input := (plainBalanced horacle).mem_indexingState
    (balanced_withReadLock (hhandle.indexingState index input))

/-- No list of commands leaves a surplus. -/
theorem balanced_runAll (session : Option IndexId) (commands : List Command) :
    (Command.runAll env session commands).IsBalanced :=
  (balancedCalls horacle hhandle).mem_runAll session commands
    (Command.rebuildsOnlyAll_of_forall (fun _ => trivial) commands)

end Calls

/-! ## Between two calls -/

/-- There is a way through a program: some states that it may find lead it to its end. -/
inductive Program.MayEnd {σ α : Type} : Program σ α → Prop where
  | done (a : α) : MayEnd (.done a)
  | step {ready : σ → Bool} {act : σ → σ} {next : σ → Program σ α} (s : σ) : ready s = true →
      MayEnd (next s) → MayEnd (.step ready act next)

section MayEnd

variable {σ M α β : Type}

theorem Program.MayEnd.bind {p : Program σ α} {k : α → Program σ β} (h : p.MayEnd)
    (hk : ∀ a, (k a).MayEnd) : (p.bind k).MayEnd := by
  induction h with
  | done a => exact hk a
  | step s hready _ ih => exact .step s hready ih

/-- Where there is a way through a program, only one place fits its end. -/
theorem Program.MayEnd.unique [AddCommGroup M] {φ : σ → M} {p : Program σ α} (h : p.MayEnd)
    {l m m' : M} (hm : p.Obeys (DriftMove φ) (fun _ l' => l' = m) l)
    (hm' : p.Obeys (DriftMove φ) (fun _ l' => l' = m') l) : m = m' := by
  induction h generalizing l with
  | done a => exact hm.symm.trans hm'
  | step s hready _ ih =>
    obtain ⟨l₁, hmove₁, hnext₁⟩ := hm s hready
    obtain ⟨l₂, hmove₂, hnext₂⟩ := hm' s hready
    obtain rfl : l₁ = l₂ := add_left_cancel (hmove₁.symm.trans hmove₂)
    exact ih hnext₁ hnext₂

theorem mayEndClosure : ActionClosure fun {_} (a : Action σ _) => a.program.MayEnd where
  resume r := by cases r <;> exact .done _
  bind ha hk := by
    refine ha.bind ?_
    intro r
    cases r with
    | ok v => exact hk v
    | error failure => exact .done _
  outcome ha := ha.bind fun _ => .done _

theorem mayEnd_access (s : σ) (f : σ → α × σ) : (Action.access f).program.MayEnd :=
  .step s rfl (.done _)

/-- What follows an access may end if it does so for one state that the access may find. -/
theorem mayEnd_access_bind (s : σ) {f : σ → α × σ} {k : α → Action σ β}
    (h : (k (f s).1).program.MayEnd) : (Action.access f >>= k).program.MayEnd := .step s rfl h

end MayEnd

section Quiet

variable {S U C : Type} {env : Environment S U C}

open Service

/-- There is a way through every list of commands.  All calls that need an index come to an end if
they find that it is not registered. -/
theorem mayEnd_runAll (horacle : env.oracle = .registry) (s : ServiceState S C)
    (commands : List Command) : (Command.runAll env none commands).program.MayEnd := by
  have hP : TallyClass env fun {_} a => a.program.MayEnd := {
    mayEndClosure with
    registered := fun _ => mayEnd_access s _
    indices := mayEnd_access s _
    listeners := mayEnd_access s _
    log := fun _ => mayEnd_access s _
    deliver := fun _ _ => mayEnd_access s _
    state := fun index => by
      rw [horacle]
      exact mayEnd_access s _
    request := fun index cause => by
      rw [horacle]
      exact mayEndClosure.mem_requestRebuild (mayEnd_access s _) (fun _ => mayEnd_access s _)
        (mayEnd_access s _) (mayEnd_access s _)
    drop := fun _ => mayEnd_access s _
    count := fun _ => mayEnd_access s _
    bump := mayEnd_access s _ }
  have hunregistered : ∀ {α : Type} {index : IndexId} {k : Bool → ServiceAction S C α},
      (k false).program.MayEnd → (isRegistered index >>= k).program.MayEnd := by
    intro α index k h
    refine mayEnd_access_bind { s with stores := ∅ } ?_
    simpa [ServiceState.isRegistered] using h
  have hundertake : ∀ op, (env.undertake op).program.MayEnd := by
    intro op
    refine hP.bind (hP.mem_isGated _) fun gated => ?_
    split
    · exact hP.bind (hP.log rfl) fun _ => hP.mem_recorded .gated
    · exact hunregistered (hP.bind (hP.log rfl) fun _ => hP.mem_recorded .unknownIndex)
  have hexecute : ∀ op, (env.execute op).program.MayEnd := fun op =>
    hP.bind (hundertake op) fun outcome => hP.bind (mayEnd_access s _) fun _ => hP.pure outcome
  have hcalls : CallClass env (fun _ => True) fun session {_} a =>
      session = none → a.program.MayEnd := {
    closure := fun session =>
      ⟨fun r _ => hP.resume r, fun ha hk h => hP.bind (ha h) fun v => hk v h,
        fun ha h => hP.outcome (ha h)⟩
    registered := fun _ _ => hP.indices
    apply := fun _ application _ => hP.toActionClosure.mem_apply hexecute
      (fun _ _ => mayEnd_access s _) (fun _ => mayEnd_access s _) application
    bump := fun _ _ => hP.bind hP.bump fun _ => hP.bind (mayEnd_access s _) fun _ => hP.pure _
    execute := fun _ op _ => hexecute op
    request := fun _ index cause _ => hP.request index cause
    rebuild := fun _ _ _ _ _ _ => hunregistered (hP.raise _)
    indexFile := fun _ _ _ h => by cases h
    indexingState := fun _ _ _ _ => hunregistered (hP.pure _) }
  exact hcalls.mem_runAll none commands
    (Command.rebuildsOnlyAll_of_forall (fun _ => trivial) commands) rfl

/-- Every thread is between two calls: what is left of it is to carry out commands. -/
def Pool.IsQuiet (env : Environment S U C) (p : Pool (ServiceState S C) (Except Failure Unit)) :
    Prop :=
  ∀ t ∈ p.threads, ∃ commands, t = (Command.runAll env none commands).program

/-- A pool whose threads are all done is quiet. -/
theorem Pool.isQuiet_of_isDone {p : Pool (ServiceState S C) (Except Failure Unit)}
    (hdone : p.isDone = true) : p.IsQuiet env := by
  intro t ht
  have hresult : t.result?.isSome = true := List.all_eq_true.1 hdone t ht
  cases t with
  | step ready act next => simp [Program.result?] at hresult
  | done r =>
    cases r with
    | ok value => exact ⟨[], by rw [Command.runAll]; rfl⟩
    | error failure => exact ⟨[.fail failure], by rw [Command.runAll, Command.run]; rfl⟩

/-- A service in which nothing has happened is balanced. -/
theorem isBalanced_ofStores (config : Config) (stores : Std.ExtTreeMap IndexId S)
    (writersFirst : Bool) (client : C) :
    (ServiceState.ofStores config stores writersFirst client).IsBalanced := by
  constructor <;> simp [ServiceState.ofStores, tally, Counters.zero]

/-- A state with the surplus of a balanced one is balanced. -/
theorem ServiceState.IsBalanced.of_same {s t : ServiceState S C} (hs : s.IsBalanced)
    (h : s.SameSurplus t) : t.IsBalanced := by
  have hcalls := h .calls
  have hconclusions := h .conclusions
  have hbeginnings := h .beginnings
  have hchanges := h .changes
  have hmodifications := h .modifications
  simp only [surplus, counted, noted, Event.countsFor, tally_or Event.not_isConclusion_of_isDropped,
    tally_or Event.not_isBump_of_isRefill]
    at hcalls hconclusions hbeginnings hchanges hmodifications
  obtain ⟨hs₁, hs₂, hs₃, hs₄⟩ := hs
  constructor <;> grind

/-- Whatever threads carry out operations, count modifications of their own and rebuild indices, and
whatever their handle does: whenever every thread is between two calls, the counters agree with the
journal, modulo 2^64. -/
theorem balanced_of_quiet (env : Environment S U C) (horacle : env.oracle = .registry)
    (hhandle : env.handle.IsBalanced) (s : ServiceState S C) (hs : s.IsBalanced)
    (commands : List (List Command)) (q : Pool (ServiceState S C) (Except Failure Unit))
    (hq : (env.threads s commands).Reaches q) (hquiet : q.IsQuiet env) : q.state.IsBalanced := by
  refine hs.of_same fun account => ?_
  have hobeys : (env.threads s commands).Obeys (fun _ => DriftMove (surplus account))
      (fun _ _ l => l = 0) fun _ => 0 := by
    intro i t ht
    obtain ⟨list, -, rfl⟩ := List.mem_map.1 (List.mem_of_getElem? ht)
    exact balanced_runAll horacle hhandle none list account 0
  obtain ⟨h, htrace⟩ := Pool.traced_of_reaches hq
  obtain ⟨place, hsum, hplaces⟩ := htrace.sum_drifts hobeys
  have hzero : ∀ i ∈ Finset.range q.threads.length, place i = 0 := by
    intro i hi
    have hget := List.getElem?_eq_getElem (Finset.mem_range.1 hi)
    obtain ⟨list, hlist⟩ := hquiet _ (List.getElem_mem (Finset.mem_range.1 hi))
    have hthread := hplaces i _ hget
    rw [hlist] at hthread
    exact (mayEnd_runAll horacle s list).unique
      (balanced_runAll horacle hhandle none list account (place i)) hthread
  rw [hsum, Finset.sum_eq_zero hzero, add_zero]
  rfl

end Quiet

namespace Sample

/-- A service whose indexer panics at empty files. -/
def brittle : Environment (MemoryIndex Nat Nat) (Mapping Nat Nat) Unit :=
  .memory .standard fun _ content =>
    if content.size = 0 then .error (.panic (.text "empty file"))
    else .ok (Std.ExtTreeMap.empty.insert content.size 1)

/-- One thread updates a file and counts a modification, another one updates an empty file and
rebuilds the index. -/
def mishaps : List (List Command) :=
  [[.execute (.update sizes (content 3) ⟨1⟩ .synchronous), .bump],
    [.execute (.update sizes (content 0) ⟨2⟩ .synchronous), .rebuild sizes []]]

/-- The panic closes the gate between the two looks of the first thread at it. -/
def overlooking : List Nat :=
  List.replicate 5 0 ++ List.replicate 12 1 ++ List.replicate 40 0 ++ List.replicate 40 1

end Sample

/-- One operation has been dropped, another one has failed, and the index has been rebuilt. -/
theorem balanced_of_quiet_mishaps :
    ∃ q, (Sample.brittle.threads Sample.state Sample.mishaps).Reaches q ∧
      q.IsQuiet Sample.brittle ∧ q.state.tally Event.isDropped = 1 ∧ q.state.modCount = 4 ∧
      q.state.IsBalanced := by
  obtain ⟨q, hq⟩ : ∃ q, (Sample.brittle.threads Sample.state Sample.mishaps).follow
      Sample.overlooking = q := ⟨_, rfl⟩
  have hreaches : (Sample.brittle.threads Sample.state Sample.mishaps).Reaches q := by
    rw [← hq]
    exact Pool.reaches_follow _ _
  have hquiet : q.IsQuiet Sample.brittle := by
    refine Pool.isQuiet_of_isDone ?_
    rw [← hq]
    decide +kernel
  have hcounts : q.state.tally Event.isDropped = 1 ∧ q.state.modCount = 4 := by
    rw [← hq]
    decide +kernel
  exact ⟨q, hreaches, hquiet, hcounts.1, hcounts.2, balanced_of_quiet Sample.brittle rfl
    (Handle.isBalanced_ofStores _) Sample.state (isBalanced_ofStores _ _ _ _) Sample.mishaps q
    hreaches hquiet⟩

end FileIndexing
