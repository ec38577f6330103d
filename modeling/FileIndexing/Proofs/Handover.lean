import FileIndexing.Proofs.Oblivious
import FileIndexing.Service.Workers
import Mathlib.Logic.Relation

/-!
# Handing operations over to a worker

A caller hands the operations for a file over to the workers and gets a ticket.  It waits for the
result, or it throws the ticket away at any time, while a worker carries the operations out.

* `Environment.entrust` is such a caller.
* `Underway` lists the crews that come about on the way, with a bound on the accesses still to come.
  What the caller does meanwhile makes no difference to the worker, because operations are
  oblivious to it (`oblivious_applyNow`).
* `Underway.step` says that every access brings a crew nearer to its end, and `Underway.handedOver`
  that it is not stuck before.
* `entrust_ends` is the result: in whatever order the caller and the worker go on, they come to an
  end, and then there is what the operations leave when they are carried out at once.
-/

namespace FileIndexing

open FileIndexing.Action Service

variable {S U C α : Type}

/-! ## Accesses -/

namespace Program

variable {σ : Type}

/-- The number of accesses that a program makes alone until it is done or has to wait. -/
def accesses : Program σ α → σ → Nat
  | .done _, _ => 0
  | .step ready act next, s => if ready s then (next s).accesses (act s) + 1 else 0

@[simp] theorem not_step_done (a : α) (s : σ) (q : Program σ α) (t : σ) :
    ¬ (Program.done a).Step s q t := by
  rintro ⟨⟩

theorem step_step_iff {ready : σ → Bool} {act : σ → σ} {next : σ → Program σ α} {s : σ}
    {q : Program σ α} {t : σ} :
    (Program.step ready act next).Step s q t ↔ ready s = true ∧ q = next s ∧ t = act s := by
  constructor
  · rintro ⟨_, _, _, _, hready⟩
    exact ⟨hready, rfl, rfl⟩
  · rintro ⟨hready, rfl, rfl⟩
    exact .step ready act next s hready

end Program

namespace Crew

variable {env : Environment S U C} {limit : Nat} {s : ServiceState S C}
  {p : Program (ServiceState S C) α}
  {busy : List (Program (ServiceState S C) (Except Failure Unit))} {d : Crew S C α}

/-- What one access, or the taking or ending of work, leads to while there are a single thread and
at most one worker. -/
theorem Step.single_cases (h : Step env limit ⟨s, [p], busy⟩ d) (hbusy : busy.length ≤ 1) :
    (∃ q t, p.Step s q t ∧ d = ⟨t, [q], busy⟩) ∨
      (∃ w w' t, busy = [w] ∧ w.Step s w' t ∧ d = ⟨t, [p], [w']⟩) ∨
      hire? env limit ⟨s, [p], busy⟩ = some d ∨
      (∃ r, busy = [.done r] ∧ d = ⟨s, [p], []⟩) := by
  have hsplit : ∀ {β : Type} {before after list : List β} {a : β}, before ++ a :: after = list →
      list.length ≤ 1 → before = [] ∧ after = [] := by
    rintro β before after list a rfl hlength
    simp only [List.length_append, List.length_cons] at hlength
    exact ⟨List.length_eq_zero_iff.1 (by omega), List.length_eq_zero_iff.1 (by omega)⟩
  generalize hc : (⟨s, [p], busy⟩ : Crew S C α) = c at h
  cases h with
  | thread before after p q s t busy hstep =>
    obtain ⟨rfl, hthreads, rfl⟩ := Crew.mk.inj hc
    obtain ⟨rfl, rfl⟩ := hsplit hthreads.symm (Nat.le_refl 1)
    obtain ⟨rfl, -⟩ := List.cons.inj hthreads
    exact .inl ⟨q, t, hstep, rfl⟩
  | worker threads before after p q s t hstep =>
    obtain ⟨rfl, rfl, rfl⟩ := Crew.mk.inj hc
    obtain ⟨rfl, rfl⟩ := hsplit rfl hbusy
    exact .inr (.inl ⟨p, q, t, rfl, hstep, rfl⟩)
  | hire c d hhire => exact .inr (.inr (.inl (hc ▸ hhire)))
  | retire s threads before after r =>
    obtain ⟨rfl, rfl, rfl⟩ := Crew.mk.inj hc
    obtain ⟨rfl, rfl⟩ := hsplit rfl hbusy
    exact .inr (.inr (.inr ⟨r, rfl, rfl⟩))

theorem step_thread {q : Program (ServiceState S C) α} {t : ServiceState S C} (h : p.Step s q t) :
    Step env limit ⟨s, [p], busy⟩ ⟨t, [q], busy⟩ := .thread [] [] p q s t busy h

theorem step_worker {threads : List (Program (ServiceState S C) α)}
    {w w' : Program (ServiceState S C) (Except Failure Unit)} {t : ServiceState S C}
    (h : w.Step s w' t) : Step env limit ⟨s, threads, [w]⟩ ⟨t, threads, [w']⟩ :=
  .worker threads [] [] w w' s t h

theorem step_hire {threads : List (Program (ServiceState S C) α)} {ticket : Nat}
    {application : FileApplication} {queue : List (Nat × FileApplication)}
    (hqueue : s.deferred.queue = (ticket, application) :: queue) (hlimit : busy.length < limit) :
    Step env limit ⟨s, threads, busy⟩ ⟨s.withDeferred { s.deferred with queue }, threads,
      busy ++ [(env.work ticket application).program]⟩ := by
  refine .hire _ _ ?_
  simp [hire?, hqueue, hlimit, ServiceState.withDeferred]

end Crew

/-! ## What is left to the workers -/

namespace DeferredWork

/-- Nothing waits for a worker, and the next ticket is a new one. -/
structure IsIdle (d : DeferredWork) : Prop where
  queue : d.queue = []
  delivered : ∀ delivery ∈ d.deliveries, delivery.1 < d.nextTicket
  abandoned : ∀ ticket ∈ d.abandoned, ticket < d.nextTicket

theorem isIdle_empty : empty.IsIdle := ⟨rfl, by simp [empty], by simp [empty]⟩

/-- What there is after an application was handed over: what still waits for a worker, whether its
result was delivered, and whether the ticket was thrown away. -/
def after (d : DeferredWork) (result : FileApplicationResult) (queue : List (Nat × FileApplication))
    (delivered abandoned : Bool) : DeferredWork where
  queue := queue
  nextTicket := d.nextTicket + 1
  deliveries := if delivered then (d.nextTicket, .arrived result) :: d.deliveries else d.deliveries
  abandoned := if abandoned then d.nextTicket :: d.abandoned else d.abandoned

variable {d : DeferredWork} (hidle : d.IsIdle)

include hidle

theorem submit_eq_after (application : FileApplication) (result : FileApplicationResult) :
    d.submit application =
      (d.nextTicket, d.after result [(d.nextTicket, application)] false false) := by
  simp [submit, after, hidle.queue]

theorem delivery?_after (result : FileApplicationResult) (queue : List (Nat × FileApplication))
    (delivered abandoned : Bool) :
    (d.after result queue delivered abandoned).delivery? d.nextTicket =
      if delivered then some (.arrived result) else none := by
  cases delivered with
  | true => simp [delivery?, after]
  | false =>
    show d.deliveries.lookup d.nextTicket = none
    refine List.lookup_eq_none_iff.2 fun delivery hmem => ?_
    have hlt := hidle.delivered delivery hmem
    simpa using Nat.ne_of_gt hlt

theorem deliver_after (result : FileApplicationResult) (queue : List (Nat × FileApplication))
    (abandoned : Bool) :
    (d.after result queue false abandoned).deliver d.nextTicket (.arrived result) =
      (!abandoned, d.after result queue (!abandoned) abandoned) := by
  cases abandoned with
  | true => simp [deliver, after]
  | false =>
    have hfresh : d.nextTicket ∉ d.abandoned := fun hmem => (hidle.abandoned _ hmem).false
    simp [deliver, after, hfresh]

end DeferredWork

/-! ## The caller and the worker -/

namespace Service

/-- Waits for the result of the operations for a file, or throws it away. -/
def keepOrDiscard (keep : Bool) (handle : ApplicationHandle) :
    ServiceAction S C (Option FileApplicationResult) :=
  match keep with
  | true => some <$> wait handle
  | false => do
    discard handle
    pure none

/-- What is left to do once the wait for a delivery is over. -/
def collectDelivery (ticket : Nat) : ServiceAction S C (Option FileApplicationResult) := do
  let delivery? ← Action.read fun s => s.deferred.delivery? ticket
  some <$> match delivery? with
    | some delivery => Action.resume (delivery.received.mapError .error)
    | none => Action.raise lostResult

/-- What a worker does with the result of the operations for a file. -/
def handIn (ticket : Nat) (result : FileApplicationResult) : ServiceAction S C Unit := do
  let delivered ← Action.access fun s =>
    let (delivered, deferred) := s.deferred.deliver ticket (.arrived result)
    (delivered, { s with deferred })
  if !delivered then log .resultDropped

end Service

namespace Environment

/-- A caller that has the operations for a file carried out, and that keeps the result or throws it
away. -/
def entrust (env : Environment S U C) (application : FileApplication) (keep : Bool) :
    ServiceAction S C (Option FileApplicationResult) := do
  keepOrDiscard keep (← env.apply application)

end Environment

section Programs

variable {env : Environment S U C} {application : FileApplication} {result : FileApplicationResult}

theorem program_entrust (hmode : application.mode = .deferred) (keep : Bool) :
    (env.entrust application keep).program =
      .step (fun _ => true) (fun s => s.withDeferred (s.deferred.submit application).2)
        fun s => (keepOrDiscard keep (.pending (s.deferred.submit application).1)).program := by
  unfold Environment.entrust Environment.apply
  rw [hmode]
  rfl

theorem program_keep (ticket : Nat) :
    (keepOrDiscard true (.pending ticket) : ServiceAction S C _).program =
      .step (fun s => (s.deferred.delivery? ticket).isSome) id
        fun _ => (collectDelivery ticket).program := rfl

theorem program_discard (ticket : Nat) :
    (keepOrDiscard false (.pending ticket) : ServiceAction S C _).program =
      .step (fun _ => true) (fun s => s.withDeferred (s.deferred.abandon ticket))
        fun _ => .done (.ok none) := rfl

/-- Once the operations have ended, a worker hands their result in. -/
theorem exists_program_work (env : Environment S U C) (ticket : Nat)
    (application : FileApplication) (result : FileApplicationResult) :
    ∃ k : Except Failure FileApplicationResult → Program (ServiceState S C) (Except Failure Unit),
      (env.work ticket application).program = (env.applyNow application).program.bind k ∧
        k (.ok result) = (handIn ticket result).program :=
  ⟨_, Program.bind_assoc _ _ _, rfl⟩

/-- A look at a result that was delivered. -/
theorem step_collectDelivery {ticket : Nat} {s t : ServiceState S C}
    {q : Program (ServiceState S C) (Except Failure (Option FileApplicationResult))}
    (hdelivered : s.deferred.delivery? ticket = some (.arrived result)) :
    (collectDelivery ticket).program.Step s q t ↔ q = .done (.ok (some result)) ∧ t = s := by
  refine Program.step_step_iff.trans ?_
  simp only [hdelivered]
  exact ⟨fun h => ⟨h.2.1, h.2.2⟩, fun h => ⟨trivial, h.1, h.2⟩⟩

/-- A result is handed in. -/
theorem step_handIn {ticket : Nat} {s t : ServiceState S C}
    {q : Program (ServiceState S C) (Except Failure Unit)} {accepted : Bool} {d : DeferredWork}
    (hdeliver : s.deferred.deliver ticket (.arrived result) = (accepted, d)) :
    (handIn ticket result).program.Step s q t ↔
      q = (if !accepted then log .resultDropped else pure () : ServiceAction S C Unit).program ∧
        t = s.withDeferred d := by
  refine Program.step_step_iff.trans ?_
  simp only [hdeliver]
  exact ⟨fun h => ⟨h.2.1, h.2.2⟩, fun h => ⟨trivial, h.1, h.2⟩⟩

end Programs

section Underway

variable (env : Environment S U C) (application : FileApplication)
  (s u : ServiceState S C) (result : FileApplicationResult)

/-- What is left of the program of a caller that has got its ticket, and how many accesses that may
still be.  It is told whether the result was delivered, and whether the ticket was thrown away. -/
inductive Caller (ticket : Nat) : Bool → Bool → Bool → Nat →
    Program (ServiceState S C) (Except Failure (Option FileApplicationResult)) → Prop where
  | waiting (delivered : Bool) :
      Caller ticket true delivered false 2 (keepOrDiscard true (.pending ticket)).program
  | collecting : Caller ticket true true false 1 (collectDelivery ticket).program
  | served : Caller ticket true true false 0 (.done (.ok (some result)))
  | leaving (delivered : Bool) :
      Caller ticket false delivered false 1 (keepOrDiscard false (.pending ticket)).program
  | gone (delivered : Bool) : Caller ticket false delivered true 0 (.done (.ok none))

/-- The state that a worker leaves: it has delivered the result, or it has found that the ticket was
thrown away and logged that. -/
inductive Concluded : Bool → Bool → ServiceState S C → Prop where
  | delivered (abandoned : Bool) : Concluded true abandoned u
  | dropped : Concluded false true (u.note (.logged .resultDropped))

/-- How far the work on an application is, how many accesses there may still be, and the state apart
from what is left to the workers. -/
inductive Worker : List (Nat × FileApplication) → Bool → Bool → Nat → ServiceState S C →
    List (Program (ServiceState S C) (Except Failure Unit)) → Prop where
  | queued (abandoned : Bool) :
      Worker [(s.deferred.nextTicket, application)] false abandoned
        ((env.applyNow application).program.accesses s + 4) s []
  | working (abandoned : Bool)
      {p : Program (ServiceState S C) (Except Failure FileApplicationResult)}
      {k : Except Failure FileApplicationResult → Program (ServiceState S C) (Except Failure Unit)}
      {t : ServiceState S C} :
      (∀ d, p.IsOblivious (.withDeferred d)) → p.run t = some (.ok result, u) →
      k (.ok result) = (handIn s.deferred.nextTicket result).program →
      Worker [] false abandoned (p.accesses t + 3) t [p.bind k]
  | dropping : Worker [] false true 2 u [(log .resultDropped : ServiceAction S C Unit).program]
  | done {delivered abandoned : Bool} {t : ServiceState S C} : Concluded u delivered abandoned t →
      Worker [] delivered abandoned 1 t [.done (.ok ())]
  | free {delivered abandoned : Bool} {t : ServiceState S C} : Concluded u delivered abandoned t →
      Worker [] delivered abandoned 0 t []

/-- A crew on the way from the caller's start to the end, and how many accesses there may still
be. -/
inductive Underway (keep : Bool) : Nat → Crew S C (Except Failure (Option FileApplicationResult)) →
    Prop where
  | starting : Underway keep ((env.applyNow application).program.accesses s + 7)
      ⟨s, [(env.entrust application keep).program], []⟩
  | handed {queue : List (Nat × FileApplication)} {delivered abandoned : Bool} {i j : Nat}
      {t : ServiceState S C}
      {p : Program (ServiceState S C) (Except Failure (Option FileApplicationResult))}
      {busy : List (Program (ServiceState S C) (Except Failure Unit))} :
      Caller result s.deferred.nextTicket keep delivered abandoned i p →
      Worker env application s u result queue delivered abandoned j t busy →
      Underway keep (i + j)
        ⟨t.withDeferred (s.deferred.after result queue delivered abandoned), [p], busy⟩

end Underway

section Steps

variable {env : Environment S U C} {application : FileApplication} {s u t t' : ServiceState S C}
  {result : FileApplicationResult} {queue : List (Nat × FileApplication)}
  {delivered abandoned keep : Bool} {i j : Nat}
  {p q : Program (ServiceState S C) (Except Failure (Option FileApplicationResult))}
  {busy : List (Program (ServiceState S C) (Except Failure Unit))}

/-- An access of the caller may throw the ticket away and changes nothing else. -/
theorem Caller.step (hidle : s.deferred.IsIdle)
    (hp : Caller result s.deferred.nextTicket keep delivered abandoned i p)
    (h : p.Step (t.withDeferred (s.deferred.after result queue delivered abandoned)) q t') :
    ∃ abandoned' i', i' < i ∧ (abandoned' = abandoned ∨ abandoned = false) ∧
      Caller result s.deferred.nextTicket keep delivered abandoned' i' q ∧
      t' = t.withDeferred (s.deferred.after result queue delivered abandoned') := by
  have hdelivery := DeferredWork.delivery?_after hidle result queue delivered abandoned
  cases hp with
  | waiting =>
    rw [program_keep, Program.step_step_iff] at h
    obtain ⟨hready, rfl, rfl⟩ := h
    have hdelivered : delivered = true := by
      cases delivered with
      | true => rfl
      | false => simp [ServiceState.withDeferred, hdelivery] at hready
    subst hdelivered
    exact ⟨false, 1, by omega, .inl rfl, .collecting, rfl⟩
  | collecting =>
    rw [step_collectDelivery hdelivery] at h
    obtain ⟨rfl, rfl⟩ := h
    exact ⟨false, 0, by omega, .inl rfl, .served, rfl⟩
  | served => exact absurd h (Program.not_step_done _ _ _ _)
  | leaving =>
    rw [program_discard, Program.step_step_iff] at h
    obtain ⟨-, rfl, rfl⟩ := h
    exact ⟨true, 0, by omega, .inr rfl, .gone delivered, rfl⟩
  | gone => exact absurd h (Program.not_step_done _ _ _ _)

/-- The caller is not stuck before it has what it wants, once the worker has concluded. -/
theorem Caller.over_of_stuck (hidle : s.deferred.IsIdle)
    (hp : Caller result s.deferred.nextTicket keep delivered abandoned i p)
    (hconcluded : Concluded u delivered abandoned t)
    (hstuck : ∀ q t',
      ¬ p.Step (t.withDeferred (s.deferred.after result queue delivered abandoned)) q t') :
    p = .done (.ok (if keep then some result else none)) ∧ abandoned = !keep := by
  have hdelivery := DeferredWork.delivery?_after hidle result queue delivered abandoned
  cases hp with
  | waiting =>
    cases hconcluded
    refine absurd (Program.step_step_iff.2 ⟨?_, rfl, rfl⟩) (hstuck _ _)
    simp [ServiceState.withDeferred, hdelivery]
  | collecting => exact absurd ((step_collectDelivery hdelivery).2 ⟨rfl, rfl⟩) (hstuck _ _)
  | served => exact ⟨rfl, rfl⟩
  | leaving => exact absurd (Program.step_step_iff.2 ⟨rfl, rfl, rfl⟩) (hstuck _ _)
  | gone => exact ⟨rfl, rfl⟩

/-- The caller takes notice of a delivery only when it looks. -/
theorem Caller.deliver (hp : Caller result s.deferred.nextTicket keep false abandoned i p) :
    Caller result s.deferred.nextTicket keep true abandoned i p := by
  cases hp with
  | waiting => exact .waiting true
  | leaving => exact .leaving true
  | gone => exact .gone true

/-- The worker takes notice of a ticket's having been thrown away only when it delivers. -/
theorem Worker.abandon (hw : Worker env application s u result queue delivered false j t busy) :
    Worker env application s u result queue delivered true j t busy := by
  cases hw with
  | queued => exact .queued true
  | working _ hp hrun hk => exact .working true hp hrun hk
  | done hconcluded =>
    cases hconcluded
    exact .done (.delivered true)
  | free hconcluded =>
    cases hconcluded
    exact .free (.delivered true)

/-- An access of the worker brings it nearer to its end. -/
theorem Worker.step (hidle : s.deferred.IsIdle)
    {w w' : Program (ServiceState S C) (Except Failure Unit)}
    (hw : Worker env application s u result queue delivered abandoned j t [w])
    (h : w.Step (t.withDeferred (s.deferred.after result queue delivered abandoned)) w' t') :
    ∃ delivered' j' v, j' < j ∧ (delivered' = delivered ∨ delivered = false) ∧
      Worker env application s u result [] delivered' abandoned j' v [w'] ∧
      t' = v.withDeferred (s.deferred.after result [] delivered' abandoned) := by
  cases hw with
  | @working _ p k _ hp hrun hk =>
    cases p with
    | done r =>
      obtain ⟨rfl, rfl⟩ := Prod.mk.inj (Option.some.inj hrun)
      rw [Program.bind, hk, step_handIn (DeferredWork.deliver_after hidle result [] abandoned)] at h
      obtain ⟨rfl, rfl⟩ := h
      cases abandoned with
      | true => exact ⟨false, 2, t, by simp [Program.accesses], .inl rfl, .dropping, rfl⟩
      | false =>
        exact ⟨true, 1, t, by simp [Program.accesses], .inr rfl, .done (.delivered false), rfl⟩
    | step ready act next =>
      obtain ⟨-, rfl, rfl⟩ := Program.step_step_iff.1 h
      obtain ⟨-, hact, hnext, -⟩ := hp (s.deferred.after result [] false abandoned) t
      rw [Program.run] at hrun
      split at hrun
      · next hready =>
        refine ⟨false, (next t).accesses (act t) + 3, act t, ?_, .inl rfl, ?_, hact⟩
        · simp [Program.accesses, hready]
        · simp only [hnext]
          exact .working abandoned (fun d => (hp d t).2.2.2) hrun hk
      · cases hrun
  | dropping =>
    obtain ⟨-, rfl, rfl⟩ := Program.step_step_iff.1 h
    exact ⟨false, 1, u.note (.logged .resultDropped), by omega, .inl rfl, .done .dropped, rfl⟩
  | done => exact absurd h (Program.not_step_done _ _ _ _)

/-- The worker is not stuck before it is free again. -/
theorem Worker.concluded_of_stuck {limit : Nat} (hlimit : 0 < limit) {α : Type}
    {threads : List (Program (ServiceState S C) α)}
    (hw : Worker env application s u result queue delivered abandoned j t busy)
    (hstuck : ∀ d, ¬ Crew.Step env limit
      ⟨t.withDeferred (s.deferred.after result queue delivered abandoned), threads, busy⟩ d) :
    queue = [] ∧ busy = [] ∧ Concluded u delivered abandoned t := by
  cases hw with
  | queued => exact absurd (Crew.step_hire rfl hlimit) (hstuck _)
  | @working _ p k _ hp hrun hk =>
    cases p with
    | done r =>
      obtain ⟨rfl, rfl⟩ := Prod.mk.inj (Option.some.inj hrun)
      rw [Program.bind, hk] at hstuck
      exact absurd (Crew.step_worker (Program.step_step_iff.2 ⟨rfl, rfl, rfl⟩)) (hstuck _)
    | step ready act next =>
      obtain ⟨hready, -⟩ := hp (s.deferred.after result [] false abandoned) t
      refine absurd (Crew.step_worker (Program.step_step_iff.2 ⟨?_, rfl, rfl⟩)) (hstuck _)
      rw [Program.run] at hrun
      split at hrun
      · next hnow => rw [hready, hnow]
      · cases hrun
  | dropping =>
    exact absurd (Crew.step_worker (Program.step_step_iff.2 ⟨rfl, rfl, rfl⟩)) (hstuck _)
  | done => exact absurd (Crew.Step.retire _ _ [] [] _) (hstuck _)
  | free hconcluded => exact ⟨rfl, rfl, hconcluded⟩

/-- A free worker takes the operations. -/
theorem Worker.hire
    (hoblivious : ∀ d, (env.applyNow application).program.IsOblivious (.withDeferred d))
    (hrun : (env.applyNow application).run s = some (.ok result, u)) {limit : Nat} {α : Type}
    {threads : List (Program (ServiceState S C) α)} {d : Crew S C α}
    (hw : Worker env application s u result queue delivered abandoned j t busy)
    (h : Crew.hire? env limit
      ⟨t.withDeferred (s.deferred.after result queue delivered abandoned), threads, busy⟩ =
        some d) :
    ∃ j' busy', j' < j ∧
      Worker env application s u result [] delivered abandoned j' t busy' ∧
      d = ⟨t.withDeferred (s.deferred.after result [] delivered abandoned), threads, busy'⟩ := by
  cases hw with
  | queued =>
    obtain ⟨k, hwork, hk⟩ := exists_program_work env s.deferred.nextTicket application result
    obtain ⟨-, hd⟩ := Option.ite_none_right_eq_some.1 h
    refine ⟨(env.applyNow application).program.accesses s + 3, _, by omega,
      .working abandoned hoblivious hrun hk, ?_⟩
    rw [← Option.some.inj hd, ← hwork]
    rfl
  | working | dropping | done | free => cases h

/-- A worker that has come to its end is free again. -/
theorem Worker.retire {r : Except Failure Unit}
    (hw : Worker env application s u result queue delivered abandoned j t [.done r]) :
    ∃ j', j' < j ∧ Worker env application s u result queue delivered abandoned j' t [] := by
  generalize hbusy : [Program.done r] = busy at hw
  cases hw with
  | queued | free | dropping => cases hbusy
  | @working _ p k _ hp hrun hk =>
    cases p with
    | done r' =>
      obtain ⟨rfl, rfl⟩ := Prod.mk.inj (Option.some.inj hrun)
      rw [Program.bind, hk] at hbusy
      cases hbusy
    | step ready act next => cases hbusy
  | done hconcluded => exact ⟨0, by omega, .free hconcluded⟩

theorem Worker.length_busy (hw : Worker env application s u result queue delivered abandoned j t
    busy) : busy.length ≤ 1 := by
  cases hw <;> simp

variable {limit n : Nat} {c d : Crew S C (Except Failure (Option FileApplicationResult))}

/-- Every access brings a crew nearer to its end. -/
theorem Underway.step (hmode : application.mode = .deferred)
    (hoblivious : ∀ d, (env.applyNow application).program.IsOblivious (.withDeferred d))
    (hrun : (env.applyNow application).run s = some (.ok result, u)) (hidle : s.deferred.IsIdle)
    (hc : Underway env application s u result keep n c) (h : Crew.Step env limit c d) :
    ∃ m, m < n ∧ Underway env application s u result keep m d := by
  cases hc with
  | starting =>
    obtain ⟨q, t, hstep, rfl⟩ | ⟨_, _, _, hbusy, -⟩ | hhire | ⟨_, hbusy, -⟩ :=
      h.single_cases (Nat.zero_le 1)
    · rw [program_entrust hmode, Program.step_step_iff] at hstep
      obtain ⟨-, rfl, rfl⟩ := hstep
      have hsubmit := DeferredWork.submit_eq_after hidle application result
      rw [hsubmit]
      cases keep with
      | true => exact ⟨_, by omega, .handed (.waiting false) (.queued false)⟩
      | false => exact ⟨_, by omega, .handed (.leaving false) (.queued false)⟩
    · cases hbusy
    · simp [Crew.hire?, hidle.queue] at hhire
    · cases hbusy
  | @handed queue delivered abandoned i j t p busy hp hw =>
    obtain ⟨q, t', hstep, rfl⟩ | ⟨w, w', t', rfl, hstep, rfl⟩ | hhire | ⟨r, rfl, rfl⟩ :=
      h.single_cases hw.length_busy
    · obtain ⟨abandoned', i', hlt, hsame, hq, rfl⟩ := hp.step hidle hstep
      refine ⟨i' + j, by omega, .handed hq ?_⟩
      obtain rfl | rfl := hsame
      · exact hw
      · cases abandoned' with
        | false => exact hw
        | true => exact hw.abandon
    · obtain ⟨delivered', j', v, hlt, hsame, hw', rfl⟩ := hw.step hidle hstep
      refine ⟨i + j', by omega, .handed ?_ hw'⟩
      obtain rfl | rfl := hsame
      · exact hp
      · cases delivered' with
        | false => exact hp
        | true => exact hp.deliver
    · obtain ⟨j', busy', hlt, hw', rfl⟩ := hw.hire hoblivious hrun hhire
      exact ⟨i + j', by omega, .handed hp hw'⟩
    · obtain ⟨j', hlt, hw'⟩ := hw.retire
      exact ⟨i + j', by omega, .handed hp hw'⟩

/-- What there is when a caller has handed operations over and nobody goes on any more. -/
structure Crew.HandedOver (keep : Bool) (result : FileApplicationResult) (s u : ServiceState S C)
    (c : Crew S C (Except Failure (Option FileApplicationResult))) : Prop where
  /-- The caller has the result if it wanted it. -/
  threads : c.threads = [.done (.ok (if keep then some result else none))]
  /-- Nothing is left to do for the workers. -/
  busy : c.busy = []
  queue : c.state.deferred.queue = []
  /-- The state is the one that the operations leave when they are carried out at once, apart from
  the delivery or, if the ticket was thrown away before, a log record about that. -/
  state : ∃ delivered, (keep = true → delivered = true) ∧
    c.state.deferred.deliveries =
      (if delivered then [(s.deferred.nextTicket, Delivery.arrived result)] else []) ++
        s.deferred.deliveries ∧
    c.state =
      (if delivered then u else u.note (.logged .resultDropped)).withDeferred c.state.deferred

/-- A crew that is stuck is at its end. -/
theorem Underway.handedOver (hmode : application.mode = .deferred) (hlimit : 0 < limit)
    (hidle : s.deferred.IsIdle) (hc : Underway env application s u result keep n c)
    (hstuck : ∀ d, ¬ Crew.Step env limit c d) : c.HandedOver keep result s u := by
  cases hc with
  | starting =>
    rw [program_entrust hmode] at hstuck
    exact absurd (Crew.step_thread (Program.step_step_iff.2 ⟨rfl, rfl, rfl⟩)) (hstuck _)
  | @handed queue delivered abandoned i j t p busy hp hw =>
    obtain ⟨rfl, rfl, hconcluded⟩ := hw.concluded_of_stuck hlimit hstuck
    obtain ⟨rfl, habandoned⟩ := hp.over_of_stuck hidle hconcluded
      fun q t' hstep => hstuck _ (Crew.step_thread hstep)
    refine ⟨rfl, rfl, rfl, delivered, ?_, ?_, ?_⟩
    · rintro rfl
      cases hconcluded with
      | delivered => rfl
      | dropped => cases habandoned
    · cases delivered <;> rfl
    · cases hconcluded <;> rfl

/-- In whatever order the caller and the worker go on, they come to an end, and then there is what
the operations leave when they are carried out at once. -/
theorem entrust_ends (hmode : application.mode = .deferred) (hlimit : 0 < limit)
    (hoblivious : ∀ d, (env.applyNow application).program.IsOblivious (.withDeferred d))
    (hrun : (env.applyNow application).run s = some (.ok result, u)) (hidle : s.deferred.IsIdle)
    (keep : Bool) :
    Acc (fun d c => Crew.Step env limit c d) ⟨s, [(env.entrust application keep).program], []⟩ ∧
      ∀ c, Relation.ReflTransGen (Crew.Step env limit)
          ⟨s, [(env.entrust application keep).program], []⟩ c →
        (∀ d, ¬ Crew.Step env limit c d) → c.HandedOver keep result s u := by
  have hacc : ∀ n c, Underway env application s u result keep n c →
      Acc (fun d c => Crew.Step env limit c d) c := by
    intro n
    induction n using Nat.strong_induction_on with
    | h n ih =>
      refine fun c hc => .intro c fun d hstep => ?_
      obtain ⟨m, hlt, hd⟩ := hc.step hmode hoblivious hrun hidle hstep
      exact ih m hlt d hd
  have hreached : ∀ c, Relation.ReflTransGen (Crew.Step env limit)
      ⟨s, [(env.entrust application keep).program], []⟩ c →
      ∃ n, Underway env application s u result keep n c := by
    intro c hreach
    induction hreach with
    | refl => exact ⟨_, .starting⟩
    | tail _ hstep ih =>
      obtain ⟨n, hc⟩ := ih
      obtain ⟨m, -, hd⟩ := hc.step hmode hoblivious hrun hidle hstep
      exact ⟨m, hd⟩
  refine ⟨hacc _ _ .starting, fun c hreach hstuck => ?_⟩
  obtain ⟨n, hc⟩ := hreached c hreach
  exact hc.handedOver hmode hlimit hidle hstuck

end Steps

end FileIndexing
