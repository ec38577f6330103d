import FileIndexing.Proofs.Conduct
import FileIndexing.Service.Command
import Mathlib.Algebra.BigOperators.Group.Finset.Basic

/-!
# What the threads of a service did

The journal of a service does not say which thread noted an event.  A trace does: it lists what
happened since the threads began, each event with the place of its thread in the pool.

* `Pool.StepBy` is one access by the thread at a given place, and `Pool.Traced` relates a pool, a
  trace and a pool that can be reached while the trace is left behind.  `Pool.Logged` does the same
  with an `AccessLog`, in which the accesses that note nothing are seen as well.
* `Pool.traced_of_reaches` says that every reachable pool leaves a trace, and `Pool.traced_watch`
  and `Pool.logged_record` that following a schedule yields a trace and a log.
* `Pool.Logged.invariant` and `Pool.Traced.invariant` are the rules by which everything about all
  interleavings is proved.  Each thread has a place in a protocol that it keeps to, and an invariant
  about the shared state, what is left behind and the places of all threads has to be kept by every
  access that the protocol allows.
-/

namespace FileIndexing

/-- What happened, the latest first, each event with the place of the thread that noted it. -/
abbrev Trace := List (Nat × Event)

/-- What happened access by access, the latest first: each access with the place of its thread and
the events that it noted. -/
abbrev AccessLog := List (Nat × List Event)

/-- The events of all accesses. -/
def AccessLog.trace (log : AccessLog) : Trace :=
  log.flatMap fun access => access.2.map fun event => (access.1, event)

namespace ServiceState

variable {S C : Type}

/-- What was noted between a state and a later one. -/
def eventsUntil (s t : ServiceState S C) : List Event :=
  t.journal.take (t.journal.length - s.journal.length)

theorem eventsUntil_of_journal {s t : ServiceState S C} (events : List Event)
    (h : t.journal = events ++ s.journal) : s.eventsUntil t = events := by
  simp [eventsUntil, h]

@[simp] theorem eventsUntil_note (s : ServiceState S C) (event : Event) :
    s.eventsUntil (s.note event) = [event] := eventsUntil_of_journal [event] rfl

theorem eventsUntil_moveRegistry (s : ServiceState S C) (index : IndexId)
    (registry : RebuildRegistry) :
    s.eventsUntil (s.moveRegistry index registry) =
      if s.registry.state index = registry.state index then []
      else [.moved index (s.registry.state index) (registry.state index)] := by
  simp only [moveRegistry]
  split
  · exact eventsUntil_of_journal [] rfl
  · exact eventsUntil_of_journal [_] rfl

theorem eventsUntil_endRebuild (s : ServiceState S C) (index : IndexId) :
    s.eventsUntil (s.endRebuild index) =
      if s.registry.state index = .running then [.moved index .running .ok]
      else [.finishRefused index (s.registry.state index)] := by
  by_cases hstate : s.registry.state index = .running
  · have hend : s.endRebuild index = s.moveRegistry index (s.registry.markFinished index) := by
      simp [endRebuild, RebuildRegistry.canFinish, hstate]
    rw [hend, eventsUntil_moveRegistry, RebuildRegistry.state_markFinished]
    simp [hstate]
  · rw [if_neg hstate]
    refine eventsUntil_of_journal [_] ?_
    simp [endRebuild, moveRegistry, note, RebuildRegistry.canFinish,
      RebuildRegistry.state_markFinished, hstate]

/-- What was noted between two states is also noted between the earlier one and any later one. -/
theorem mem_eventsUntil_of_suffix {s t u : ServiceState S C} (hst : s.journal <:+ t.journal)
    (htu : t.journal <:+ u.journal) {event : Event} (h : event ∈ s.eventsUntil t) :
    event ∈ s.eventsUntil u := by
  obtain ⟨events, hjournal⟩ := hst
  obtain ⟨events', hjournal'⟩ := htu
  rw [eventsUntil_of_journal events hjournal.symm] at h
  rw [eventsUntil_of_journal (events' ++ events) (by rw [List.append_assoc, hjournal, hjournal'])]
  exact List.mem_append_right _ h

end ServiceState

namespace Trace

variable {S C : Type}

/-- A trace after an access by a thread. -/
def extend (h : Trace) (i : Nat) (s t : ServiceState S C) : Trace :=
  (s.eventsUntil t).map (fun event => (i, event)) ++ h

theorem extend_of_journal {s t : ServiceState S C} (events : List Event)
    (hjournal : t.journal = events ++ s.journal) (h : Trace) (i : Nat) :
    h.extend i s t = events.map (fun event => (i, event)) ++ h := by
  rw [extend, ServiceState.eventsUntil_of_journal events hjournal]

theorem extend_of_journal_eq {s t : ServiceState S C} (hjournal : t.journal = s.journal)
    (h : Trace) (i : Nat) : h.extend i s t = h := extend_of_journal [] hjournal h i

@[simp] theorem extend_note (h : Trace) (i : Nat) (s : ServiceState S C) (event : Event) :
    h.extend i s (s.note event) = (i, event) :: h := extend_of_journal [event] rfl h i

theorem extend_moveRegistry (h : Trace) (i : Nat) (s : ServiceState S C) (index : IndexId)
    (registry : RebuildRegistry) :
    h.extend i s (s.moveRegistry index registry) =
      if s.registry.state index = registry.state index then h
      else (i, .moved index (s.registry.state index) (registry.state index)) :: h := by
  rw [extend, ServiceState.eventsUntil_moveRegistry]
  split <;> rfl

end Trace

namespace Pool

variable {σ α L : Type}

/-! ## Steps of a thread -/

/-- One access by the thread at a place. -/
inductive StepBy (i : Nat) : Pool σ α → Pool σ α → Prop where
  | access {s t : σ} {threads : List (Program σ α)} {p q : Program σ α} :
      threads[i]? = some p → Program.Step p s q t → StepBy i ⟨s, threads⟩ ⟨t, threads.set i q⟩

theorem Step.exists_stepBy {p q : Pool σ α} (h : Step p q) : ∃ i, p.StepBy i q := by
  obtain ⟨before, after, p, q, s, t, hstep⟩ := h
  refine ⟨before.length, ?_⟩
  have hset : before ++ q :: after = (before ++ p :: after).set before.length q := by
    rw [List.set_append_right _ _ (Nat.le_refl _), Nat.sub_self, List.set_cons_zero]
  rw [hset]
  exact .access (by simp) hstep

theorem stepBy_of_stepAt? {p q : Pool σ α} {i : Nat} (h : p.stepAt? i = some q) :
    p.StepBy i q := by
  obtain ⟨s, threads⟩ := p
  simp only [stepAt?] at h
  split at h
  · next ready act next hget =>
    split at h
    · next hready =>
      injection h with h
      subst h
      exact .access hget (.step ready act next s hready)
    · simp at h
  · simp at h

theorem StepBy.step {p q : Pool σ α} {i : Nat} (h : p.StepBy i q) : p.Step q := by
  obtain ⟨hget, hstep⟩ := h
  obtain ⟨ready, act, next, s, hready⟩ := hstep
  refine step_of_stepAt? (i := i) ?_
  simp [stepAt?, hget, hready]

/-- A step of one thread leaves what is left of the others. -/
theorem StepBy.getElem?_of_ne {p q : Pool σ α} {i j : Nat} (h : p.StepBy i q) (hij : i ≠ j) :
    q.threads[j]? = p.threads[j]? := by
  obtain ⟨hget, hstep⟩ := h
  exact List.getElem?_set_ne hij

/-- Each thread of a pool keeps to a protocol from the place it has in it. -/
def Obeys (p : Pool σ α) (move : Nat → L → σ → L → σ → Prop) (post : Nat → α → L → Prop)
    (place : Nat → L) : Prop :=
  ∀ (i : Nat) (t : Program σ α), p.threads[i]? = some t → t.Obeys (move i) (post i) (place i)

/-- What is known of each thread at its place, and is kept by every access of that thread, is known
after a step of one thread as well. -/
theorem StepBy.moves {p q : Pool σ α} {i : Nat} {move : L → σ → L → σ → Prop} {place : Nat → L}
    (Known : Nat → Program σ α → L → Prop) (hstep : p.StepBy i q)
    (hmoves : ∀ {t u : Program σ α} {s s' : σ} {l : L}, Known i t l → t.Step s u s' →
      ∃ l', move l s l' s' ∧ Known i u l')
    (hp : ∀ (j : Nat) (t : Program σ α), p.threads[j]? = some t → Known j t (place j)) :
    ∃ l, move (place i) p.state l q.state ∧
      ∀ (j : Nat) (t : Program σ α), q.threads[j]? = some t →
        Known j t (Function.update place i l j) := by
  obtain ⟨hget, hstep⟩ := hstep
  next s t threads before after =>
  obtain ⟨l, hmove, hnext⟩ := hmoves (hp i _ hget) hstep
  refine ⟨l, hmove, ?_⟩
  intro j t hj
  by_cases hij : i = j
  · subst hij
    have hlt : i < threads.length := (List.getElem?_eq_some_iff.1 hget).1
    obtain rfl : after = t := by simpa [List.getElem?_set_self hlt] using hj
    simpa using hnext
  · rw [Function.update_of_ne (Ne.symm hij)]
    exact hp j t (by simpa [List.getElem?_set_ne hij] using hj)

/-- A step of a thread moves that thread in a way that the protocol allows. -/
theorem StepBy.obeys {p q : Pool σ α} {i : Nat} {move : Nat → L → σ → L → σ → Prop}
    {post : Nat → α → L → Prop} {place : Nat → L} (hstep : p.StepBy i q)
    (hp : p.Obeys move post place) :
    ∃ l, move i (place i) p.state l q.state ∧
      q.Obeys move post (Function.update place i l) :=
  hstep.moves (fun j t l => t.Obeys (move j) (post j) l) (fun h hstep => h.step hstep) hp

theorem StepBy.length_threads {p q : Pool σ α} {i : Nat} (hstep : p.StepBy i q) :
    q.threads.length = p.threads.length := by
  obtain ⟨hget, hstep⟩ := hstep
  simp

theorem StepBy.lt_length_threads {p q : Pool σ α} {i : Nat} (hstep : p.StepBy i q) :
    i < p.threads.length := by
  obtain ⟨hget, -⟩ := hstep
  exact (List.getElem?_eq_some_iff.1 hget).1

/-! ## Traces -/

variable {S C : Type}

/-- A pool that the threads of another one can reach, with the trace that they leave. -/
inductive Traced (p : Pool (ServiceState S C) α) : Trace → Pool (ServiceState S C) α → Prop where
  | start : Traced p [] p
  | step {h : Trace} {q r : Pool (ServiceState S C) α} {i : Nat} : Traced p h q → q.StepBy i r →
      Traced p (h.extend i q.state r.state) r

theorem traced_of_reaches {p q : Pool (ServiceState S C) α} (h : p.Reaches q) :
    ∃ trace, p.Traced trace q := by
  induction h with
  | refl => exact ⟨[], .start⟩
  | tail _ hstep ih =>
    obtain ⟨trace, htrace⟩ := ih
    obtain ⟨i, hby⟩ := hstep.exists_stepBy
    exact ⟨_, htrace.step hby⟩

/-- A pool that the threads of another one can reach, with the log of their accesses. -/
inductive Logged (p : Pool (ServiceState S C) α) :
    AccessLog → Pool (ServiceState S C) α → Prop where
  | start : Logged p [] p
  | step {log : AccessLog} {q r : Pool (ServiceState S C) α} {i : Nat} : Logged p log q →
      q.StepBy i r → Logged p ((i, q.state.eventsUntil r.state) :: log) r

/-- A log leaves the trace of its events. -/
theorem Logged.traced {p q : Pool (ServiceState S C) α} {log : AccessLog} (h : p.Logged log q) :
    p.Traced log.trace q := by
  induction h with
  | start => exact .start
  | step _ hstep ih => exact ih.step hstep

theorem Traced.exists_logged {p q : Pool (ServiceState S C) α} {h : Trace} (htrace : p.Traced h q) :
    ∃ log, p.Logged log q ∧ log.trace = h := by
  induction htrace with
  | start => exact ⟨[], .start, rfl⟩
  | step _ hstep ih =>
    obtain ⟨log, hlog, rfl⟩ := ih
    exact ⟨_, hlog.step hstep, rfl⟩

/-- One access by the thread at a place, if it can make one, with the log that is left. -/
def recordStep (x : AccessLog × Pool (ServiceState S C) α) (i : Nat) :
    AccessLog × Pool (ServiceState S C) α :=
  match x.2.stepAt? i with
  | some r => ((i, x.2.state.eventsUntil r.state) :: x.1, r)
  | none => x

/-- Follows a schedule and keeps the log. -/
def record (p : Pool (ServiceState S C) α) (schedule : List Nat) :
    AccessLog × Pool (ServiceState S C) α :=
  schedule.foldl recordStep ([], p)

/-- Follows a schedule and keeps the trace. -/
def watch (p : Pool (ServiceState S C) α) (schedule : List Nat) :
    Trace × Pool (ServiceState S C) α :=
  ((p.record schedule).1.trace, (p.record schedule).2)

theorem Logged.recordStep {p : Pool (ServiceState S C) α}
    {x : AccessLog × Pool (ServiceState S C) α} (h : p.Logged x.1 x.2) (i : Nat) :
    p.Logged (Pool.recordStep x i).1 (Pool.recordStep x i).2 := by
  unfold Pool.recordStep
  split
  · next r hr => exact h.step (stepBy_of_stepAt? hr)
  · exact h

/-- Following a schedule yields a log that the threads can leave. -/
theorem logged_record (p : Pool (ServiceState S C) α) (schedule : List Nat) :
    p.Logged (p.record schedule).1 (p.record schedule).2 := by
  suffices hfold : ∀ x : AccessLog × Pool (ServiceState S C) α, p.Logged x.1 x.2 →
      p.Logged (schedule.foldl Pool.recordStep x).1 (schedule.foldl Pool.recordStep x).2 from
    hfold _ .start
  induction schedule with
  | nil => exact fun x hx => hx
  | cons i rest ih => exact fun x hx => ih _ (hx.recordStep i)

/-- Following a schedule yields a trace that the threads can leave. -/
theorem traced_watch (p : Pool (ServiceState S C) α) (schedule : List Nat) :
    p.Traced (p.watch schedule).1 (p.watch schedule).2 := (p.logged_record schedule).traced

theorem Traced.length_threads {p q : Pool (ServiceState S C) α} {h : Trace}
    (htrace : p.Traced h q) : q.threads.length = p.threads.length := by
  induction htrace with
  | start => rfl
  | step _ hstep ih => exact hstep.length_threads.trans ih

/-! ## Invariants -/

/-- An invariant about the log, the shared state and the places of all threads.  That an access
keeps it may be shown knowing that the access was made by a pool with this log. -/
theorem Logged.invariant {p : Pool (ServiceState S C) α}
    {move : Nat → L → ServiceState S C → L → ServiceState S C → Prop} {post : Nat → α → L → Prop}
    {place : Nat → L} (Inv : AccessLog → ServiceState S C → (Nat → L) → Prop)
    (hobeys : p.Obeys move post place) (hstart : Inv [] p.state place)
    (hkept : ∀ {log q r i place l}, p.Logged log q → q.StepBy i r → Inv log q.state place →
      move i (place i) q.state l r.state →
      Inv ((i, q.state.eventsUntil r.state) :: log) r.state (Function.update place i l))
    {log : AccessLog} {q : Pool (ServiceState S C) α} (hlog : p.Logged log q) :
    ∃ place, Inv log q.state place ∧ q.Obeys move post place := by
  induction hlog with
  | start => exact ⟨place, hstart, hobeys⟩
  | step hlog hstep ih =>
    obtain ⟨place, hinv, hq⟩ := ih
    obtain ⟨l, hmove, hr⟩ := hstep.obeys hq
    exact ⟨_, hkept hlog hstep hinv hmove, hr⟩

/-- An invariant about the trace, the shared state and the places of all threads.  That an access
keeps it may be shown knowing that the access was made by a pool with this trace. -/
theorem Traced.invariant {p : Pool (ServiceState S C) α}
    {move : Nat → L → ServiceState S C → L → ServiceState S C → Prop} {post : Nat → α → L → Prop}
    {place : Nat → L} (Inv : Trace → ServiceState S C → (Nat → L) → Prop)
    (hobeys : p.Obeys move post place) (hstart : Inv [] p.state place)
    (hkept : ∀ {h q r i place l}, p.Traced h q → q.StepBy i r → Inv h q.state place →
      move i (place i) q.state l r.state →
      Inv (h.extend i q.state r.state) r.state (Function.update place i l))
    {h : Trace} {q : Pool (ServiceState S C) α} (htrace : p.Traced h q) :
    ∃ place, Inv h q.state place ∧ q.Obeys move post place := by
  obtain ⟨log, hlog, rfl⟩ := htrace.exists_logged
  exact hlog.invariant (fun log => Inv log.trace) hobeys hstart
    fun hlog hstep hinv hmove => hkept hlog.traced hstep hinv hmove

/-- When a thread moves, what its new place amounts to takes the part of what its old place amounted
to in the total of all threads. -/
theorem sum_places_update {M : Type} [AddCommMonoid M] {n i : Nat} (hi : i < n) (place : Nat → L)
    (l : L) (amount : L → M) :
    (∑ j ∈ Finset.range n, amount (Function.update place i l j)) + amount (place i) =
      (∑ j ∈ Finset.range n, amount (place j)) + amount l := by
  have hmem : i ∈ Finset.range n := Finset.mem_range.2 hi
  have hothers : ∑ j ∈ (Finset.range n).erase i, amount (Function.update place i l j) =
      ∑ j ∈ (Finset.range n).erase i, amount (place j) :=
    Finset.sum_congr rfl fun j hj => by rw [Function.update_of_ne (Finset.ne_of_mem_erase hj)]
  rw [← Finset.sum_erase_add _ _ hmem, ← Finset.sum_erase_add _ (fun j => amount (place j)) hmem,
    hothers, Function.update_self]
  exact add_right_comm _ _ _

end Pool

/-! ## A small service -/

namespace Sample

/-- A service that indexes files by their sizes, in memory. -/
def environment : Environment (MemoryIndex Nat Nat) (Mapping Nat Nat) Unit :=
  .memory .standard fun _ content => .ok (Std.ExtTreeMap.empty.insert content.size 1)

/-- Its only index. -/
def sizes : IndexId := ⟨"sizes"⟩

/-- The service before anything has happened. -/
def state : ServiceState (MemoryIndex Nat Nat) Unit :=
  .ofStores .standard (Std.ExtTreeMap.empty.insert sizes .empty) true ()

/-- A file of some size. -/
def content (size : Nat) : FileContent := ⟨⟨[]⟩, List.replicate size 0⟩

end Sample

end FileIndexing
