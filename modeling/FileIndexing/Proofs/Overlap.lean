import FileIndexing.Proofs.Discretion
import FileIndexing.Proofs.Trace

/-!
# Rebuilds that overlap

A rebuild claims its index, puts the files back and then tries to end the rebuild.  Nothing keeps a
second run from claiming the index in between, once another rebuild has been requested.  The
registry knows the state of an index but not which run brought it about, so that a run may end a
rebuild that is not its own.  This module says exactly when that does harm.

* `RebuildAccount` is what a trace tells about the runs on one index: for each run that has claimed
  the index, whether a rebuild was requested and whether another run claimed the index since then,
  and how the run ended the rebuild.  `RebuildAccount.Promise` says what a run promises when it
  returns and while it is open, and `RebuildAccount.Undisturbed` that no run ends a rebuild over
  another one.
* `RunMove` is the protocol of a thread whose place is the stack of its runs, the innermost first,
  and `RunInvariant` relates the account to the stacks of all threads.
* `promiseKept_iff_undisturbed` is the result: along every interleaving all promises are kept if and
  only if no run ever ends a rebuild over another one.
-/

namespace FileIndexing

open ServiceState

/-! ## The account of the runs -/

namespace Event

/-- The state that an event moves an index to. -/
def movesTo? (index : IndexId) : Event → Option RebuildState
  | .moved i _ after => if i = index then some after else none
  | _ => none

/-- What a run on an index returns by an event. -/
def returns? (index : IndexId) : Event → Option RebuildRun
  | .rebuildEnded i _ answer => if i = index then answer else none
  | _ => none

/-- Whether an event tells something of the runs on an index. -/
def concerns (index : IndexId) : Event → Bool
  | .moved i _ _ | .finishRefused i _ | .rebuildEnded i _ _ => i = index
  | _ => false

end Event

/-- A run that has claimed an index and has not returned. -/
structure RunRecord where
  thread : Nat
  /-- Whether a rebuild was requested between the start and the finish of the run. -/
  requested : Bool
  /-- Whether another run claimed the index between the start and the finish of the run. -/
  overtaken : Bool
  /-- The state in which the run found the index when it was to end the rebuild, and whether
  another run was between its start and its finish then. -/
  finish : Option (RebuildState × Bool)
  deriving DecidableEq, Repr

namespace RunRecord

/-- A run that has just claimed the index. -/
def started (thread : Nat) : RunRecord := ⟨thread, false, false, none⟩

/-- Whether a run is between its start and its finish. -/
def isOpen (r : RunRecord) : Bool := r.finish.isNone

/-- A rebuild was requested. -/
def request (r : RunRecord) : RunRecord := if r.isOpen then { r with requested := true } else r

/-- Another run claimed the index. -/
def overtake (r : RunRecord) : RunRecord := if r.isOpen then { r with overtaken := true } else r

end RunRecord

/-- The state of an index and the runs on it, the latest start first. -/
structure RebuildAccount where
  state : RebuildState
  runs : List RunRecord
  deriving DecidableEq, Repr

namespace RebuildAccount

/-- The innermost run of a thread. -/
def run? (a : RebuildAccount) (thread : Nat) : Option RunRecord :=
  a.runs.find? (·.thread = thread)

/-- The runs other than the innermost one of a thread. -/
def others (a : RebuildAccount) (thread : Nat) : List RunRecord :=
  a.runs.eraseP (·.thread = thread)

/-- Notes how a run ended the rebuild. -/
def close (thread : Nat) (finish : RebuildState × Bool) : List RunRecord → List RunRecord
  | [] => []
  | r :: rest =>
    if r.thread = thread then { r with finish := some finish } :: rest
    else r :: close thread finish rest

/-- The account after the innermost run of a thread was to end the rebuild. -/
def finish (a : RebuildAccount) (thread : Nat) (found : RebuildState) : List RunRecord :=
  close thread (found, (a.others thread).any (·.isOpen)) a.runs

/-- The account after one more event. -/
def next (index : IndexId) (a : RebuildAccount) (x : Nat × Event) : RebuildAccount :=
  match x.2 with
  | .moved i _ after =>
    if i = index then
      match after with
      | .required => ⟨.required, a.runs.map (·.request)⟩
      | .running => ⟨.running, .started x.1 :: a.runs.map (·.overtake)⟩
      | .ok => ⟨.ok, a.finish x.1 .running⟩
    else a
  | .finishRefused i found => if i = index then ⟨a.state, a.finish x.1 found⟩ else a
  | .rebuildEnded i _ _ => if i = index then ⟨a.state, a.others x.1⟩ else a
  | _ => a

/-- What the account of an index is after a trace that began in a state of the index. -/
def ofTrace (index : IndexId) (start : RebuildState) (h : Trace) : RebuildAccount :=
  h.foldr (fun x a => a.next index x) ⟨start, []⟩

/-- What runs promise.  A run that returns as completed saw no request between its start and its
finish; one that returns as rescheduled found the index scheduled, or another run rebuilding it;
and as long as a run is between its start and its finish the index is not consistent. -/
structure Promise (index : IndexId) (a : RebuildAccount) (x : Nat × Event) : Prop where
  completed : x.2.returns? index = some .completed → (a.run? x.1).any (!·.requested) = true
  rescheduled : x.2.returns? index = some .rescheduled →
    (a.run? x.1).any (fun r => r.finish.any fun f => f.1 = .required || f.2) = true
  closed : ∀ r ∈ (a.next index x).runs, r.isOpen = true → (a.next index x).state ≠ .ok

/-- No rebuild is ended over another run: a run that returns as completed was not overtaken, and no
other run is open when a run ends the rebuild. -/
structure Undisturbed (index : IndexId) (a : RebuildAccount) (x : Nat × Event) : Prop where
  latest : x.2.returns? index = some .completed → (a.run? x.1).all (!·.overtaken) = true
  alone : x.2.movesTo? index = some .ok → ∀ r ∈ a.others x.1, r.isOpen = false

instance (index : IndexId) (a : RebuildAccount) (x : Nat × Event) :
    Decidable (a.Promise index x) :=
  decidable_of_iff _ ⟨fun ⟨h, h', h''⟩ => ⟨h, h', h''⟩, fun h => And.intro h.1 (And.intro h.2 h.3)⟩

instance (index : IndexId) (a : RebuildAccount) (x : Nat × Event) :
    Decidable (a.Undisturbed index x) :=
  decidable_of_iff _ ⟨fun ⟨h, h'⟩ => ⟨h, h'⟩, fun h => And.intro h.1 h.2⟩

end RebuildAccount

/-- A condition on an event and on the account before it holds all along a trace. -/
def Trace.Always (index : IndexId) (start : RebuildState)
    (condition : RebuildAccount → Nat × Event → Prop) : Trace → Prop
  | [] => True
  | x :: h => condition (.ofTrace index start h) x ∧ Trace.Always index start condition h

/-- The promises of all runs on an index are kept all along a trace. -/
def PromiseKept (index : IndexId) (start : RebuildState) (h : Trace) : Prop :=
  h.Always index start (RebuildAccount.Promise index)

/-- No run on an index ends a rebuild over another run all along a trace. -/
def Undisturbed (index : IndexId) (start : RebuildState) (h : Trace) : Prop :=
  h.Always index start (RebuildAccount.Undisturbed index)

instance Trace.decidableAlways (index : IndexId) (start : RebuildState)
    (condition : RebuildAccount → Nat × Event → Prop) [∀ a x, Decidable (condition a x)] :
    ∀ h, Decidable (Trace.Always index start condition h)
  | [] => .isTrue trivial
  | x :: h =>
    have := decidableAlways index start condition h
    inferInstanceAs (Decidable (condition (.ofTrace index start h) x ∧
      Trace.Always index start condition h))

instance (index : IndexId) (start : RebuildState) (h : Trace) :
    Decidable (PromiseKept index start h) :=
  Trace.decidableAlways index start _ h

instance (index : IndexId) (start : RebuildState) (h : Trace) :
    Decidable (Undisturbed index start h) :=
  Trace.decidableAlways index start _ h

/-! ## What an event does to the account -/

namespace RebuildAccount

variable {index : IndexId} {a : RebuildAccount}

theorem next_of_concerns {x : Nat × Event} (h : x.2.concerns index = false) :
    a.next index x = a := by
  obtain ⟨t, event⟩ := x
  cases event <;> simp_all [Event.concerns, next]

theorem next_required (a : RebuildAccount) (index : IndexId) (t : Nat) (before : RebuildState) :
    a.next index (t, .moved index before .required) = ⟨.required, a.runs.map (·.request)⟩ := by
  simp [next]

theorem next_running (a : RebuildAccount) (index : IndexId) (t : Nat) (before : RebuildState) :
    a.next index (t, .moved index before .running) =
      ⟨.running, .started t :: a.runs.map (·.overtake)⟩ := by
  simp [next]

theorem next_ok (a : RebuildAccount) (index : IndexId) (t : Nat) (before : RebuildState) :
    a.next index (t, .moved index before .ok) = ⟨.ok, a.finish t .running⟩ := by
  simp [next]

theorem next_refused (a : RebuildAccount) (index : IndexId) (t : Nat) (found : RebuildState) :
    a.next index (t, .finishRefused index found) = ⟨a.state, a.finish t found⟩ := by
  simp [next]

theorem next_ended (a : RebuildAccount) (index : IndexId) (t run : Nat)
    (answer : Option RebuildRun) :
    a.next index (t, .rebuildEnded index run answer) = ⟨a.state, a.others t⟩ := by
  simp [next]

/-- The run that a thread closes is its innermost one, and the others stay as they are. -/
theorem mem_close {t : Nat} {f : RebuildState × Bool} {runs : List RunRecord} {r : RunRecord} :
    r ∈ close t f runs ↔ r ∈ runs.eraseP (·.thread = t) ∨
      ∃ r', runs.find? (·.thread = t) = some r' ∧ r = { r' with finish := some f } := by
  induction runs with
  | nil => simp [close]
  | cons x rest ih =>
    by_cases hx : x.thread = t
    · simp [close, hx, or_comm]
    · simp [close, hx, ih, or_assoc]

theorem filter_close_self {t : Nat} {f : RebuildState × Bool} {runs rest : List RunRecord}
    {r : RunRecord} (h : runs.filter (·.thread = t) = r :: rest) :
    (close t f runs).filter (·.thread = t) = { r with finish := some f } :: rest := by
  induction runs with
  | nil => simp at h
  | cons x runs ih =>
    by_cases hx : x.thread = t
    · obtain ⟨rfl, hrest⟩ : x = r ∧ runs.filter (·.thread = t) = rest := by simpa [hx] using h
      simp [close, hx, hrest]
    · simp only [close, hx, if_false]
      simpa [hx] using ih (by simpa [hx] using h)

theorem filter_close_of_ne {t u : Nat} (hne : u ≠ t) (f : RebuildState × Bool)
    (runs : List RunRecord) :
    (close t f runs).filter (·.thread = u) = runs.filter (·.thread = u) := by
  induction runs with
  | nil => rfl
  | cons x runs ih =>
    by_cases hx : x.thread = t
    · simp [close, hx, Ne.symm hne]
    · simp [close, hx, List.filter_cons, ih]

theorem filter_others_self {t : Nat} :
    (a.others t).filter (·.thread = t) = (a.runs.filter (·.thread = t)).tail := by
  unfold others
  induction a.runs with
  | nil => rfl
  | cons x runs ih => by_cases hx : x.thread = t <;> simp [hx, ih]

theorem filter_others_of_ne {t u : Nat} (hne : u ≠ t) :
    (a.others t).filter (·.thread = u) = a.runs.filter (·.thread = u) := by
  unfold others
  induction a.runs with
  | nil => rfl
  | cons x runs ih =>
    by_cases hx : x.thread = t
    · simp [hx, Ne.symm hne]
    · simp [hx, List.filter_cons, ih]

theorem run?_of_filter {t : Nat} {r : RunRecord} {rest : List RunRecord}
    (h : a.runs.filter (·.thread = t) = r :: rest) : a.run? t = some r := by
  rw [run?, ← List.head?_filter, h]
  rfl

end RebuildAccount

/-! ## What holds of every account -/

namespace RunRecord

@[simp] theorem isOpen_request (r : RunRecord) : r.request.isOpen = r.isOpen := by
  unfold request
  split <;> rfl

@[simp] theorem isOpen_overtake (r : RunRecord) : r.overtake.isOpen = r.isOpen := by
  unfold overtake
  split <;> rfl

@[simp] theorem finish_request (r : RunRecord) : r.request.finish = r.finish := by
  unfold request
  split <;> rfl

@[simp] theorem finish_overtake (r : RunRecord) : r.overtake.finish = r.finish := by
  unfold overtake
  split <;> rfl

@[simp] theorem thread_request (r : RunRecord) : r.request.thread = r.thread := by
  unfold request
  split <;> rfl

@[simp] theorem thread_overtake (r : RunRecord) : r.overtake.thread = r.thread := by
  unfold overtake
  split <;> rfl

@[simp] theorem requested_request (r : RunRecord) :
    r.request.requested = (r.isOpen || r.requested) := by
  unfold request
  split <;> simp_all

@[simp] theorem overtaken_request (r : RunRecord) : r.request.overtaken = r.overtaken := by
  unfold request
  split <;> rfl

@[simp] theorem requested_overtake (r : RunRecord) : r.overtake.requested = r.requested := by
  unfold overtake
  split <;> rfl

@[simp] theorem overtaken_overtake (r : RunRecord) :
    r.overtake.overtaken = (r.isOpen || r.overtaken) := by
  unfold overtake
  split <;> simp_all

/-- Whether a run ended the rebuild, if it was to do so already. -/
def verdict (r : RunRecord) : Option Bool := r.finish.map fun f => f.1 = .running

theorem verdict_mk (thread : Nat) (requested overtaken : Bool) (f : RebuildState × Bool) :
    verdict ⟨thread, requested, overtaken, some f⟩ = some (decide (f.1 = .running)) := rfl

@[simp] theorem verdict_request (r : RunRecord) : r.request.verdict = r.verdict := by
  simp [verdict]

@[simp] theorem verdict_overtake (r : RunRecord) : r.overtake.verdict = r.verdict := by
  simp [verdict]

theorem isOpen_of_verdict {r : RunRecord} {b : Bool} (h : r.verdict = some b) :
    r.isOpen = false := by
  cases hfinish : r.finish <;> simp_all [verdict, isOpen]

theorem isOpen_of_verdict_none {r : RunRecord} (h : r.verdict = none) : r.isOpen = true := by
  cases hfinish : r.finish <;> simp_all [verdict, isOpen]

end RunRecord

namespace RebuildAccount

/-- How the state of an index hangs together with what its runs have seen. -/
structure Sound (a : RebuildAccount) : Prop where
  /-- What was requested stays scheduled until another run claims it. -/
  requested : ∀ r ∈ a.runs, r.isOpen = true → r.requested = true → r.overtaken = false →
    a.state = .required
  unrequested : ∀ r ∈ a.runs, r.isOpen = true → r.requested = false → a.state ≠ .required
  overtaken : ∀ r ∈ a.runs, r.overtaken = true → r.requested = true
  finished : ∀ r ∈ a.runs, r.verdict = some true → r.overtaken = false → r.requested = false

/-- What holds in addition as long as no rebuild was ended over another run. -/
structure Settled (a : RebuildAccount) : Prop where
  closed : ∀ r ∈ a.runs, r.isOpen = true → a.state ≠ .ok
  refused : ∀ r ∈ a.runs, ∀ f ∈ r.finish, f.1 ≠ .running → f.1 = .required ∨ f.2 = true

variable {a : RebuildAccount}

theorem Sound.request (h : a.Sound) : Sound ⟨.required, a.runs.map (·.request)⟩ where
  requested := by simp
  unrequested := by
    simp only [List.forall_mem_map]
    intro r hr hopen
    simp_all
  overtaken := by
    simp only [List.forall_mem_map]
    intro r hr hovertaken
    simp [h.overtaken r hr (by simpa using hovertaken)]
  finished := by
    simp only [List.forall_mem_map]
    intro r hr hverdict hovertaken
    have hclosed := RunRecord.isOpen_of_verdict (r := r) (by simpa using hverdict)
    simpa [hclosed] using h.finished r hr (by simpa using hverdict) (by simpa using hovertaken)

theorem Sound.overtake (h : a.Sound) (hstate : a.state = .required) (t : Nat) :
    Sound ⟨.running, .started t :: a.runs.map (·.overtake)⟩ where
  requested := by
    simp only [List.forall_mem_cons, List.forall_mem_map]
    exact ⟨by simp [RunRecord.started], fun r hr hopen => by simp_all⟩
  unrequested := by simp
  overtaken := by
    simp only [List.forall_mem_cons, List.forall_mem_map]
    refine ⟨by simp [RunRecord.started], fun r hr hovertaken => ?_⟩
    rw [RunRecord.requested_overtake]
    cases hrequested : r.requested with
    | true => rfl
    | false =>
      -- a run that has seen no request is closed now that the index is scheduled
      have hclosed : r.isOpen = false := by
        cases hopen : r.isOpen with
        | false => rfl
        | true => exact absurd hstate (h.unrequested r hr hopen hrequested)
      have := h.overtaken r hr (by simpa [hclosed] using hovertaken)
      simp_all
  finished := by
    simp only [List.forall_mem_cons, List.forall_mem_map]
    refine ⟨by simp [RunRecord.started, RunRecord.verdict], fun r hr hverdict hovertaken => ?_⟩
    have hclosed := RunRecord.isOpen_of_verdict (r := r) (by simpa using hverdict)
    simpa using h.finished r hr (by simpa using hverdict) (by simpa [hclosed] using hovertaken)

/-- The run that a thread is to end, and what is left when it has ended. -/
theorem Sound.finish (h : a.Sound) {t : Nat} {r : RunRecord} (hrun : a.run? t = some r)
    (hopen : r.isOpen = true) {found after : RebuildState} (hfound : found = a.state)
    (hafter : if found = .running then after = .ok else after = found) :
    Sound ⟨after, a.finish t found⟩ := by
  have hmem : r ∈ a.runs := List.mem_of_find?_eq_some hrun
  have hcases : ∀ x ∈ a.finish t found, x ∈ a.runs ∨
      x = { r with finish := some (found, (a.others t).any (·.isOpen)) } := by
    intro x hx
    rcases mem_close.1 hx with hx | ⟨r', hr', rfl⟩
    · exact .inl (List.mem_of_mem_eraseP hx)
    · obtain rfl : r = r' := Option.some.inj (hrun.symm.trans hr')
      exact .inr rfl
  have hnotreq : found = .running → ∀ x ∈ a.runs, x.isOpen = true → x.overtaken = false →
      x.requested = false := by
    intro hrunning x hx hxopen hxovertaken
    cases hxreq : x.requested with
    | false => rfl
    | true =>
      have := h.requested x hx hxopen hxreq hxovertaken
      simp_all
  constructor
  · intro x hx hxopen hxreq hxovertaken
    rcases hcases x hx with hx | rfl
    · have := h.requested x hx hxopen hxreq hxovertaken
      split at hafter <;> simp_all
    · simp [RunRecord.isOpen] at hxopen
  · intro x hx hxopen hxreq
    rcases hcases x hx with hx | rfl
    · have := h.unrequested x hx hxopen hxreq
      split at hafter <;> simp_all
    · simp [RunRecord.isOpen] at hxopen
  · intro x hx hxovertaken
    rcases hcases x hx with hx | rfl
    · exact h.overtaken x hx hxovertaken
    · exact h.overtaken r hmem hxovertaken
  · intro x hx hverdict hxovertaken
    rcases hcases x hx with hx | rfl
    · exact h.finished x hx hverdict hxovertaken
    · have hrunning : found = .running := by simpa [RunRecord.verdict] using hverdict
      exact hnotreq hrunning r hmem hopen hxovertaken

theorem Sound.drop (h : a.Sound) (t : Nat) : Sound ⟨a.state, a.others t⟩ where
  requested r hr := h.requested r (List.mem_of_mem_eraseP hr)
  unrequested r hr := h.unrequested r (List.mem_of_mem_eraseP hr)
  overtaken r hr := h.overtaken r (List.mem_of_mem_eraseP hr)
  finished r hr := h.finished r (List.mem_of_mem_eraseP hr)

theorem Settled.request (h : a.Settled) : Settled ⟨.required, a.runs.map (·.request)⟩ where
  closed := by simp
  refused := by simpa [List.forall_mem_map] using h.refused

theorem Settled.overtake (h : a.Settled) (t : Nat) :
    Settled ⟨.running, .started t :: a.runs.map (·.overtake)⟩ where
  closed := by simp
  refused := by simpa [List.forall_mem_map, RunRecord.started] using h.refused

theorem Settled.end (h : a.Settled) {t : Nat} (halone : ∀ r ∈ a.others t, r.isOpen = false) :
    Settled ⟨.ok, a.finish t .running⟩ where
  closed r hr hopen := by
    rcases mem_close.1 hr with hr | ⟨r', -, rfl⟩
    · simp [halone r hr] at hopen
    · simp [RunRecord.isOpen] at hopen
  refused r hr := by
    rcases mem_close.1 hr with hr | ⟨r', -, rfl⟩
    · exact h.refused r (List.mem_of_mem_eraseP hr)
    · simp

theorem Settled.refuse (h : a.Settled) {t : Nat} {r : RunRecord} (hrun : a.run? t = some r)
    (hopen : r.isOpen = true) : Settled ⟨a.state, a.finish t a.state⟩ where
  closed x hx hxopen := by
    rcases mem_close.1 hx with hx | ⟨r', -, rfl⟩
    · exact h.closed x (List.mem_of_mem_eraseP hx) hxopen
    · simp [RunRecord.isOpen] at hxopen
  refused x hx := by
    rcases mem_close.1 hx with hx | ⟨r', -, rfl⟩
    · exact h.refused x (List.mem_of_mem_eraseP hx)
    · have hok := h.closed r (List.mem_of_find?_eq_some hrun) hopen
      simp only [Option.mem_some_iff, forall_eq']
      intro hrunning
      cases hstate : a.state <;> simp_all

theorem Settled.drop (h : a.Settled) (t : Nat) : Settled ⟨a.state, a.others t⟩ where
  closed r hr := h.closed r (List.mem_of_mem_eraseP hr)
  refused r hr := h.refused r (List.mem_of_mem_eraseP hr)

end RebuildAccount

/-! ## Events that are about something else -/

section

variable {index : IndexId} {start : RebuildState} {h : Trace} {x : Nat × Event}

theorem Event.returns?_of_concerns {event : Event} (hx : event.concerns index = false) :
    event.returns? index = none := by
  cases event <;> simp_all [concerns, returns?]

theorem Event.movesTo?_of_concerns {event : Event} (hx : event.concerns index = false) :
    event.movesTo? index = none := by
  cases event <;> simp_all [concerns, movesTo?]

/-- While promises are kept an index with an open run is not consistent. -/
theorem PromiseKept.closed (hkept : PromiseKept index start h) :
    ∀ r ∈ (RebuildAccount.ofTrace index start h).runs, r.isOpen = true →
      (RebuildAccount.ofTrace index start h).state ≠ .ok := by
  cases h with
  | nil => simp [RebuildAccount.ofTrace]
  | cons x h => exact hkept.1.closed

theorem promiseKept_cons (hx : x.2.concerns index = false) :
    PromiseKept index start (x :: h) ↔ PromiseKept index start h := by
  refine ⟨fun hkept => hkept.2, fun hkept => ⟨⟨?_, ?_, ?_⟩, hkept⟩⟩
  · simp [Event.returns?_of_concerns hx]
  · simp [Event.returns?_of_concerns hx]
  · rw [RebuildAccount.next_of_concerns hx]
    exact hkept.closed

theorem undisturbed_cons (hx : x.2.concerns index = false) :
    Undisturbed index start (x :: h) ↔ Undisturbed index start h := by
  refine ⟨fun hkept => hkept.2, fun hkept => ⟨⟨?_, ?_⟩, hkept⟩⟩
  · simp [Event.returns?_of_concerns hx]
  · simp [Event.movesTo?_of_concerns hx]

end

/-! ## The protocol of the runs -/

variable {S U C : Type}

/-- The runs of a thread, the innermost first, each with its index and, once it was to end the
rebuild, whether it did so. -/
abbrev RunStack := List (IndexId × Option Bool)

/-- What a run returns. -/
def RebuildRun.ofVerdict : Option Bool → Option RebuildRun
  | none => none
  | some true => some .completed
  | some false => some .rescheduled

/-- Whether an event tells something of the runs on any index. -/
def Event.isAboutRuns : Event → Bool
  | .moved _ _ _ | .finishRefused _ _ | .rebuildEnded _ _ _ => true
  | _ => false

/-- An access that has nothing to do with runs, apart from perhaps requesting a rebuild. -/
inductive ServiceState.RunNeutral : ServiceState S C → ServiceState S C → Prop where
  | quiet {s t : ServiceState S C} (events : List Event) :
      (∀ index, t.registry.state index = s.registry.state index) →
      (∀ event ∈ events, event.isAboutRuns = false) → t.journal = events ++ s.journal →
      RunNeutral s t
  | request (s : ServiceState S C) (index : IndexId) :
      RunNeutral s (s.moveRegistry index (s.registry.markRequired index))

/-- What a thread does by one access, as far as it concerns its runs. -/
inductive RunMove : RunStack → ServiceState S C → RunStack → ServiceState S C → Prop where
  | neutral {l s t} : s.RunNeutral t → RunMove l s l t
  | start {l s index} : s.registry.state index = .required →
    RunMove l s ((index, none) :: l) (s.moveRegistry index (s.registry.markRunning index))
  | finish {l s index} :
    RunMove ((index, none) :: l) s ((index, some (s.registry.canFinish index)) :: l)
      (s.endRebuild index)
  | ended {l s index verdict run} :
    RunMove ((index, verdict) :: l) s l
      (s.note (.rebuildEnded index run (RebuildRun.ofVerdict verdict)))

theorem Trace.extend_markRunning (h : Trace) (t : Nat) {s : ServiceState S C} {index : IndexId}
    (hstate : s.registry.state index = .required) :
    h.extend t s (s.moveRegistry index (s.registry.markRunning index)) =
      (t, .moved index .required .running) :: h := by
  rw [extend_moveRegistry, RebuildRegistry.state_markRunning]
  simp [hstate]

theorem Trace.extend_endRebuild (h : Trace) (t : Nat) (s : ServiceState S C) (index : IndexId) :
    h.extend t s (s.endRebuild index) =
      if s.registry.state index = .running then (t, .moved index .running .ok) :: h
      else (t, .finishRefused index (s.registry.state index)) :: h := by
  rw [extend, eventsUntil_endRebuild]
  split <;> rfl

/-! ## The invariant -/

/-- How the account of an index hangs together with its state and with the runs of all threads. -/
structure RunInvariant (index : IndexId) (start : RebuildState) (h : Trace)
    (s : ServiceState S C) (stack : Nat → RunStack) : Prop where
  state : s.registry.state index = (RebuildAccount.ofTrace index start h).state
  stacked : ∀ t, (((RebuildAccount.ofTrace index start h).runs.filter (·.thread = t)).map
    (·.verdict)) = ((stack t).filter (·.1 = index)).map (·.2)
  sound : (RebuildAccount.ofTrace index start h).Sound
  settled : Undisturbed index start h → (RebuildAccount.ofTrace index start h).Settled
  kept_iff : PromiseKept index start h ↔ Undisturbed index start h

theorem runInvariant_nil (index : IndexId) (s : ServiceState S C) :
    RunInvariant index (s.registry.state index) [] s fun _ => [] where
  state := rfl
  stacked _ := rfl
  sound := ⟨by simp [RebuildAccount.ofTrace], by simp [RebuildAccount.ofTrace],
    by simp [RebuildAccount.ofTrace], by simp [RebuildAccount.ofTrace]⟩
  settled _ := ⟨by simp [RebuildAccount.ofTrace], by simp [RebuildAccount.ofTrace]⟩
  kept_iff := Iff.rfl

namespace RunInvariant

variable {index : IndexId} {start : RebuildState} {h : Trace} {s s' : ServiceState S C}
  {stack stack' : Nat → RunStack}

/-- Another state and other stacks that are the same for the index. -/
theorem congr (hinv : RunInvariant index start h s stack)
    (hstate : s'.registry.state index = s.registry.state index)
    (hstack : ∀ t, (stack' t).filter (·.1 = index) = (stack t).filter (·.1 = index)) :
    RunInvariant index start h s' stack' where
  state := hstate.trans hinv.state
  stacked t := by rw [hinv.stacked t, hstack t]
  sound := hinv.sound
  settled := hinv.settled
  kept_iff := hinv.kept_iff

/-- An event that is about something else. -/
theorem cons (hinv : RunInvariant index start h s stack) {x : Nat × Event}
    (hx : x.2.concerns index = false) : RunInvariant index start (x :: h) s stack := by
  have haccount : RebuildAccount.ofTrace index start (x :: h) = .ofTrace index start h :=
    RebuildAccount.next_of_concerns hx
  constructor
  · rw [haccount]
    exact hinv.state
  · rw [haccount]
    exact hinv.stacked
  · rw [haccount]
    exact hinv.sound
  · rw [haccount, undisturbed_cons hx]
    exact hinv.settled
  · rw [promiseKept_cons hx, undisturbed_cons hx]
    exact hinv.kept_iff

theorem append (hinv : RunInvariant index start h s stack) {events : List Event} (t : Nat)
    (hevents : ∀ event ∈ events, event.concerns index = false) :
    RunInvariant index start (events.map (fun event => (t, event)) ++ h) s stack := by
  induction events with
  | nil => exact hinv
  | cons event rest ih =>
    refine cons (ih fun e he => hevents e (by simp [he])) ?_
    exact hevents event (by simp)

/-- An event about the runs on the index. -/
theorem next (hinv : RunInvariant index start h s stack) {x : Nat × Event}
    {a : RebuildAccount} (ha : a = .ofTrace index start h)
    (hstate : s'.registry.state index = (a.next index x).state)
    (hstacks : ∀ t, ((a.next index x).runs.filter (·.thread = t)).map (·.verdict) =
      ((stack' t).filter (·.1 = index)).map (·.2))
    (hsound : (a.next index x).Sound)
    (hsettled : a.Settled → a.Undisturbed index x → (a.next index x).Settled)
    (hpromise : a.Promise index x → a.Undisturbed index x)
    (hkept : a.Settled → a.Undisturbed index x → (a.next index x).Settled →
      a.Promise index x) :
    RunInvariant index start (x :: h) s' stack' := by
  subst ha
  constructor
  · exact hstate
  · exact hstacks
  · exact hsound
  · intro hend
    obtain ⟨hx, hrest⟩ := hend
    exact hsettled (hinv.settled hrest) hx
  · constructor
    · intro hend
      obtain ⟨hx, hrest⟩ := hend
      exact ⟨hpromise hx, hinv.kept_iff.1 hrest⟩
    · intro hend
      obtain ⟨hx, hrest⟩ := hend
      have hold := hinv.settled hrest
      exact ⟨hkept hold hx (hsettled hold hx), hinv.kept_iff.2 hrest⟩

/-- A rebuild of the index is scheduled. -/
theorem request (hinv : RunInvariant index start h s stack) (t : Nat) (before : RebuildState)
    (hstate' : s'.registry.state index = .required) :
    RunInvariant index start ((t, .moved index before .required) :: h) s' stack := by
  refine hinv.next rfl ?_ ?_ ?_ ?_ ?_ ?_
  · rw [RebuildAccount.next_required, hstate']
  · intro u
    rw [RebuildAccount.next_required, ← hinv.stacked u]
    simp [List.filter_map, Function.comp_def]
  · rw [RebuildAccount.next_required]
    exact hinv.sound.request
  · intro hsettled _
    rw [RebuildAccount.next_required]
    exact hsettled.request
  · intro _
    exact ⟨by simp [Event.returns?], by simp [Event.movesTo?]⟩
  · intro _ _ hnext
    exact ⟨by simp [Event.returns?], by simp [Event.returns?], hnext.closed⟩

/-- A thread claims the index. -/
theorem claim (hinv : RunInvariant index start h s stack) (t : Nat)
    (hstate : s.registry.state index = .required) (hstate' : s'.registry.state index = .running) :
    RunInvariant index start ((t, .moved index .required .running) :: h) s'
      (Function.update stack t ((index, none) :: stack t)) := by
  refine hinv.next rfl ?_ ?_ ?_ ?_ ?_ ?_
  · rw [RebuildAccount.next_running, hstate']
  · intro u
    have hold := hinv.stacked u
    rw [RebuildAccount.next_running, Function.update_apply]
    by_cases hut : u = t
    · subst hut
      simpa [RunRecord.started, RunRecord.verdict, List.filter_map, Function.comp_def] using hold
    · have hne : t ≠ u := fun htu => hut htu.symm
      simpa [hut, hne, RunRecord.started, List.filter_map, Function.comp_def] using hold
  · rw [RebuildAccount.next_running]
    exact hinv.sound.overtake (hinv.state ▸ hstate) t
  · intro hsettled _
    rw [RebuildAccount.next_running]
    exact hsettled.overtake t
  · intro _
    exact ⟨by simp [Event.returns?], by simp [Event.movesTo?]⟩
  · intro _ _ hnext
    exact ⟨by simp [Event.returns?], by simp [Event.returns?], hnext.closed⟩

/-- The innermost run on the index of a thread at the top of whose stack there is one. -/
theorem exists_run (hinv : RunInvariant index start h s stack) {t : Nat} {verdict : Option Bool}
    {l : RunStack} (hstack : stack t = (index, verdict) :: l) :
    ∃ r rest, (RebuildAccount.ofTrace index start h).runs.filter (·.thread = t) = r :: rest ∧
      r.verdict = verdict ∧
      rest.map (·.verdict) = (l.filter (·.1 = index)).map (·.2) := by
  have hold := hinv.stacked t
  rw [hstack, List.filter_cons_of_pos (by simp), List.map_cons] at hold
  obtain ⟨r, rest, hfilter, hr, hrest⟩ := List.map_eq_cons_iff.1 hold
  exact ⟨r, rest, hfilter, hr, hrest⟩

/-- How the stacks look when the innermost run of a thread was to end the rebuild. -/
theorem stacked_finish (hinv : RunInvariant index start h s stack) {t : Nat} {l : RunStack}
    (hstack : stack t = (index, none) :: l) (found : RebuildState) (u : Nat) :
    (((RebuildAccount.ofTrace index start h).finish t found).filter (·.thread = u)).map
        (·.verdict) =
      ((Function.update stack t ((index, some (found = .running)) :: l) u).filter
        (·.1 = index)).map (·.2) := by
  rw [Function.update_apply, RebuildAccount.finish]
  by_cases hut : u = t
  · subst hut
    obtain ⟨r, rest, hfilter, -, hrest⟩ := hinv.exists_run hstack
    simp [RebuildAccount.filter_close_self hfilter, RunRecord.verdict_mk, hrest]
  · simp [hut, RebuildAccount.filter_close_of_ne hut, hinv.stacked u]

/-- A thread ends the rebuild of the index. -/
theorem finish (hinv : RunInvariant index start h s stack) {t : Nat} {l : RunStack}
    (hstack : stack t = (index, none) :: l) (hstate : s.registry.state index = .running)
    (hstate' : s'.registry.state index = .ok) :
    RunInvariant index start ((t, .moved index .running .ok) :: h) s'
      (Function.update stack t ((index, some true) :: l)) := by
  obtain ⟨r, rest, hfilter, hverdict, -⟩ := hinv.exists_run hstack
  have hrun := RebuildAccount.run?_of_filter hfilter
  refine hinv.next rfl ?_ ?_ ?_ ?_ ?_ ?_
  · rw [RebuildAccount.next_ok, hstate']
  · intro u
    rw [RebuildAccount.next_ok]
    simpa using hinv.stacked_finish hstack .running u
  · rw [RebuildAccount.next_ok]
    exact hinv.sound.finish hrun (RunRecord.isOpen_of_verdict_none hverdict)
      (hstate.symm.trans hinv.state) (by simp)
  · intro hsettled hundisturbed
    rw [RebuildAccount.next_ok]
    exact hsettled.end (hundisturbed.alone (by simp [Event.movesTo?]))
  · intro hpromise
    refine ⟨by simp [Event.returns?], fun _ x hx => ?_⟩
    have hclosed := hpromise.closed
    rw [RebuildAccount.next_ok] at hclosed
    have := hclosed x (RebuildAccount.mem_close.2 (.inl hx))
    simpa using this
  · intro _ _ hnext
    exact ⟨by simp [Event.returns?], by simp [Event.returns?], hnext.closed⟩

/-- A thread cannot end the rebuild of the index. -/
theorem refuse (hinv : RunInvariant index start h s stack) {t : Nat} {l : RunStack}
    (hstack : stack t = (index, none) :: l) (hstate : s.registry.state index ≠ .running)
    (hstate' : s'.registry.state index = s.registry.state index) :
    RunInvariant index start ((t, .finishRefused index (s.registry.state index)) :: h) s'
      (Function.update stack t ((index, some false) :: l)) := by
  obtain ⟨r, rest, hfilter, hverdict, -⟩ := hinv.exists_run hstack
  have hrun := RebuildAccount.run?_of_filter hfilter
  refine hinv.next rfl ?_ ?_ ?_ ?_ ?_ ?_
  · rw [RebuildAccount.next_refused, hstate', hinv.state]
  · intro u
    rw [RebuildAccount.next_refused]
    simpa [hstate] using hinv.stacked_finish hstack (s.registry.state index) u
  · rw [RebuildAccount.next_refused]
    exact hinv.sound.finish hrun (RunRecord.isOpen_of_verdict_none hverdict) hinv.state
      (by rw [if_neg hstate, hinv.state])
  · intro hsettled _
    rw [RebuildAccount.next_refused, hinv.state]
    exact hsettled.refuse hrun (RunRecord.isOpen_of_verdict_none hverdict)
  · intro _
    exact ⟨by simp [Event.returns?], by simp [Event.movesTo?]⟩
  · intro _ _ hnext
    exact ⟨by simp [Event.returns?], by simp [Event.returns?], hnext.closed⟩

/-- The innermost run of a thread returns. -/
theorem ended (hinv : RunInvariant index start h s stack) {t run : Nat} {verdict : Option Bool}
    {l : RunStack} (hstack : stack t = (index, verdict) :: l) :
    RunInvariant index start
      ((t, .rebuildEnded index run (RebuildRun.ofVerdict verdict)) :: h) s
      (Function.update stack t l) := by
  obtain ⟨r, rest, hfilter, hverdict, hrest⟩ := hinv.exists_run hstack
  have hrun := RebuildAccount.run?_of_filter hfilter
  have hmem : r ∈ (RebuildAccount.ofTrace index start h).runs := List.mem_of_find?_eq_some hrun
  refine hinv.next rfl ?_ ?_ ?_ ?_ ?_ ?_
  · rw [RebuildAccount.next_ended, hinv.state]
  · intro u
    rw [RebuildAccount.next_ended, Function.update_apply]
    by_cases hut : u = t
    · subst hut
      simp [RebuildAccount.filter_others_self, hfilter, hrest]
    · simp [hut, RebuildAccount.filter_others_of_ne hut, hinv.stacked u]
  · rw [RebuildAccount.next_ended]
    exact hinv.sound.drop t
  · intro hsettled _
    rw [RebuildAccount.next_ended]
    exact hsettled.drop t
  · intro hpromise
    refine ⟨fun hreturns => ?_, by simp [Event.movesTo?]⟩
    have hrequested := hpromise.completed hreturns
    have hovertaken := hinv.sound.overtaken r hmem
    simp_all
  · intro hsettled hundisturbed hnext
    refine ⟨fun hreturns => ?_, fun hreturns => ?_, hnext.closed⟩
    · have hovertaken := hundisturbed.latest hreturns
      have hfinished : r.verdict = some true := by
        rcases verdict with - | (- | -) <;> simp_all [Event.returns?, RebuildRun.ofVerdict]
      have := hinv.sound.finished r hmem hfinished
      simp_all
    · have hrefused : r.verdict = some false := by
        rcases verdict with - | (- | -) <;> simp_all [Event.returns?, RebuildRun.ofVerdict]
      obtain ⟨f, hf, hnot⟩ : ∃ f, r.finish = some f ∧ f.1 ≠ .running := by
        simpa [RunRecord.verdict] using hrefused
      have := hsettled.refused r hmem f hf hnot
      simpa [hrun, hf] using this

/-- An access that moves no run keeps the invariant. -/
theorem neutral (hinv : RunInvariant index start h s stack) (t : Nat)
    (hneutral : RunNeutral s s') : RunInvariant index start (h.extend t s s') s' stack := by
  cases hneutral with
  | quiet events hstates hquiet hjournal =>
    rw [Trace.extend_of_journal events hjournal]
    refine (hinv.append t fun event hevent => ?_).congr (hstates index) fun _ => rfl
    have := hquiet event hevent
    cases event <;> simp_all [Event.isAboutRuns, Event.concerns]
  | request i =>
    rw [Trace.extend_moveRegistry, RebuildRegistry.state_markRequired, if_pos rfl]
    have hstate : (s.moveRegistry i (s.registry.markRequired i)).registry.state index =
        if i = index then .required else s.registry.state index := by
      rw [registry_moveRegistry, RebuildRegistry.state_markRequired]
    split
    · next hrequired =>
      refine hinv.congr ?_ fun _ => rfl
      rw [hstate]
      split
      · next hi => rw [← hi, hrequired]
      · rfl
    · by_cases hi : i = index
      · subst hi
        exact hinv.request t _ (by simpa using hstate)
      · exact (hinv.cons (by simp [Event.concerns, hi])).congr (by simpa [hi] using hstate)
          fun _ => rfl

/-- A move of a run on another index. -/
theorem other (hinv : RunInvariant index start h s stack) {t : Nat} {l : RunStack}
    {x : Nat × Event} (hx : x.2.concerns index = false)
    (hstate : s'.registry.state index = s.registry.state index)
    (hl : l.filter (·.1 = index) = (stack t).filter (·.1 = index)) :
    RunInvariant index start (x :: h) s' (Function.update stack t l) := by
  refine (hinv.cons hx).congr hstate fun u => ?_
  rw [Function.update_apply]
  split
  · next hut => rw [hl, hut]
  · rfl

/-- Every move of a thread keeps the invariant. -/
theorem step (hinv : RunInvariant index start h s stack) {t : Nat} {l : RunStack}
    (hmove : RunMove (stack t) s l s') :
    RunInvariant index start (h.extend t s s') s' (Function.update stack t l) := by
  generalize hstack : stack t = l₀ at hmove
  cases hmove with
  | neutral hneutral =>
    rw [← hstack, Function.update_eq_self]
    exact hinv.neutral t hneutral
  | start hrequired =>
    next i =>
    rw [Trace.extend_markRunning h t hrequired, ← hstack]
    have hstate : (s.moveRegistry i (s.registry.markRunning i)).registry.state index =
        if i = index then .running else s.registry.state index := by
      rw [registry_moveRegistry, RebuildRegistry.state_markRunning]
      simp [hrequired]
    by_cases hi : i = index
    · subst hi
      exact hinv.claim t hrequired (by simpa using hstate)
    · exact hinv.other (by simp [Event.concerns, hi]) (by simpa [hi] using hstate) (by simp [hi])
  | finish =>
    next l i =>
    rw [Trace.extend_endRebuild]
    have hstate : (s.endRebuild i).registry.state index =
        if i = index ∧ s.registry.state i = .running then .ok else s.registry.state index := by
      rw [registry_endRebuild, RebuildRegistry.state_markFinished]
    by_cases hi : i = index
    · subst hi
      split
      · next hrunning =>
        have hcan : s.registry.canFinish i = true := by simp [RebuildRegistry.canFinish, hrunning]
        rw [hcan]
        exact hinv.finish hstack hrunning (by simpa [hrunning] using hstate)
      · next hrunning =>
        have hcan : s.registry.canFinish i = false := by
          simp [RebuildRegistry.canFinish, hrunning]
        rw [hcan]
        exact hinv.refuse hstack hrunning (by simpa [hrunning] using hstate)
    · have hl : ((i, some (s.registry.canFinish i)) :: l).filter (·.1 = index) =
          (stack t).filter (·.1 = index) := by
        simp [hstack, hi]
      split <;>
        exact hinv.other (by simp [Event.concerns, hi]) (by simpa [hi] using hstate) hl
  | ended =>
    next i verdict run =>
    rw [Trace.extend_note]
    by_cases hi : i = index
    · subst hi
      exact (hinv.ended hstack).congr rfl fun _ => rfl
    · exact hinv.other (by simp [Event.concerns, hi]) rfl (by simp [hstack, hi])

end RunInvariant

/-! ## Keeping to the protocol -/

section Conformance

open Service

variable {α : Type} {env : Environment S U C}

namespace ServiceState

theorem Discreet.runNeutral {s t : ServiceState S C} (h : s.Discreet t) : s.RunNeutral t := by
  cases h with
  | quiet events _ hstates hincidental hjournal =>
    refine .quiet events hstates (fun event hevent => ?_) hjournal
    have := hincidental event hevent
    cases event <;> simp_all [Event.isIncidental, Event.isRemark, Event.isAboutRuns]
  | request index => exact .request s index

theorem RunNeutral.note (s : ServiceState S C) {event : Event} (h : event.isAboutRuns = false) :
    s.RunNeutral (s.note event) :=
  .quiet [event] (fun _ => rfl) (by simpa using h) rfl

end ServiceState

/-- The actions that leave the stack of their thread as it is. -/
theorem runClass (horacle : env.oracle = .registry) (hhandle : env.handle.IsDiscreet) :
    ServiceClass env RunNeutral fun {_} a => ∀ l, a.Neutral RunMove l :=
  .of_discreet (.all fun _ => .ofNeutral fun _ _ => .neutral) (fun _ _ h => h.runNeutral) horacle
    hhandle

theorem runMove_locks (l : RunStack) (s : ServiceState S C) (locks : IndexLocks) :
    RunMove l s l { s with locks } :=
  .neutral (.quiet [] (fun _ => rfl) (by simp) rfl)

theorem runNeutral_applyUpdate (horacle : env.oracle = .registry)
    (hhandle : env.handle.IsDiscreet) (origin : Origin) (update : PreparedUpdate U) (l : RunStack) :
    (env.applyUpdate origin update).Neutral RunMove l := by
  have hP := runClass horacle hhandle
  exact hP.calls.mem_applyUpdate (hP.update fun s => .note s rfl)
    (fun _ => hP.update fun s => .note s rfl) (hP.mem_of_discreet (hhandle.apply update)) l

/-- A thread that finds its index scheduled puts a run on its stack. -/
theorem obeys_startRebuild (index : IndexId) (l : RunStack) :
    (Oracle.startRebuild index : ServiceAction S C Bool).program.Obeys RunMove
      (fun r l' => r = .ok false ∧ l' = l ∨ r = .ok true ∧ l' = (index, none) :: l) l := by
  refine Action.obeys_access_bind fun s => ?_
  by_cases hrequired : s.registry.state index = .required
  · refine ⟨_, .start hrequired, ?_⟩
    have hcan : s.registry.canStart index = true := by
      simp [RebuildRegistry.canStart, hrequired]
    simp only [hcan, if_true]
    exact Action.obeys_access_bind fun s => ⟨_, .neutral (.note s rfl),
      Action.obeys_pure (.inr ⟨rfl, rfl⟩)⟩
  · have hcan : s.registry.canStart index = false := by
      simp [RebuildRegistry.canStart, hrequired]
    have hquiet : s.RunNeutral (s.moveRegistry index (s.registry.markRunning index)) := by
      refine .quiet [] (fun other => ?_) (by simp) ?_
      · simp [RebuildRegistry.state_markRunning, hrequired]
      · simp [journal_moveRegistry, RebuildRegistry.state_markRunning, hrequired]
    refine ⟨_, .neutral hquiet, ?_⟩
    simp only [hcan, Bool.false_eq_true, if_false]
    exact Action.obeys_pure (.inl ⟨rfl, rfl⟩)

/-- Claiming an index puts a run on the stack of the thread, unless no rebuild was scheduled. -/
theorem obeys_claimAndClear (horacle : env.oracle = .registry) (hhandle : env.handle.IsDiscreet)
    (index : IndexId) (l : RunStack) :
    (env.claimAndClear index).program.Obeys RunMove
      (fun r l' => r = .ok none ∧ l' = l ∨
        ∃ x, r = .ok (some x) ∧ l' = (index, none) :: l) l := by
  have hP := runClass horacle hhandle
  have hclear : ∀ l, (env.clearIndex index).Neutral RunMove l :=
    hP.calls.mem_clearIndex (hP.update fun s => .note s rfl)
      (fun _ => hP.update fun s => .note s rfl)
      (hP.mem_of_discreet (hhandle.clear index))
  have hclaimed : (do
      let run ← Environment.numberRun index
      let cleared ← (withStructuralLock (env.clearIndex index)).outcome
      pure (some (run, cleared)) : ServiceAction S C _).program.Obeys RunMove
        (fun r l' => ∃ x, r = .ok (some x) ∧ l' = (index, none) :: l) ((index, none) :: l) := by
    refine Action.obeys_access_bind fun s => ⟨_, .neutral (.quiet [.rebuildBegan index s.runs]
      (fun _ => rfl) (by simp [Event.isAboutRuns]) rfl), ?_⟩
    refine Action.obeys_outcome_bind _ (hP.mem_withStructuralLock hclear ((index, none) :: l)) ?_
    intro r l' heq
    subst heq
    exact Action.obeys_pure ⟨_, rfl, rfl⟩
  refine obeys_withIndexLock runMove_locks ?_
  rw [horacle]
  refine Action.obeys_bind _ (obeys_startRebuild index l) ?_ ?_
  · intro started l' hend
    rcases hend with ⟨hr, rfl⟩ | ⟨hr, rfl⟩ <;> obtain rfl := Except.ok.inj hr
    · exact Action.obeys_pure (.inl ⟨rfl, rfl⟩)
    · exact hclaimed.mono fun r l' hr => .inr hr
  · intro failure l' hend
    rcases hend with ⟨hr, -⟩ | ⟨hr, -⟩ <;> cases hr

/-- A run that is to end the rebuild keeps in mind whether it did. -/
theorem obeys_finishRebuild (index : IndexId) (l : RunStack) :
    (Oracle.finishRebuild index : ServiceAction S C Bool).program.Obeys RunMove
      (fun r l' => ∃ finished, r = .ok finished ∧ l' = (index, some finished) :: l)
      ((index, none) :: l) := by
  refine Action.obeys_access_bind fun s => ⟨_, .finish, ?_⟩
  split <;>
    exact Action.obeys_access_bind fun s' => ⟨_, .neutral (.note s' rfl),
      Action.obeys_pure ⟨_, rfl, rfl⟩⟩

/-- A run that has claimed its index returns what it has come to. -/
theorem obeys_refill (horacle : env.oracle = .registry) (hhandle : env.handle.IsDiscreet)
    (index : IndexId) (cleared : Except Failure Unit) {repopulate : ServiceAction S C Unit}
    (hrepopulate : ∀ l, repopulate.Neutral RunMove l) (l : RunStack) :
    (env.refill index cleared repopulate).program.Obeys RunMove
      (fun r l' => ∃ verdict, l' = (index, verdict) :: l ∧
        r.toOption = RebuildRun.ofVerdict verdict) ((index, none) :: l) := by
  have hP := runClass horacle hhandle
  have hfilled :=
    hP.calls.result (hP.bind (hP.resume cleared) fun _ => hrepopulate) ((index, none) :: l)
  refine Action.Neutral.obeys_bind hfilled ?_ fun _ => ⟨none, rfl, rfl⟩
  rintro (cause | _)
  · exact Action.Neutral.obeys_bind (hP.calls.mem_requestRebuildOnError cause index _)
      (fun _ => Action.obeys_fail ⟨none, rfl, rfl⟩) fun _ => ⟨none, rfl, rfl⟩
  · refine Action.obeys_access_bind fun s =>
      ⟨_, .neutral (.quiet [] (fun _ => rfl) (by simp) rfl), ?_⟩
    rw [horacle]
    refine Action.obeys_bind_ok _ (obeys_finishRebuild index l) ?_
    rintro finished _ rfl
    cases finished with
    | true => exact Action.obeys_pure ⟨some true, rfl, rfl⟩
    | false => exact Action.obeys_pure ⟨some false, rfl, rfl⟩

/-- A rebuild takes the run that it puts on the stack away again. -/
theorem runNeutral_rebuildIndex (horacle : env.oracle = .registry)
    (hhandle : env.handle.IsDiscreet) (index : IndexId) {repopulate : ServiceAction S C Unit}
    (hrepopulate : ∀ l, repopulate.Neutral RunMove l) (l : RunStack) :
    (env.rebuildIndex index repopulate).Neutral RunMove l := by
  have hP := runClass horacle hhandle
  refine Action.Neutral.obeys_bind (hP.calls.registered index l) (fun registered => ?_) fun _ => rfl
  split
  · exact hP.raise _ l
  · refine Action.obeys_bind _ (obeys_claimAndClear horacle hhandle index l) ?_ ?_
    · intro claimed l' hend
      rcases hend with ⟨hr, rfl⟩ | ⟨⟨run, cleared⟩, hr, rfl⟩ <;> obtain rfl := Except.ok.inj hr
      · exact hP.pure _ l'
      · refine Action.obeys_outcome_bind _
          (obeys_refill horacle hhandle index cleared hrepopulate l) ?_
        intro r l' hend
        obtain ⟨verdict, rfl, hr⟩ := hend
        refine Action.obeys_access_bind fun s => ⟨l, ?_, hP.resume r l⟩
        rw [hr]
        exact .ended
    · intro failure l' hend
      rcases hend with ⟨hr, -⟩ | ⟨x, hr, -⟩ <;> cases hr

/-- Every command keeps to the protocol of the runs. -/
theorem runNeutral_runAll (horacle : env.oracle = .registry) (hhandle : env.handle.IsDiscreet)
    (commands : List Command) (l : RunStack) :
    (Command.runAll env none commands).Neutral RunMove l := by
  have hP := runClass horacle hhandle
  have hcommands : CommandClass env (fun _ => True) RunNeutral
      fun {_} a => ∀ l, a.Neutral RunMove l := {
    hP.toActionClass with
    still := fun _ _ h => h.discreet.runNeutral
    execute := hP.work.mem_execute fun update =>
      hP.calls.mem_runUpdateUnless (fun ha l => obeys_withIndexLock runMove_locks (ha l))
        (runNeutral_applyUpdate horacle hhandle .operation update)
    request := hP.calls.request
    rebuild := fun index _ => runNeutral_rebuildIndex horacle hhandle index
    indexFile := hP.work.mem_indexFile fun update l =>
      obeys_withIndexLock runMove_locks (runNeutral_applyUpdate horacle hhandle .rebuild update l)
    indexingState := hP.work.mem_indexingState }
  exact hcommands.mem_runAll none commands
    (Command.rebuildsOnlyAll_of_forall (fun _ => trivial) commands) l

end Conformance

/-! ## All interleavings -/

/-- Along every interleaving of threads that request rebuilds and rebuild indices, also one rebuild
inside another, the account of an index tells its state, and the promises of all runs on it are
kept if and only if no run ever ends a rebuild over another run. -/
theorem promiseKept_iff_undisturbed (env : Environment S U C) (horacle : env.oracle = .registry)
    (hhandle : env.handle.IsDiscreet) (s : ServiceState S C) (commands : List (List Command))
    (h : Trace) (q : Pool (ServiceState S C) (Except Failure Unit))
    (htrace : (env.threads s commands).Traced h q) (index : IndexId) :
    q.state.registry.state index =
        (RebuildAccount.ofTrace index (s.registry.state index) h).state ∧
      (PromiseKept index (s.registry.state index) h ↔
        Undisturbed index (s.registry.state index) h) := by
  have hobeys : (env.threads s commands).Obeys (fun _ => RunMove) (fun _ _ l => l = [])
      (fun _ => []) := by
    intro i t ht
    obtain ⟨list, -, rfl⟩ := List.mem_map.1 (List.mem_of_getElem? ht)
    exact runNeutral_runAll horacle hhandle list []
  obtain ⟨stack, hinv, -⟩ := Pool.Traced.invariant
    (fun h t stack => RunInvariant index (s.registry.state index) h t stack) hobeys
    (runInvariant_nil index s) (fun _ _ hinv hmove => hinv.step hmove) htrace
  exact ⟨hinv.state, hinv.kept_iff⟩

namespace Sample

/-- Two rebuilds in a row, the second one requested by the first one's end. -/
def repeated : List Command :=
  [.request sizes ⟨"damage"⟩, .rebuild sizes [], .request sizes ⟨"damage"⟩, .rebuild sizes []]

/-- A rebuild inside a rebuild of the same index, after another request. -/
def nested : List Command :=
  [.request sizes ⟨"damage"⟩,
    .rebuild sizes [.request sizes ⟨"more damage"⟩, .rebuild sizes []]]

/-- Two threads, each of which requests a rebuild and carries it out. -/
def racing : List (List Command) :=
  [[.request sizes ⟨"damage"⟩, .rebuild sizes []],
    [.request sizes ⟨"more damage"⟩, .rebuild sizes []]]

end Sample

/-- Rebuilds that follow each other keep their promises. -/
theorem promiseKept_iff_undisturbed_repeated :
    ∃ (h : Trace) (q : Pool (ServiceState (MemoryIndex Nat Nat) Unit) (Except Failure Unit)),
      (Sample.environment.threads Sample.state [Sample.repeated]).Traced h q ∧
        Undisturbed Sample.sizes (Sample.state.registry.state Sample.sizes) h ∧
        PromiseKept Sample.sizes (Sample.state.registry.state Sample.sizes) h := by
  obtain ⟨x, hx⟩ : ∃ x, (Sample.environment.threads Sample.state [Sample.repeated]).watch
      (List.replicate 80 0) = x := ⟨_, rfl⟩
  have htrace := Pool.traced_watch (Sample.environment.threads Sample.state [Sample.repeated])
    (List.replicate 80 0)
  rw [hx] at htrace
  have hundisturbed : Undisturbed Sample.sizes (Sample.state.registry.state Sample.sizes) x.1 := by
    rw [← hx]
    decide +kernel
  have hiff := promiseKept_iff_undisturbed Sample.environment rfl (Handle.isDiscreet_ofStores _)
    Sample.state _ _ _ htrace Sample.sizes
  exact ⟨x.1, x.2, htrace, hundisturbed, hiff.2.2 hundisturbed⟩

/-- Promises can be broken.  A rebuild inside a rebuild makes the index consistent while the outer
run is still putting files back, and the outer run is rescheduled although nothing is scheduled.
And a run that ends the rebuild of another thread returns as completed over a newer request. -/
theorem promise_broken :
    (∃ (h : Trace) (q : Pool (ServiceState (MemoryIndex Nat Nat) Unit) (Except Failure Unit)),
      (Sample.environment.threads Sample.state [Sample.nested]).Traced h q ∧
        ¬ PromiseKept Sample.sizes .ok h) ∧
    ∃ (h : Trace) (q : Pool (ServiceState (MemoryIndex Nat Nat) Unit) (Except Failure Unit)),
      (Sample.environment.threads Sample.state Sample.racing).Traced h q ∧
        ¬ PromiseKept Sample.sizes .ok h :=
  ⟨⟨_, _, Pool.traced_watch _ (List.replicate 80 0), by decide +kernel⟩,
    ⟨_, _, Pool.traced_watch _ (List.replicate 20 0 ++ List.replicate 9 1 ++ List.replicate 5 0),
      by decide +kernel⟩⟩

end FileIndexing
