import FileIndexing.Proofs.Discretion

/-!
# What an action alone sees and shows

An action that runs alone ends in one way only, but its end state holds much that nobody asks
about: counters, log records, which lock was made for which index.  A `Scene` is what remains of a
state when these are left out, and `Action.Yields` says how an action ends and which scene it leaves
from every state that shows a given scene.

* `World` is the part of a scene that the phases of a handle work on, and `Scene.deeds` lists the
  applications of updates and the news brought to listeners.
* The rules are named after the ways of building an action: `Action.Yields.bind`,
  `Action.Yields.outcome`, `Action.yields_withIndexLock` and so on.
* The parts of a service that operations are made of come last: the gate, the listeners, requests.
-/

namespace FileIndexing

/-- Whether an event tells that a listener was told of something, or that the application of an
update began or ended. -/
def Event.isDeed : Event → Bool
  | .delivered _ _ | .applyBegan _ _ _ | .applyEnded _ _ _ _ => true
  | _ => false

/-- What the phases of a handle work on. -/
structure World (S C : Type) where
  stores : Std.ExtTreeMap IndexId S
  client : C

/-- What an operation depends on and what it changes, without counters and the log. -/
structure Scene (S C : Type) where
  world : World S C
  registry : RebuildRegistry
  marks : MarkTable
  /-- The locks that are held. -/
  held : List Nat
  coordination : Coordination
  listeners : List Listener
  /-- What was applied and whom listeners were told of, the latest first. -/
  deeds : List Event

namespace ServiceState

variable {S C : Type}

/-- The storage and what the embedding program shares. -/
def world (s : ServiceState S C) : World S C := ⟨s.stores, s.client⟩

/-- The deeds in the journal. -/
def deeds (s : ServiceState S C) : List Event := s.journal.filter (·.isDeed)

/-- What a state shows. -/
def scene (s : ServiceState S C) : Scene S C where
  world := s.world
  registry := s.registry
  marks := s.marks
  held := s.locks.held
  coordination := s.coordination
  listeners := s.listeners
  deeds := s.deeds

theorem scene_note (s : ServiceState S C) {event : Event} (h : event.isDeed = false) :
    (s.note event).scene = s.scene := by
  simp [scene, deeds, note, world, h]

theorem scene_note_deed (s : ServiceState S C) {event : Event} (h : event.isDeed = true) :
    (s.note event).scene = { s.scene with deeds := event :: s.deeds } := by
  simp [scene, deeds, note, world, h]

theorem scene_moveRegistry (s : ServiceState S C) (index : IndexId) (registry : RebuildRegistry) :
    (s.moveRegistry index registry).scene = { s.scene with registry } := by
  unfold moveRegistry
  dsimp only
  split
  · rfl
  · exact scene_note _ rfl

/-- The locks that an operation takes are free. -/
structure IsUnlocked (s : ServiceState S C) : Prop where
  held : s.locks.held = []
  shareable : s.coordination.canShare = true

end ServiceState

open ServiceState

namespace Action

variable {S C α β : Type} {x y z : Scene S C}

/-- Run alone from any state that shows a scene, an action ends in a certain way and leaves a state
that shows another scene. -/
def Yields (a : ServiceAction S C α) (x : Scene S C) (r : Except Failure α) (y : Scene S C) :
    Prop :=
  ∀ s : ServiceState S C, s.scene = x → ∃ t, a.run s = some (r, t) ∧ t.scene = y

/-! ## Ways of building an action -/

theorem yields_resume (r : Except Failure α) (x : Scene S C) :
    (resume r : ServiceAction S C α).Yields x r x := fun s hs => ⟨s, run_resume r s, hs⟩

theorem yields_pure (v : α) (x : Scene S C) :
    (pure v : ServiceAction S C α).Yields x (.ok v) x := yields_resume (.ok v) x

theorem yields_fail (failure : Failure) (x : Scene S C) :
    (fail failure : ServiceAction S C α).Yields x (.error failure) x :=
  yields_resume (.error failure) x

theorem yields_access {f : ServiceState S C → α × ServiceState S C} {v : α}
    (h : ∀ s, s.scene = x → (f s).1 = v ∧ (f s).2.scene = y) :
    (access f).Yields x (.ok v) y := by
  intro s hs
  obtain ⟨hv, hy⟩ := h s hs
  exact ⟨(f s).2, by rw [run_access, hv], hy⟩

theorem yields_update {f : ServiceState S C → ServiceState S C}
    (h : ∀ s, s.scene = x → (f s).scene = y) : (update f).Yields x (.ok ()) y :=
  yields_access fun s hs => ⟨rfl, h s hs⟩

theorem yields_read {f : ServiceState S C → α} {v : α} (h : ∀ s, s.scene = x → f s = v) :
    (read f).Yields x (.ok v) x := yields_access fun s hs => ⟨h s hs, hs⟩

theorem yields_await {ready : ServiceState S C → Bool} {act : ServiceState S C → ServiceState S C}
    (h : ∀ s, s.scene = x → ready s = true ∧ (act s).scene = y) :
    (await ready act).Yields x (.ok ()) y := by
  intro s hs
  obtain ⟨hready, hy⟩ := h s hs
  exact ⟨act s, by rw [run_await, if_pos hready], hy⟩

/-- What follows an action starts with the scene that the action leaves. -/
theorem Yields.bind {a : ServiceAction S C α} {k : α → ServiceAction S C β} {v : α}
    {r : Except Failure β} (ha : a.Yields x (.ok v) y) (hk : (k v).Yields y r z) :
    (a >>= k).Yields x r z := by
  intro s hs
  obtain ⟨t, hrun, ht⟩ := ha s hs
  obtain ⟨u, hrun', hu⟩ := hk t ht
  exact ⟨u, by rw [run_bind, hrun]; exact hrun', hu⟩

/-- What follows an access goes on from the state that the access found. -/
theorem yields_access_bind {f : ServiceState S C → α × ServiceState S C}
    {k : α → ServiceAction S C β} {r : Except Failure β}
    (h : ∀ s, s.scene = x → (f s).2.scene = y ∧ (k (f s).1).Yields y r z) :
    (access f >>= k).Yields x r z := by
  intro s hs
  obtain ⟨hy, hk⟩ := h s hs
  exact hk _ hy

/-- What follows an action that fails is left out. -/
theorem Yields.bind_error {a : ServiceAction S C α} {k : α → ServiceAction S C β}
    {failure : Failure} (ha : a.Yields x (.error failure) y) :
    (a >>= k).Yields x (.error failure) y := by
  intro s hs
  obtain ⟨t, hrun, ht⟩ := ha s hs
  exact ⟨t, by rw [run_bind, hrun]; rfl, ht⟩

theorem Yields.map {a : ServiceAction S C α} {r : Except Failure α} (f : α → β)
    (ha : a.Yields x r y) : (f <$> a).Yields x (r.map f) y := by
  rw [← bind_pure_comp]
  cases r with
  | ok v => exact ha.bind (yields_pure _ y)
  | error failure => exact ha.bind_error

theorem Yields.outcome {a : ServiceAction S C α} {r : Except Failure α} (ha : a.Yields x r y) :
    a.outcome.Yields x (.ok r) y := by
  intro s hs
  obtain ⟨t, hrun, ht⟩ := ha s hs
  exact ⟨t, by rw [run_outcome, hrun]; rfl, ht⟩

theorem Yields.caught {a : ServiceAction S C α} {r : Except Failure α} (ha : a.Yields x r y) :
    a.caught.Yields x (.ok (r.mapError Failure.toError)) y := by
  refine ha.outcome.bind ?_
  cases r <;> exact yields_pure _ y

theorem Yields.result {a : ServiceAction S C α} {r : Except Error α}
    (ha : a.Yields x (r.mapError .error) y) : a.result.Yields x (.ok r) y := by
  refine ha.outcome.bind ?_
  cases r <;> exact yields_pure _ y

theorem Yields.result_panic {a : ServiceAction S C α} {payload : Payload}
    (ha : a.Yields x (.error (.panic payload)) y) :
    a.result.Yields x (.error (.panic payload)) y :=
  ha.outcome.bind (yields_fail _ y)

/-- The last action is done however the first one ended. -/
theorem Yields.ensuring {a : ServiceAction S C α} {last : ServiceAction S C Unit}
    {r : Except Failure α} (ha : a.Yields x r y) (hlast : last.Yields y (.ok ()) z) :
    (a.ensuring last).Yields x r z :=
  ha.outcome.bind (hlast.bind (yields_resume r z))

/-! ## Locks and marks -/

/-- When no lock is held, an action under the lock of an index runs from a state that differs in the
lock alone. -/
theorem run_withIndexLock (index : IndexId) (a : ServiceAction S C α) {s : ServiceState S C}
    (hs : s.locks.held = []) :
    ∃ lock locked, locked.scene = { s.scene with held := [lock] } ∧
      (Service.withIndexLock index a).run s =
        (a.run locked).map fun r => (r.1, { r.2 with locks := r.2.locks.release lock }) := by
  have hheld : (s.locks.findOrMake index).2.held = [] := by
    rw [IndexLocks.findOrMake]
    split <;> exact hs
  refine ⟨(s.locks.findOrMake index).1, { s with
    locks := (s.locks.findOrMake index).2.acquire (s.locks.findOrMake index).1 }, ?_, ?_⟩
  · simp [scene, deeds, world, IndexLocks.acquire, hheld]
  · have hfree : (s.locks.findOrMake index).2.isFree (s.locks.findOrMake index).1 = true := by
      simp [IndexLocks.isFree, hheld]
    rw [Service.withIndexLock, run_bind, Service.run_findLock]
    simp only [Option.bind_some]
    rw [run_bind, run_await, if_pos hfree]
    exact run_ensuring a _ _

/-- Under the lock of an index, when no lock is held. -/
theorem yields_withIndexLock (index : IndexId) {a : ServiceAction S C α} {r : Except Failure α}
    (hx : x.held = [])
    (ha : ∀ lock, a.Yields { x with held := [lock] } r { y with held := [lock] }) :
    (Service.withIndexLock index a).Yields x r { y with held := [] } := by
  rintro s rfl
  obtain ⟨lock, locked, hlocked, hrun⟩ := run_withIndexLock index a hx
  obtain ⟨t, hend, ht⟩ := ha lock locked hlocked
  refine ⟨{ t with locks := t.locks.release lock }, by rw [hrun, hend]; rfl, ?_⟩
  have hheld : t.locks.held = [lock] := congrArg Scene.held ht
  show { t.scene with held := t.locks.held.erase lock } = _
  rw [ht, hheld, List.erase_cons_head]

/-- Sharing the coordination lock. -/
theorem yields_withReadLock {a : ServiceAction S C α} {r : Except Failure α}
    (hx : x.coordination.canShare = true)
    (ha : a.Yields { x with coordination := x.coordination.share } r
      { y with coordination := x.coordination.share }) :
    (Service.withReadLock a).Yields x r { y with coordination := x.coordination } := by
  refine (yields_await (y := { x with coordination := x.coordination.share }) ?_).bind
    (ha.ensuring (yields_update ?_))
  · rintro s rfl
    exact ⟨hx, rfl⟩
  · intro s hs
    have hshared : s.coordination = x.coordination.share := congrArg Scene.coordination hs
    show { s.scene with coordination := s.coordination.unshare } = _
    rw [hs, hshared]
    simp [Coordination.share, Coordination.unshare]

/-- Holding the coordination lock alone. -/
theorem yields_withStructuralLock {a : ServiceAction S C α} {r : Except Failure α}
    (hx : x.coordination.canHold = true)
    (ha : a.Yields { x with coordination := x.coordination.queue.hold } r
      { y with coordination := x.coordination.queue.hold }) :
    (Service.withStructuralLock a).Yields x r { y with coordination := x.coordination } := by
  refine (yields_update (y := { x with coordination := x.coordination.queue }) ?_).bind
    ((yields_await (y := { x with coordination := x.coordination.queue.hold }) ?_).bind
      (ha.ensuring (yields_update ?_)))
  · rintro s rfl
    rfl
  · intro s hs
    have hqueued : s.coordination = x.coordination.queue := congrArg Scene.coordination hs
    refine ⟨by rw [hqueued]; exact hx, ?_⟩
    show { s.scene with coordination := s.coordination.hold } = _
    rw [hs, hqueued]
  · intro s hs
    have hheld : s.coordination = x.coordination.queue.hold := congrArg Scene.coordination hs
    show { s.scene with coordination := s.coordination.unhold } = _
    have hwriter : x.coordination.writer = false := by
      simp only [Coordination.canHold, Bool.and_eq_true, Bool.not_eq_true'] at hx
      exact hx.1
    rw [hs, hheld]
    simp [Coordination.queue, Coordination.hold, Coordination.unhold, ← hwriter]

/-- Holding a mark that is free. -/
theorem yields_withMark {mark : WriteMark} {a : ServiceAction S C α} {r : Except Failure α}
    (hx : x.marks.isMarked mark = false)
    (ha : a.Yields { x with marks := x.marks.take mark } r
      { y with marks := x.marks.take mark }) :
    (Service.withMark mark a).Yields x r { y with marks := x.marks } := by
  refine (yields_await (y := { x with marks := x.marks.take mark }) ?_).bind
    (ha.ensuring (yields_update ?_))
  · rintro s rfl
    exact ⟨by simpa [scene] using hx, rfl⟩
  · intro s hs
    have htaken : s.marks = x.marks.take mark := congrArg Scene.marks hs
    show { s.scene with marks := s.marks.release mark } = _
    rw [hs, htaken]
    simp

end Action

/-! ## Parts of operations -/

namespace Service

open FileIndexing.Action

variable {S C : Type}

theorem yields_count (f : Counters → Counters) (x : Scene S C) :
    (count f : ServiceAction S C Unit).Yields x (.ok ()) x := yields_update fun _ hs => hs

theorem yields_note {event : Event} (h : event.isDeed = false) (x : Scene S C) :
    (note event : ServiceAction S C Unit).Yields x (.ok ()) x :=
  yields_update fun s hs => (scene_note s h).trans hs

theorem yields_note_deed {event : Event} (h : event.isDeed = true) (x : Scene S C) :
    (note event : ServiceAction S C Unit).Yields x (.ok ())
      { x with deeds := event :: x.deeds } := by
  refine yields_update ?_
  rintro s rfl
  exact scene_note_deed s h

theorem yields_log (record : LogRecord) (x : Scene S C) :
    (log record : ServiceAction S C Unit).Yields x (.ok ()) x := yields_note rfl x

theorem yields_isRegistered (index : IndexId) (x : Scene S C) :
    (isRegistered index : ServiceAction S C Bool).Yields x
      (.ok (x.world.stores.contains index)) x := by
  refine yields_read ?_
  rintro s rfl
  rfl

theorem yields_recorded (outcome : Outcome) (x : Scene S C) :
    (recorded outcome : ServiceAction S C Outcome).Yields x (.ok outcome) x := by
  have hcount : (recordOutcome outcome : ServiceAction S C Unit).Yields x (.ok ()) x := by
    cases outcome with
    | applied changed =>
      refine (yields_count _ x).bind ?_
      cases changed with
      | true => exact yields_count _ x
      | false => exact yields_pure () x
    | _ => exact yields_count _ x
  exact hcount.bind (yields_pure outcome x)

/-- What telling one listener comes to. -/
theorem yields_deliver (notice : Notice) (listener : Listener) (x : Scene S C) :
    (deliver notice listener : ServiceAction S C Unit).Yields x
      (match listener with
        | .recording _ true => .error (.panic (.text "listener panic"))
        | _ => .ok ())
      { x with deeds := .delivered listener notice :: x.deeds } := by
  refine (yields_note_deed rfl x).bind ?_
  cases listener with
  | logging => exact yields_log _ _
  | recording tag panics =>
    cases panics with
    | true => exact yields_fail _ _
    | false => exact yields_pure () _

/-- Listeners that do not panic are told one after the other. -/
theorem yields_notify (notice : Notice) {x : Scene S C}
    (hquiet : ∀ tag, Listener.recording tag true ∉ x.listeners) :
    (notify notice : ServiceAction S C Unit).Yields x (.ok ())
      { x with deeds := (x.listeners.map fun listener => .delivered listener notice).reverse ++
        x.deeds } := by
  have heach : ∀ (listeners : List Listener) (x : Scene S C),
      (∀ tag, Listener.recording tag true ∉ listeners) →
      (Action.each (deliver notice) listeners : ServiceAction S C Unit).Yields x (.ok ())
        { x with deeds := (listeners.map fun listener => .delivered listener notice).reverse ++
          x.deeds } := by
    intro listeners
    induction listeners with
    | nil => exact fun x _ => yields_pure () x
    | cons listener rest ih =>
      intro x hlisteners
      have hrest := ih { x with deeds := .delivered listener notice :: x.deeds }
        fun tag hmem => hlisteners tag (List.mem_cons_of_mem _ hmem)
      rw [List.map_cons, List.reverse_cons, List.append_assoc]
      have hone := yields_deliver notice listener x
      split at hone
      · next tag => exact absurd List.mem_cons_self (hlisteners tag)
      · exact hone.bind hrest
  refine (yields_read (v := x.listeners) ?_).bind (heach x.listeners x hquiet)
  rintro s rfl
  rfl

/-- Telling listeners ends in a panic if one of them panics. -/
theorem yields_notify_panics (notice : Notice) {x : Scene S C} {tag : String}
    (hpanics : Listener.recording tag true ∈ x.listeners) :
    ∃ told, (notify notice : ServiceAction S C Unit).Yields x
      (.error (.panic (.text "listener panic"))) { x with deeds := told ++ x.deeds } := by
  have heach : ∀ (listeners : List Listener) (x : Scene S C),
      Listener.recording tag true ∈ listeners →
      ∃ told, (Action.each (deliver notice) listeners : ServiceAction S C Unit).Yields x
        (.error (.panic (.text "listener panic"))) { x with deeds := told ++ x.deeds } := by
    intro listeners
    induction listeners with
    | nil => exact fun x hmem => absurd hmem List.not_mem_nil
    | cons listener rest ih =>
      intro x hmem
      have hone := yields_deliver notice listener x
      split at hone
      · exact ⟨[_], hone.bind_error⟩
      · next hquiet =>
        have hrest : Listener.recording tag true ∈ rest :=
          (List.mem_cons.1 hmem).resolve_left fun heq => hquiet tag heq.symm
        obtain ⟨told, hlater⟩ := ih { x with deeds := .delivered listener notice :: x.deeds } hrest
        refine ⟨told ++ [.delivered listener notice], ?_⟩
        rw [List.append_assoc]
        exact hone.bind hlater
  obtain ⟨told, hlisteners⟩ := heach x.listeners x hpanics
  refine ⟨told, (yields_read (v := x.listeners) ?_).bind hlisteners⟩
  rintro s rfl
  rfl

end Service

namespace Environment

open FileIndexing.Action Service

variable {S U C : Type} {env : Environment S U C}

/-- Whether operations on an index are skipped when the rebuild states are as in a registry. -/
def gates (env : Environment S U C) (registry : RebuildRegistry) (index : IndexId) : Bool :=
  !env.config.testMode && registry.state index ≠ .ok

theorem yields_isGated (horacle : env.oracle = .registry) (index : IndexId) (x : Scene S C) :
    (env.isGated index).Yields x (.ok (env.gates x.registry index)) x := by
  cases htest : env.config.testMode with
  | true =>
    rw [isGated_of_testMode htest, gates, htest]
    exact yields_pure _ x
  | false =>
    rw [isGated_of_registry horacle htest, gates, htest]
    refine (yields_read (v := x.registry.state index) ?_).bind ?_
    · rintro s rfl
      rfl
    · simpa using yields_pure (!decide (x.registry.state index = .ok)) x

theorem yields_request (horacle : env.oracle = .registry) (index : IndexId) (cause : RebuildCause)
    (x : Scene S C) :
    (env.oracle.request index cause).Yields x (.ok (x.registry.canRequest index))
      { x with registry := (x.registry.request index cause).2 } := by
  rw [horacle]
  have hmark : ∀ (before : Option RebuildState),
      (if x.registry.canRequest index then some (x.registry.state index) else none) = before →
      (access fun s : ServiceState S C =>
        (if s.registry.canRequest index then some (s.registry.state index) else none,
          s.moveRegistry index (s.registry.markRequired index))).Yields x (.ok before)
        { x with registry := x.registry.markRequired index } := by
    rintro _ rfl
    refine yields_access ?_
    rintro s rfl
    exact ⟨rfl, scene_moveRegistry s index _⟩
  cases hcan : x.registry.canRequest index with
  | false =>
    refine (hmark none (by simp [hcan])).bind ?_
    simpa [RebuildRegistry.request, RebuildRegistry.markRequired, hcan] using
      yields_pure false { x with registry := x.registry.register index }
  | true =>
    refine (hmark (some (x.registry.state index)) (by simp [hcan])).bind ?_
    refine (yields_update (y := { x with
      registry := (x.registry.markRequired index).countRequest index }) ?_).bind
        ((yields_log _ _).bind ((yields_update ?_).bind (yields_pure true _)))
    · intro s hs
      have hregistry : s.registry = x.registry.markRequired index := congrArg Scene.registry hs
      show { s.scene with registry := s.registry.countRequest index } = _
      rw [hs, hregistry]
    · intro s hs
      have hregistry : s.registry = (x.registry.markRequired index).countRequest index :=
        congrArg Scene.registry hs
      show { s.scene with registry := s.registry.recordRequest index cause } = _
      rw [hs, hregistry]
      simp [RebuildRegistry.request, hcan]

theorem yields_requestRebuildOnError (horacle : env.oracle = .registry) (cause : Error)
    (index : IndexId) (x : Scene S C) :
    (env.requestRebuildOnError cause index).Yields x (.ok ())
      { x with registry := (x.registry.request index (.ofError cause)).2 } :=
  (yields_log _ x).bind ((yields_request horacle index _ x).bind (yields_pure () _))

end Environment

end FileIndexing
