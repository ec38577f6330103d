import FileIndexing.Proofs.Scene
import FileIndexing.Proofs.Trace

/-!
# How failures are translated into outcomes

The phases of a handle may end in many ways: with a mapping failure, with another error, in a panic.
An operation turns each of them into an outcome and does what that outcome calls for.  This module
says exactly which and what, for handles whose phases may do anything to the storage and to what the
embedding program shares, but do not call the service.

* `Behaviour` is what the phases of a handle do, as functions on the `World`, and `Handle.Performs`
  says that a handle behaves like that.
* `Behaviour.attempt` is what an operation comes to as long as its failures are not looked at, and
  `attempt_yields` and `execute_yields` say that the service does just that.
* `Behaviour.Fails` lists the failures that count as damage to storage.
* `execute_translates` is the result.
-/

namespace FileIndexing

variable {S U C : Type}

/-! ## The behaviour of a handle -/

/-- What a phase does to the world, and how it ends. -/
abbrev Phase (S C α : Type) := World S C → Except Failure α × World S C

/-- What the phases of a handle do that operations make use of. -/
structure Behaviour (S U C : Type) where
  prepare : IndexId → InputId → Option FileContent → Phase S C (PreparedUpdate U)
  apply : PreparedUpdate U → Phase S C Bool
  setIndexed : IndexId → InputId → Phase S C Unit
  setUnindexed : IndexId → InputId → Phase S C Unit

/-- An action that does what a phase does, and nothing else that is seen in a scene. -/
def Action.Performs {α : Type} (a : ServiceAction S C α) (phase : Phase S C α) : Prop :=
  ∀ x : Scene S C, a.Yields x (phase x.world).1 { x with world := (phase x.world).2 }

/-- A handle whose phases behave in a certain way. -/
structure Handle.Performs (handle : Handle S U C) (b : Behaviour S U C) : Prop where
  prepare : ∀ index input content,
    (handle.prepare index input content).Performs (b.prepare index input content)
  apply : ∀ update, (handle.apply update).Performs (b.apply update)
  setIndexed : ∀ index input, (handle.setIndexed index input).Performs (b.setIndexed index input)
  setUnindexed : ∀ index input,
    (handle.setUnindexed index input).Performs (b.setUnindexed index input)

namespace Behaviour

/-- Setting the indexing state of the input of an operation. -/
def settle (b : Behaviour S U C) (op : Operation) : Phase S C Unit :=
  match op.task with
  | .removal => b.setUnindexed op.index op.input
  | .update _ => b.setIndexed op.index op.input

/-- Preparing the update of an operation. -/
def prepareFor (b : Behaviour S U C) (op : Operation) : Phase S C (PreparedUpdate U) :=
  b.prepare op.index op.input op.task.content?

end Behaviour

/-- What is told of an operation whose content was refused. -/
def Operation.notice (op : Operation) (failure : MappingFailure) : Notice :=
  ⟨op.input, op.file, op.index, failure⟩

/-- What comes of an operation before its failures are looked at: how it ends, the world that it
leaves, and what was done on the way, the latest first. -/
structure Attempt (S C : Type) where
  result : Except Failure Outcome
  world : World S C
  deeds : List Event

namespace Attempt

/-- The outcome once a failure counts as damage to storage. -/
def outcome (a : Attempt S C) : Outcome :=
  match a.result with
  | .ok outcome => outcome
  | .error failure => .storageCorrupted failure.toError

/-- The rebuild states once a failure has led to a request. -/
def registry (a : Attempt S C) (index : IndexId) (r : RebuildRegistry) : RebuildRegistry :=
  match a.result with
  | .ok _ => r
  | .error failure => (r.request index (.ofError failure.toError)).2

/-- The scene that an operation leaves. -/
def scene (a : Attempt S C) (index : IndexId) (x : Scene S C) : Scene S C :=
  { x with world := a.world, registry := a.registry index x.registry, deeds := a.deeds ++ x.deeds }

end Attempt

/-- What is done while an update is applied, the latest first. -/
def PreparedUpdate.deeds (update : PreparedUpdate U) (changed : Option Bool) : List Event :=
  [.applyEnded update.index update.input .operation changed,
    .applyBegan update.index update.input .operation]

namespace Behaviour

/-- What comes of an operation, when certain indices are gated and certain listeners are told. -/
inductive Course (b : Behaviour S U C) (gates : IndexId → Bool) (listeners : List Listener)
    (op : Operation) (w : World S C) : Attempt S C → Prop where
  /-- The content was refused. -/
  | refused {refusal : MappingFailure} {w₁ : World S C} :
      b.prepareFor op w = (.error (.error (.mapping refusal)), w₁) →
      Course b gates listeners op w ⟨.ok (.mappingFailed refusal), w₁,
        (listeners.map fun listener => .delivered listener (op.notice refusal)).reverse⟩
  /-- Preparing failed in another way. -/
  | unprepared {failure : Failure} {w₁ : World S C} :
      b.prepareFor op w = (.error failure, w₁) →
      (∀ refusal, failure ≠ .error (.mapping refusal)) →
      Course b gates listeners op w ⟨.error failure, w₁, []⟩
  /-- The index of the update is gated. -/
  | withheld {update : PreparedUpdate U} {w₁ : World S C} :
      b.prepareFor op w = (.ok update, w₁) → gates update.index = true →
      Course b gates listeners op w ⟨.ok .gated, w₁, []⟩
  /-- Applying the update failed. -/
  | unapplied {update : PreparedUpdate U} {w₁ w₂ : World S C} {failure : Failure} :
      b.prepareFor op w = (.ok update, w₁) → gates update.index = false →
      b.apply update w₁ = (.error failure, w₂) →
      Course b gates listeners op w ⟨.error failure, w₂, update.deeds none⟩
  /-- The update changed nothing. -/
  | unchanged {update : PreparedUpdate U} {w₁ w₂ : World S C} :
      b.prepareFor op w = (.ok update, w₁) → gates update.index = false →
      b.apply update w₁ = (.ok false, w₂) →
      Course b gates listeners op w ⟨.ok (.applied false), w₂, update.deeds (some false)⟩
  /-- The update changed something, and setting the indexing state failed. -/
  | unsettled {update : PreparedUpdate U} {w₁ w₂ w₃ : World S C} {failure : Failure} :
      b.prepareFor op w = (.ok update, w₁) → gates update.index = false →
      b.apply update w₁ = (.ok true, w₂) → b.settle op w₂ = (.error failure, w₃) →
      Course b gates listeners op w ⟨.error failure, w₃, update.deeds (some true)⟩
  /-- The update changed something, and the indexing state was set. -/
  | changed {update : PreparedUpdate U} {w₁ w₂ w₃ : World S C} :
      b.prepareFor op w = (.ok update, w₁) → gates update.index = false →
      b.apply update w₁ = (.ok true, w₂) → b.settle op w₂ = (.ok (), w₃) →
      Course b gates listeners op w ⟨.ok (.applied true), w₃, update.deeds (some true)⟩

/-- The failures that count as damage to storage: preparing fails in another way than by a mapping
failure, or applying or setting the indexing state fails in any way. -/
inductive Fails (b : Behaviour S U C) (gates : IndexId → Bool) (op : Operation) (w : World S C) :
    Failure → Prop where
  | prepare {failure : Failure} : (b.prepareFor op w).1 = .error failure →
      (∀ refusal, failure ≠ .error (.mapping refusal)) → Fails b gates op w failure
  | apply {update : PreparedUpdate U} {w₁ : World S C} {failure : Failure} :
      b.prepareFor op w = (.ok update, w₁) → gates update.index = false →
      (b.apply update w₁).1 = .error failure → Fails b gates op w failure
  | settle {update : PreparedUpdate U} {w₁ w₂ : World S C} {failure : Failure} :
      b.prepareFor op w = (.ok update, w₁) → gates update.index = false →
      b.apply update w₁ = (.ok true, w₂) → (b.settle op w₂).1 = .error failure →
      Fails b gates op w failure

end Behaviour

/-! ## Operations alone -/

section Execution

open FileIndexing.Action Service

variable {env : Environment S U C} {b : Behaviour S U C} {op : Operation} {x : Scene S C}

/-- Preparing an update that does not panic. -/
theorem prepareTimed_yields (hperforms : env.handle.Performs b)
    {prepared : Except Error (PreparedUpdate U)} {w : World S C}
    (hprepared : b.prepareFor op x.world = (prepared.mapError .error, w)) :
    (env.prepareTimed op.index op.input op.task.content?).Yields x (.ok prepared)
      { x with world := w } := by
  have hphase := hperforms.prepare op.index op.input op.task.content? x
  rw [← Behaviour.prepareFor, hprepared] at hphase
  exact hphase.result.bind ((yields_count _ _).bind ((yields_count _ _).bind (yields_pure _ _)))

theorem prepareTimed_yields_panic (hperforms : env.handle.Performs b) {payload : Payload}
    {w : World S C} (hprepared : b.prepareFor op x.world = (.error (.panic payload), w)) :
    (env.prepareTimed op.index op.input op.task.content?).Yields x (.error (.panic payload))
      { x with world := w } := by
  have hphase := hperforms.prepare op.index op.input op.task.content? x
  rw [← Behaviour.prepareFor, hprepared] at hphase
  exact hphase.result_panic.bind_error

/-- Applying an update. -/
theorem applyUpdate_yields (hperforms : env.handle.Performs b) (origin : Origin)
    {update : PreparedUpdate U} {r : Except Failure Bool} {w : World S C}
    (happlied : b.apply update x.world = (r, w)) :
    (env.applyUpdate origin update).Yields x r
      { x with
        world := w
        deeds := .applyEnded update.index update.input origin r.toOption ::
          .applyBegan update.index update.input origin :: x.deeds } := by
  have hphase := hperforms.apply update
    { x with deeds := .applyBegan update.index update.input origin :: x.deeds }
  rw [happlied] at hphase
  exact (yields_note_deed rfl x).bind
    (hphase.outcome.bind ((yields_note_deed rfl _).bind (yields_resume r _)))

/-- Applying an update that does not find its index gated, under the lock of that index. -/
theorem runUpdateUnless_yields (horacle : env.oracle = .registry)
    (hperforms : env.handle.Performs b) (hheld : x.held = []) {update : PreparedUpdate U}
    {r : Except Failure Bool} {w : World S C}
    (hopen : env.gates x.registry update.index = false)
    (happlied : b.apply update x.world = (r, w)) :
    (env.runUpdateUnless .operation update env.isGated).Yields x (r.map some)
      { x with
        world := w
        deeds := .applyEnded update.index update.input .operation r.toOption ::
          .applyBegan update.index update.input .operation :: x.deeds } := by
  obtain ⟨world, registry, marks, held, coordination, listeners, deeds⟩ := x
  obtain rfl : held = [] := hheld
  refine yields_withIndexLock update.index rfl (y := ⟨_, _, _, [], _, _, _⟩) fun lock => ?_
  refine (Environment.yields_isGated horacle update.index _).bind ?_
  rw [hopen]
  refine Yields.map some ?_
  exact applyUpdate_yields hperforms .operation happlied

/-- Finding an index gated under its lock. -/
theorem runUpdateUnless_yields_gated (horacle : env.oracle = .registry) (hheld : x.held = [])
    {update : PreparedUpdate U} (hgated : env.gates x.registry update.index = true) :
    (env.runUpdateUnless .operation update env.isGated).Yields x (.ok none) x := by
  obtain ⟨world, registry, marks, held, coordination, listeners, deeds⟩ := x
  obtain rfl : held = [] := hheld
  refine yields_withIndexLock update.index rfl (y := ⟨_, _, _, [], _, _, _⟩) fun lock => ?_
  refine (Environment.yields_isGated horacle update.index _).bind ?_
  rw [hgated]
  exact yields_pure none _

theorem setState_yields (hperforms : env.handle.Performs b)
    (hshareable : x.coordination.canShare = true) {r : Except Failure Unit} {w : World S C}
    (hsettled : b.settle op x.world = (r, w)) :
    (env.setState op).Yields x r { x with world := w } := by
  refine yields_withReadLock (y := { x with world := w }) hshareable ?_
  cases htask : op.task with
  | removal =>
    have hphase := hperforms.setUnindexed op.index op.input
      { x with coordination := x.coordination.share }
    simp only [Behaviour.settle, htask] at hsettled
    rwa [hsettled] at hphase
  | update content =>
    have hphase := hperforms.setIndexed op.index op.input
      { x with coordination := x.coordination.share }
    simp only [Behaviour.settle, htask] at hsettled
    rwa [hsettled] at hphase

/-- An update that changed something is followed by the setting of the indexing state. -/
theorem carryOut_yields_changed (hperforms : env.handle.Performs b) {update : PreparedUpdate U}
    {y : Scene S C}
    (hrun : (env.runUpdateUnless .operation update env.isGated).Yields x (.ok (some true)) y)
    (hshareable : y.coordination.canShare = true) {r : Except Failure Unit} {w : World S C}
    (hsettled : b.settle op y.world = (r, w)) :
    (env.carryOut op update).Yields x (r.map fun _ => .applied true) { y with world := w } := by
  have hset : (do env.setState op; pure (Outcome.applied true) : ServiceAction S C _).Yields y
      (r.map fun _ => .applied true) { y with world := w } := by
    have hstate : (env.setState op).Yields y r { y with world := w } :=
      setState_yields hperforms hshareable hsettled
    cases r with
    | error failure => exact hstate.bind_error
    | ok _ => exact hstate.bind (yields_pure _ _)
  refine hrun.bind ?_
  dsimp only
  rw [if_pos rfl]
  split
  · exact (yields_log _ y).bind hset
  · exact hset

/-- What follows the preparing of an update. -/
theorem carryOut_yields (horacle : env.oracle = .registry) (hperforms : env.handle.Performs b)
    (hheld : x.held = []) (hshareable : x.coordination.canShare = true) {w : World S C}
    {update : PreparedUpdate U} (hprepared : b.prepareFor op w = (.ok update, x.world))
    (listeners : List Listener) :
    ∃ a, b.Course (env.gates x.registry) listeners op w a ∧
      (env.carryOut op update).Yields x a.result
        { x with world := a.world, deeds := a.deeds ++ x.deeds } := by
  cases hgates : env.gates x.registry update.index with
  | true =>
    have hrun := runUpdateUnless_yields_gated horacle hheld hgates
    exact ⟨_, .withheld hprepared hgates,
      hrun.bind ((yields_log _ x).bind (yields_pure Outcome.gated x))⟩
  | false =>
    rcases happlied : b.apply update x.world with ⟨failure | changed, w'⟩
    all_goals have hrun := runUpdateUnless_yields horacle hperforms hheld hgates happlied
    · exact ⟨_, .unapplied hprepared hgates happlied, hrun.bind_error⟩
    · cases changed with
      | false =>
        exact ⟨_, .unchanged hprepared hgates happlied, hrun.bind (yields_pure _ _)⟩
      | true =>
        rcases hsettled : b.settle op w' with ⟨failure | _, w''⟩
        all_goals have hcarry := carryOut_yields_changed hperforms hrun hshareable hsettled
        · exact ⟨_, .unsettled hprepared hgates happlied hsettled, hcarry⟩
        · exact ⟨_, .changed hprepared hgates happlied hsettled, hcarry⟩

/-- The part of an operation whose failures count as damage to storage. -/
theorem attempt_yields (horacle : env.oracle = .registry) (hperforms : env.handle.Performs b)
    (hheld : x.held = []) (hshareable : x.coordination.canShare = true)
    (hquiet : ∀ refusal w, b.prepareFor op x.world = (.error (.error (.mapping refusal)), w) →
      ∀ tag, Listener.recording tag true ∉ x.listeners) :
    ∃ a, b.Course (env.gates x.registry) x.listeners op x.world a ∧
      (env.attempt op).Yields x a.result
        { x with world := a.world, deeds := a.deeds ++ x.deeds } := by
  rcases hprepared : b.prepareFor op x.world with ⟨(cause | payload) | update, w⟩
  · have hprepare : (env.prepareTimed op.index op.input op.task.content?).Yields x
        (.ok (.error cause)) { x with world := w } := prepareTimed_yields hperforms hprepared
    cases cause with
    | mapping refusal =>
      have hnotify := yields_notify (x := { x with world := w }) (op.notice refusal)
        (hquiet refusal w hprepared)
      exact ⟨_, .refused hprepared, hprepare.bind (hnotify.bind (yields_pure _ _))⟩
    | _ => exact ⟨_, .unprepared hprepared (by simp), hprepare.bind (yields_fail _ _)⟩
  · exact ⟨_, .unprepared hprepared (by simp),
      (prepareTimed_yields_panic hperforms hprepared).bind_error⟩
  · have hprepare : (env.prepareTimed op.index op.input op.task.content?).Yields x
        (.ok (.ok update)) { x with world := w } := prepareTimed_yields hperforms hprepared
    obtain ⟨a, hcourse, hcarry⟩ := carryOut_yields (x := { x with world := w }) horacle hperforms
      hheld hshareable hprepared x.listeners
    exact ⟨a, hcourse, hprepare.bind hcarry⟩

/-- The part of an operation that runs under its mark turns failures into an outcome. -/
theorem executeMarked_yields (horacle : env.oracle = .registry) {a : Attempt S C}
    (hattempt : (env.attempt op).Yields x a.result
      { x with world := a.world, deeds := a.deeds ++ x.deeds }) :
    (env.executeMarked op).Yields x (.ok a.outcome) (a.scene op.index x) := by
  unfold Attempt.outcome Attempt.scene Attempt.registry
  refine hattempt.caught.bind ?_
  cases a.result with
  | ok outcome => exact yields_recorded outcome _
  | error failure =>
    exact (Environment.yields_requestRebuildOnError horacle _ op.index _).bind
      (yields_recorded _ _)

/-- An operation comes to what it is undertaken with. -/
theorem execute_yields_undertaken {outcome : Outcome} {y : Scene S C}
    (h : (env.undertake op).Yields x (.ok outcome) y) :
    (env.execute op).Yields x (.ok outcome) y :=
  h.bind ((yields_note rfl y).bind (yields_pure outcome y))

/-- An operation that passes the gate and finds its index comes to what is attempted under its
mark. -/
theorem execute_yields_attempted (horacle : env.oracle = .registry) {a : Attempt S C}
    (hmark : x.marks.isMarked op.mark = false)
    (hopen : env.gates x.registry op.index = false)
    (hregistered : x.world.stores.contains op.index = true)
    (hattempt : (env.attempt op).Yields { x with marks := x.marks.take op.mark } a.result
      { x with
        marks := x.marks.take op.mark
        world := a.world
        deeds := a.deeds ++ x.deeds }) :
    (env.execute op).Yields x (.ok a.outcome) (a.scene op.index x) := by
  refine execute_yields_undertaken ((Environment.yields_isGated horacle op.index x).bind ?_)
  rw [hopen]
  refine (yields_isRegistered op.index x).bind ?_
  rw [hregistered]
  refine yields_access_bind fun s hs => ⟨hs, (yields_count _ x).bind ?_⟩
  exact yields_withMark (y := a.scene op.index x) hmark (executeMarked_yields horacle hattempt)

/-- What it comes to when no listener panics. -/
theorem execute_yields (horacle : env.oracle = .registry) (hperforms : env.handle.Performs b)
    (hheld : x.held = []) (hshareable : x.coordination.canShare = true)
    (hmark : x.marks.isMarked op.mark = false)
    (hopen : env.gates x.registry op.index = false)
    (hregistered : x.world.stores.contains op.index = true)
    (hquiet : ∀ refusal w, b.prepareFor op x.world = (.error (.error (.mapping refusal)), w) →
      ∀ tag, Listener.recording tag true ∉ x.listeners) :
    ∃ a, b.Course (env.gates x.registry) x.listeners op x.world a ∧
      (env.execute op).Yields x (.ok a.outcome) (a.scene op.index x) := by
  obtain ⟨a, hcourse, hattempt⟩ := attempt_yields (x := { x with marks := x.marks.take op.mark })
    horacle hperforms hheld hshareable hquiet
  exact ⟨a, hcourse, execute_yields_attempted horacle hmark hopen hregistered hattempt⟩

/-- An operation on an index that is gated is skipped. -/
theorem execute_yields_gated (horacle : env.oracle = .registry)
    (hgated : env.gates x.registry op.index = true) :
    (env.execute op).Yields x (.ok .gated) x := by
  refine execute_yields_undertaken ((Environment.yields_isGated horacle op.index x).bind ?_)
  rw [hgated]
  exact (yields_log _ x).bind (yields_recorded _ x)

/-- An operation on an index that is not registered is skipped as well. -/
theorem execute_yields_unknown (horacle : env.oracle = .registry)
    (hopen : env.gates x.registry op.index = false)
    (hunknown : x.world.stores.contains op.index = false) :
    (env.execute op).Yields x (.ok .unknownIndex) x := by
  refine execute_yields_undertaken ((Environment.yields_isGated horacle op.index x).bind ?_)
  rw [hopen]
  refine (yields_isRegistered op.index x).bind ?_
  rw [hunknown]
  exact (yields_log _ x).bind (yields_recorded _ x)

end Execution

/-! ## What the outcomes stand for -/

namespace Behaviour

variable {b : Behaviour S U C} {gates : IndexId → Bool} {listeners : List Listener}
  {op : Operation} {w : World S C} {a : Attempt S C}

/-- An operation fails exactly by the failures that count as damage to storage. -/
theorem Course.error_iff (h : b.Course gates listeners op w a) (failure : Failure) :
    a.result = .error failure ↔ b.Fails gates op w failure := by
  constructor
  · intro hresult
    cases h with
    | refused _ => cases hresult
    | unprepared hprepared hother =>
      obtain rfl := Except.error.inj hresult
      exact .prepare (by rw [hprepared]) hother
    | withheld _ _ => cases hresult
    | unapplied hprepared hopen happlied =>
      obtain rfl := Except.error.inj hresult
      exact .apply hprepared hopen (by rw [happlied])
    | unchanged _ _ _ => cases hresult
    | unsettled hprepared hopen happlied hsettled =>
      obtain rfl := Except.error.inj hresult
      exact .settle hprepared hopen happlied (by rw [hsettled])
    | changed _ _ _ _ => cases hresult
  · intro hfails
    cases hfails <;> cases h <;> grind

/-- Otherwise the outcome is not that of a failure, and it is that of a refusal exactly if the
content was refused. -/
theorem Course.ok_iff (h : b.Course gates listeners op w a) {outcome : Outcome}
    (hresult : a.result = .ok outcome) :
    (∀ cause, outcome ≠ .storageCorrupted cause) ∧
      ∀ refusal, outcome = .mappingFailed refusal ↔
        (b.prepareFor op w).1 = .error (.error (.mapping refusal)) := by
  cases h <;> grind

/-- The outcome is that of a failure exactly if there was one. -/
theorem Course.outcome_corrupted_iff (h : b.Course gates listeners op w a) (cause : Error) :
    a.outcome = .storageCorrupted cause ↔
      ∃ failure, b.Fails gates op w failure ∧ failure.toError = cause := by
  unfold Attempt.outcome
  cases hresult : a.result with
  | ok outcome =>
    refine ⟨fun heq => absurd heq ((h.ok_iff hresult).1 cause), ?_⟩
    rintro ⟨failure, hfails, -⟩
    rw [(h.error_iff failure).2 hfails] at hresult
    cases hresult
  | error failure =>
    refine ⟨fun heq => ⟨failure, (h.error_iff failure).1 hresult, by simpa using heq⟩, ?_⟩
    rintro ⟨failure', hfails, rfl⟩
    rw [(h.error_iff failure').2 hfails] at hresult
    rw [Except.error.inj hresult]

/-- The outcome is that of a refusal exactly if the content was refused. -/
theorem Course.outcome_refused_iff (h : b.Course gates listeners op w a)
    (refusal : MappingFailure) :
    a.outcome = .mappingFailed refusal ↔
      (b.prepareFor op w).1 = .error (.error (.mapping refusal)) := by
  unfold Attempt.outcome
  cases hresult : a.result with
  | ok outcome => exact (h.ok_iff hresult).2 refusal
  | error failure =>
    refine ⟨fun heq => by simp at heq, fun hrefused => ?_⟩
    cases h <;> grind

/-- After a refusal nothing but the listeners is called. -/
theorem Course.of_refused (h : b.Course gates listeners op w a) {refusal : MappingFailure}
    (hrefused : a.outcome = .mappingFailed refusal) :
    a.world = (b.prepareFor op w).2 ∧
      a.deeds =
        (listeners.map fun listener => .delivered listener (op.notice refusal)).reverse := by
  rw [h.outcome_refused_iff] at hrefused
  cases h <;> grind

/-- Listeners are told of refusals only. -/
theorem Course.undelivered (h : b.Course gates listeners op w a)
    (hother : ∀ refusal, a.outcome ≠ .mappingFailed refusal) (listener : Listener)
    (notice : Notice) : .delivered listener notice ∉ a.deeds := by
  cases h with
  | refused _ => exact absurd rfl (hother _)
  | unprepared _ _ | withheld _ _ => simp
  | unapplied _ _ _ | unchanged _ _ _ | unsettled _ _ _ _ | changed _ _ _ _ =>
    simp [PreparedUpdate.deeds]

end Behaviour

/-- Whether a rebuild is requested depends on whether there was damage. -/
theorem Attempt.registry_eq (a : Attempt S C) (index : IndexId) (r : RebuildRegistry) :
    (∀ cause, a.outcome ≠ .storageCorrupted cause) → a.registry index r = r := by
  unfold Attempt.outcome Attempt.registry
  cases a.result with
  | ok outcome => exact fun _ => rfl
  | error failure => exact fun hother => absurd rfl (hother _)

/-! ## The result -/

/-- What an operation comes to that found its gate open, judged by how its phases ended. -/
structure Translates (b : Behaviour S U C) (gates : IndexId → Bool) (op : Operation)
    (s : ServiceState S C) (outcome : Outcome) (t : ServiceState S C) : Prop where
  /-- The outcome is that of a refusal exactly if preparing raised a mapping failure. -/
  refused_iff : ∀ refusal, outcome = .mappingFailed refusal ↔
    (b.prepareFor op s.world).1 = .error (.error (.mapping refusal))
  /-- Then nothing is applied, no indexing state is set, no rebuild is requested, and every listener
  is told once, in the order of the listeners. -/
  refused : ∀ refusal, outcome = .mappingFailed refusal →
    t.world = (b.prepareFor op s.world).2 ∧ t.registry = s.registry ∧
      t.deeds =
        (s.listeners.map fun listener => .delivered listener (op.notice refusal)).reverse ++ s.deeds
  /-- The outcome is that of damage exactly if a phase failed in another way. -/
  corrupted_iff : ∀ cause, outcome = .storageCorrupted cause ↔
    ∃ failure, b.Fails gates op s.world failure ∧ failure.toError = cause
  /-- Then the index is scheduled, the request is counted unless the index was scheduled before, and
  no listener is told. -/
  corrupted : ∀ cause, outcome = .storageCorrupted cause →
    t.registry.state op.index = .required ∧
      t.registry.requestCount op.index = s.registry.requestCount op.index +
        (if s.registry.state op.index = .required then 0 else 1) ∧
      ∃ deeds, t.deeds = deeds ++ s.deeds ∧
        ∀ listener notice, .delivered listener notice ∉ deeds
  /-- Without damage no rebuild is requested. -/
  spared : (∀ cause, outcome ≠ .storageCorrupted cause) → t.registry = s.registry
  /-- The mark and all locks are given back. -/
  marks : t.marks = s.marks
  held : t.locks.held = s.locks.held
  coordination : t.coordination = s.coordination

/-- Whatever its phases do, an operation that finds the gate open in a sequential run turns their
failures into an outcome, requests a rebuild exactly for those that count as damage, tells the
listeners of refusals only, and gives everything back. -/
theorem execute_translates (env : Environment S U C) (horacle : env.oracle = .registry)
    (b : Behaviour S U C) (hperforms : env.handle.Performs b) (op : Operation)
    (s : ServiceState S C) (hs : s.IsUnlocked) (hmark : s.marks.isMarked op.mark = false)
    (hregistered : s.isRegistered op.index = true)
    (hopen : env.gates s.registry op.index = false)
    (hquiet : ∀ tag, Listener.recording tag true ∉ s.listeners) :
    ∃ outcome t, (env.execute op).run s = some (.ok outcome, t) ∧
      Translates b (env.gates s.registry) op s outcome t := by
  obtain ⟨a, hcourse, hexecute⟩ := execute_yields (x := s.scene) horacle hperforms hs.held
    hs.shareable hmark hopen hregistered fun _ _ _ => hquiet
  obtain ⟨t, hrun, ht⟩ := hexecute s rfl
  have hworld : t.world = a.world := congrArg Scene.world ht
  have hregistry : t.registry = a.registry op.index s.registry := congrArg Scene.registry ht
  have hdeeds : t.deeds = a.deeds ++ s.deeds := congrArg Scene.deeds ht
  refine ⟨a.outcome, t, hrun, ?_⟩
  exact {
    refused_iff := hcourse.outcome_refused_iff
    refused := fun refusal hrefused => by
      obtain ⟨hleft, htold⟩ := hcourse.of_refused hrefused
      refine ⟨hworld.trans hleft, ?_, by rw [hdeeds, htold]; rfl⟩
      rw [hregistry, a.registry_eq _ _ (by simp [hrefused])]
    corrupted_iff := hcourse.outcome_corrupted_iff
    corrupted := fun cause hcorrupted => by
      obtain ⟨failure, hfails, rfl⟩ := (hcourse.outcome_corrupted_iff cause).1 hcorrupted
      have hrequest : t.registry =
          (s.registry.request op.index (.ofError failure.toError)).2 := by
        rw [hregistry, Attempt.registry, (hcourse.error_iff failure).2 hfails]
      refine ⟨?_, ?_, a.deeds, hdeeds, hcourse.undelivered (by simp [hcorrupted])⟩
      · rw [hrequest, RebuildRegistry.state_request]
      · rw [hrequest, RebuildRegistry.requestCount_request]
        split <;> simp
    spared := fun hother => by rw [hregistry, a.registry_eq _ _ hother]
    marks := congrArg Scene.marks ht
    held := congrArg Scene.held ht
    coordination := congrArg Scene.coordination ht }

namespace Phase

/-- An action that does what a phase does. -/
def toAction {α : Type} (phase : Phase S C α) : ServiceAction S C α := do
  let r ← Action.access fun s =>
    ((phase s.world).1,
      { s with stores := (phase s.world).2.stores, client := (phase s.world).2.client })
  Action.resume r

theorem performs_toAction {α : Type} (phase : Phase S C α) : phase.toAction.Performs phase := by
  intro x
  refine (Action.yields_access ?_).bind (Action.yields_resume _ _)
  rintro s rfl
  exact ⟨rfl, rfl⟩

end Phase

/-- A handle that behaves in a given way. -/
def Behaviour.handle (b : Behaviour S U C) : Handle S U C where
  prepare index input content := (b.prepare index input content).toAction
  apply update := (b.apply update).toAction
  setIndexed index input := (b.setIndexed index input).toAction
  setUnindexed index input := (b.setUnindexed index input).toAction
  indexingState _ _ := pure .notIndexed
  clear _ := pure ()

theorem Behaviour.performs_handle (b : Behaviour S U C) : b.handle.Performs b where
  prepare _ _ _ := Phase.performs_toAction _
  apply _ := Phase.performs_toAction _
  setIndexed _ _ := Phase.performs_toAction _
  setUnindexed _ _ := Phase.performs_toAction _

namespace Sample

/-- A mapping failure of the only index. -/
def refusal : MappingFailure := .caused sizes ⟨1⟩ "no size"

/-- Storage that counts what is done to it and raises a mapping failure when an update is to be
applied. -/
def confused : Behaviour Unit Unit Nat where
  prepare index input _ w := (.ok ⟨index, input, ()⟩, w)
  apply _ w := (.error (.error (.mapping refusal)), { w with client := w.client + 1 })
  setIndexed _ _ w := (.ok (), { w with client := w.client + 1 })
  setUnindexed _ _ w := (.ok (), { w with client := w.client + 1 })

/-- A service with such storage. -/
def confusion : Environment Unit Unit Nat := ⟨.standard, confused.handle, .registry, .zero⟩

/-- The service before anything has happened. -/
def unconfused : ServiceState Unit Nat :=
  .ofStores .standard (Std.ExtTreeMap.empty.insert sizes ()) true 0

end Sample

/-- A mapping failure that is raised too late counts as damage. -/
theorem execute_translates_late : ∃ outcome t,
    (Sample.confusion.execute (.removal Sample.sizes none none ⟨1⟩ .synchronous)).run
        Sample.unconfused = some (.ok outcome, t) ∧
      outcome = .storageCorrupted (.mapping Sample.refusal) ∧
      t.registry.state Sample.sizes = .required := by
  obtain ⟨outcome, t, hrun, htranslates⟩ := execute_translates Sample.confusion rfl Sample.confused
    Sample.confused.performs_handle (.removal Sample.sizes none none ⟨1⟩ .synchronous)
    Sample.unconfused ⟨rfl, rfl⟩ rfl (by decide +kernel) (by decide +kernel)
    (by simp [Sample.unconfused, ServiceState.ofStores])
  have hcorrupted : outcome = .storageCorrupted (.mapping Sample.refusal) :=
    (htranslates.corrupted_iff _).2 ⟨_, .apply rfl (by decide +kernel) rfl, rfl⟩
  exact ⟨outcome, t, hrun, hcorrupted, (htranslates.corrupted _ hcorrupted).1⟩

end FileIndexing
