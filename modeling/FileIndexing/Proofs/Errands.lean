import FileIndexing.Proofs.Discretion
import FileIndexing.Service.Errand

/-!
# What cannot fail

An operation ends with an outcome, whatever its handle does: failures and panics of the handle are
caught, and what a service does besides does not fail as long as the rebuild states are in its own
registry.

* `Action.Succeeds` is closed under the ways in which actions are built (`Succeeds.ensuring`,
  `succeeds_outcome`, `succeeds_collect`).
* `Environment.succeeds_execute` and `Environment.succeeds_applyNow` are the results.
-/

namespace FileIndexing

namespace Action

variable {σ α β : Type}

theorem succeeds_await (ready : σ → Bool) (act : σ → σ) : (await ready act).Succeeds :=
  fun _ _ => ⟨(), trivial, (), rfl⟩

/-- However an action ends, that it ended so is an answer. -/
theorem succeeds_outcome (a : Action σ α) : a.outcome.Succeeds :=
  obeys_outcome (by
    have hany : a.program.Obeys (fun (_ : Unit) _ _ _ => True) (fun _ _ => True) () := by
      induction a.program with
      | done r => trivial
      | step ready act next ih => exact fun s _ => ⟨(), trivial, ih s⟩
    exact hany.mono fun r _ _ => ⟨r, rfl⟩)

theorem succeeds_caught (a : Action σ α) : a.caught.Succeeds :=
  (succeeds_outcome a).bind fun r => by cases r <;> exact succeeds_pure _

theorem Succeeds.ensuring {a : Action σ α} {f : σ → σ} (ha : a.Succeeds) :
    (a.ensuring (update f)).Succeeds :=
  obeys_ensuring ha fun _ _ hr _ => ⟨(), trivial, hr⟩

theorem succeeds_collect {f : α → Action σ β} (hf : ∀ a, (f a).Succeeds) (list : List α) :
    (collect f list).Succeeds := by
  induction list with
  | nil => exact succeeds_pure []
  | cons a rest ih => exact (hf a).bind fun b => ih.bind fun bs => succeeds_pure (b :: bs)

/-- An action that does not fail ends with an answer. -/
theorem Succeeds.leaves {a : Action σ α} (ha : a.Succeeds) (s : σ) :
    a.Leaves s fun r _ => ∃ v, r = .ok v :=
  (leaves_of_obeys (fun _ _ => True) (fun _ _ _ _ _ _ => trivial) ha trivial).mono
    fun _ _ h => h.elim fun _ hr => hr.1

end Action

open FileIndexing.Action Service

variable {S U C : Type} {env : Environment S U C}

/-- Looking at the gate of an index does not fail. -/
theorem Environment.succeeds_isGated (horacle : env.oracle = .registry) (index : IndexId) :
    (env.isGated index).Succeeds := by
  unfold Environment.isGated
  split
  · exact succeeds_pure _
  · rw [Oracle.isOk, horacle]
    exact ((succeeds_access _).bind fun _ => succeeds_pure _).bind fun _ => succeeds_pure _

theorem Service.succeeds_recorded (outcome : Outcome) :
    (recorded outcome : ServiceAction S C Outcome).Succeeds :=
  (succeeds_recordOutcome outcome).bind fun _ => succeeds_pure outcome

namespace Environment

theorem succeeds_undertake (horacle : env.oracle = .registry) (op : Operation) :
    (env.undertake op).Succeeds := by
  have hmarked : (env.executeMarked op).Succeeds := by
    refine (succeeds_caught _).bind ?_
    rintro (cause | outcome)
    · exact (succeeds_requestRebuildOnError horacle cause op.index).bind fun _ =>
        succeeds_recorded _
    · exact succeeds_recorded outcome
  refine (succeeds_isGated horacle op.index).bind fun gated => ?_
  split
  · exact (succeeds_access _).bind fun _ => succeeds_recorded _
  · refine (succeeds_access _).bind fun registered => ?_
    split
    · exact (succeeds_access _).bind fun _ => succeeds_recorded _
    · exact (succeeds_access _).bind fun _ => (succeeds_access _).bind fun _ =>
        (succeeds_await _ _).bind fun _ => hmarked.ensuring

/-- An operation ends with an outcome. -/
theorem succeeds_execute (horacle : env.oracle = .registry) (op : Operation) :
    (env.execute op).Succeeds :=
  (succeeds_undertake horacle op).bind fun _ => (succeeds_access _).bind fun _ => succeeds_pure _

/-- The operations for a file end with a result. -/
theorem succeeds_applyNow (horacle : env.oracle = .registry) (application : FileApplication) :
    (env.applyNow application).Succeeds := by
  refine (succeeds_collect (fun op => ?_) _).bind fun outcomes => ?_
  · exact (succeeds_execute horacle op).bind fun _ => succeeds_pure _
  · dsimp only
    split
    · exact (succeeds_access _).bind fun _ => succeeds_pure _
    · exact succeeds_pure _

end Environment

/-! ## The operations for a file -/

/-- The application taken last is the one that was left to the workers last. -/
theorem DeferredWork.takeLast_submit (d : DeferredWork) (application : FileApplication) :
    (d.submit application).2.takeLast =
      (some (d.nextTicket, application), { d with nextTicket := d.nextTicket + 1 }) := by
  simp [takeLast, submit]

/-- Whether an operation removes data and puts none there. -/
def Operation.removes (op : Operation) : Bool := op.task.content?.isNone

namespace FileApplication

/-- Operations that are added are kept apart, each kind in the order in which they were added. -/
theorem foldl_add (ops : List Operation) (a : FileApplication) :
    ops.foldl add a = { a with
      removals := a.removals ++ ops.filter (·.removes)
      updates := a.updates ++ ops.filter (!·.removes) } := by
  induction ops generalizing a with
  | nil => simp
  | cons op rest ih =>
    rw [List.foldl_cons, ih, add]
    cases htask : op.task <;> simp [Operation.removes, Task.content?, htask]

@[simp] theorem operations_removeFrom (indices : List IndexId) (file : Option Path)
    (input : InputId) (mode : ApplicationMode) :
    (removeFrom indices file input mode).operations =
      indices.map fun index => .removal index file none input mode := by
  have hall : ∀ op ∈ indices.map fun index => Operation.removal index file none input mode,
      op.removes = true := by
    simp [Operation.removes, Operation.removal, Task.content?]
  rw [removeFrom, foldl_add, operations, List.filter_eq_self.2 hall,
    List.filter_eq_nil_iff.2 fun op hmem => by simp [hall op hmem]]
  exact List.append_nil _

@[simp] theorem operations_updateIn (indices : List IndexId) (content : FileContent)
    (input : InputId) (mode : ApplicationMode) :
    (updateIn indices content input mode).operations =
      indices.map fun index => .update index content input mode := by
  have hall : ∀ op ∈ indices.map fun index => Operation.update index content input mode,
      op.removes = false := by
    simp [Operation.removes, Operation.update, Task.content?]
  rw [updateIn, foldl_add, operations,
    List.filter_eq_nil_iff.2 fun op hmem => by simp [hall op hmem],
    List.filter_eq_self.2 fun op hmem => by simp [hall op hmem]]
  rfl

end FileApplication

end FileIndexing
