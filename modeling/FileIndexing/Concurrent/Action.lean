import FileIndexing.Concurrent.Program
import FileIndexing.Error

/-!
# Actions

An action is a program that may end abnormally: by raising an error or by panicking.  What follows
it is then left out, except for what is said to happen in any case.

Each way of building an action has a lemma that says how it runs alone: `Action.run_bind` for what
follows an action, `Action.run_outcome` and `Action.run_ensuring` for what failures do not stop.
-/

namespace FileIndexing

/-- A program over a shared state that has a result or fails. -/
abbrev Action (σ α : Type) := ExceptT Failure (Program σ) α

namespace Action

variable {σ α β : Type}

/-- The program of an action. -/
def program (a : Action σ α) : Program σ (Except Failure α) := a

/-- Changes the state in one step and answers what the change says about the state before. -/
def access (f : σ → α × σ) : Action σ α :=
  ExceptT.mk (.step (fun _ => true) (fun s => (f s).2) fun s => .done (.ok (f s).1))

/-- Looks at the state. -/
def read (f : σ → α) : Action σ α := access fun s => (f s, s)

/-- Changes the state. -/
def update (f : σ → σ) : Action σ Unit := access fun s => ((), f s)

/-- Waits until the state is ready and then changes it. -/
def await (ready : σ → Bool) (act : σ → σ) : Action σ Unit :=
  ExceptT.mk (.step ready act fun _ => .done (.ok ()))

/-- Ends abnormally. -/
def fail (failure : Failure) : Action σ α := throw failure

/-- Raises an error. -/
def raise (cause : Error) : Action σ α := fail (.error cause)

/-- Panics. -/
def panic (payload : Payload) : Action σ α := fail (.panic payload)

/-- Runs an action and answers how it ended. -/
def outcome (a : Action σ α) : Action σ (Except Failure α) :=
  ExceptT.mk (a.program.bind fun r => .done (.ok r))

/-- Ends as an earlier action did. -/
def resume : Except Failure α → Action σ α
  | .ok value => pure value
  | .error failure => fail failure

/-- Runs an action and then, however it ended, a second one. -/
def ensuring (a : Action σ α) (last : Action σ Unit) : Action σ α := do
  let r ← a.outcome
  last
  resume r

/-- Runs an action and answers its result or the error it raised.  A panic goes on. -/
def result (a : Action σ α) : Action σ (Except Error α) := do
  match ← a.outcome with
  | .ok value => pure (.ok value)
  | .error (.error cause) => pure (.error cause)
  | .error (.panic payload) => panic payload

/-- Runs an action and answers its result or the error it ended with, a panic counting as one. -/
def caught (a : Action σ α) : Action σ (Except Error α) := do
  match ← a.outcome with
  | .ok value => pure (.ok value)
  | .error failure => pure (.error failure.toError)

/-- Runs an action for each member of a list, in order, and answers the results. -/
def collect (f : α → Action σ β) : List α → Action σ (List β)
  | [] => pure []
  | a :: rest => do
    let b ← f a
    let bs ← collect f rest
    pure (b :: bs)

/-- Runs an action for each member of a list, in order. -/
def each (f : α → Action σ Unit) : List α → Action σ Unit
  | [] => pure ()
  | a :: rest => do
    f a
    each f rest

/-- Runs an action alone, unless it waits for ever. -/
def run (a : Action σ α) (s : σ) : Option (Except Failure α × σ) := a.program.run s

@[simp] theorem run_pure (a : α) (s : σ) : (pure a : Action σ α).run s = some (.ok a, s) := rfl

@[simp] theorem run_access (f : σ → α × σ) (s : σ) :
    (access f).run s = some (.ok (f s).1, (f s).2) := rfl

@[simp] theorem run_read (f : σ → α) (s : σ) : (read f).run s = some (.ok (f s), s) := rfl

@[simp] theorem run_update (f : σ → σ) (s : σ) : (update f).run s = some (.ok (), f s) := rfl

@[simp] theorem run_fail (failure : Failure) (s : σ) :
    (fail failure : Action σ α).run s = some (.error failure, s) := rfl

theorem run_await (ready : σ → Bool) (act : σ → σ) (s : σ) :
    (await ready act).run s = if ready s then some (.ok (), act s) else none := rfl

/-- What follows an action is left out if the action fails. -/
theorem run_bind (a : Action σ α) (k : α → Action σ β) (s : σ) :
    (a >>= k).run s =
      (a.run s).bind fun r =>
        match r.1 with
        | .ok v => (k v).run r.2
        | .error failure => some (.error failure, r.2) := by
  refine (Program.run_bind a.program _ s).trans ?_
  congr
  funext r
  obtain ⟨r, t⟩ := r
  cases r <;> rfl

/-- Asking for the outcome of an action never fails. -/
theorem run_outcome (a : Action σ α) (s : σ) :
    a.outcome.run s = (a.run s).map fun r => (.ok r.1, r.2) := by
  refine (Program.run_bind a.program _ s).trans ?_
  simp only [Option.map_eq_bind]
  rfl

theorem run_resume (r : Except Failure α) (s : σ) : (resume r).run s = some (r, s) := by
  cases r <;> rfl

/-- The last action runs however the first one ended. -/
theorem run_ensuring (a : Action σ α) (f : σ → σ) (s : σ) :
    (a.ensuring (update f)).run s = (a.run s).map fun r => (r.1, f r.2) := by
  simp only [ensuring, run_bind, run_outcome, run_update]
  cases a.run s with
  | none => rfl
  | some r => simp [run_resume]

end Action

end FileIndexing
