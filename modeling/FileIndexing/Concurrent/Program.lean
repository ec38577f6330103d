/-!
# Programs of one thread

What a thread does to a state that it shares with others, at the grain of single accesses.  Before
each access the thread waits until the state is ready for it; the access then changes the state in
one step, and the thread goes on in the light of the state that it found.

* `Program.run` runs a program alone; it has no result if the program would wait for ever.
* `Program.advance` runs it alone as far as it gets.
* `Program.Step` is one access, which others may precede and follow.

`Program.run_bind` says how a program followed by another one runs, and `Program.run_focus` that a
program on a part of the state leaves the rest alone.
-/

namespace FileIndexing

/-- A program over a shared state of type `σ` with a result of type `α`. -/
inductive Program (σ α : Type) where
  | done (result : α)
  | step (ready : σ → Bool) (act : σ → σ) (next : σ → Program σ α)

namespace Program

variable {σ α β : Type}

/-- A program followed by another one that is given its result. -/
def bind : Program σ α → (α → Program σ β) → Program σ β
  | .done a, k => k a
  | .step ready act next, k => .step ready act fun s => (next s).bind k

instance : Monad (Program σ) where
  pure := .done
  bind := bind

theorem bind_done (p : Program σ α) : p.bind .done = p := by
  induction p with
  | done a => rfl
  | step ready act next ih =>
    simp only [bind]
    congr
    funext s
    exact ih s

theorem bind_assoc {γ : Type} (p : Program σ α) (f : α → Program σ β) (g : β → Program σ γ) :
    (p.bind f).bind g = p.bind fun a => (f a).bind g := by
  induction p with
  | done a => rfl
  | step ready act next ih =>
    simp only [bind]
    congr
    funext s
    exact ih s

/-- Runs a program alone, from a state to its result and the state it leaves, unless it waits for
ever. -/
def run : Program σ α → σ → Option (α × σ)
  | .done a, s => some (a, s)
  | .step ready act next, s => if ready s then (next s).run (act s) else none

theorem run_bind (p : Program σ α) (k : α → Program σ β) (s : σ) :
    (p.bind k).run s = (p.run s).bind fun r => (k r.1).run r.2 := by
  induction p generalizing s with
  | done a => rfl
  | step ready act next ih =>
    simp only [bind, run]
    split
    · exact ih s (act s)
    · rfl

/-- Runs a program alone until it is done or has to wait. -/
def advance : Program σ α → σ → Program σ α × σ
  | .done a, s => (.done a, s)
  | .step ready act next, s =>
    if ready s then (next s).advance (act s) else (.step ready act next, s)

/-- The result of a program that is done. -/
def result? : Program σ α → Option α
  | .done a => some a
  | .step .. => none

/-- Whether a program can make an access. -/
def isReady : Program σ α → σ → Bool
  | .done _, _ => false
  | .step ready _ _, s => ready s

/-- One access: what the program and the state become. -/
inductive Step : Program σ α → σ → Program σ α → σ → Prop where
  | step (ready : σ → Bool) (act : σ → σ) (next : σ → Program σ α) (s : σ) : ready s = true →
      Step (.step ready act next) s (next s) (act s)

/-- A program on a part of the state, as a program on the whole state. -/
def focus {τ : Type} (get : τ → σ) (set : τ → σ → τ) : Program σ α → Program τ α
  | .done a => .done a
  | .step ready act next =>
    .step (fun t => ready (get t)) (fun t => set t (act (get t))) fun t =>
      (next (get t)).focus get set

instance : LawfulMonad (Program σ) :=
  LawfulMonad.mk' (Program σ) bind_done (fun _ _ => rfl) bind_assoc

/-- Running alone is advancing to the end. -/
theorem run_eq_advance (p : Program σ α) (s : σ) :
    p.run s = (p.advance s).1.result?.map fun a => (a, (p.advance s).2) := by
  induction p generalizing s with
  | done a => rfl
  | step ready act next ih =>
    simp only [run, advance]
    split
    · exact ih s (act s)
    · rfl

/-- A program on a part of the state runs as it does on that part, and leaves the rest. -/
theorem run_focus {τ : Type} {get : τ → σ} {set : τ → σ → τ}
    (get_set : ∀ t s, get (set t s) = s) (set_set : ∀ t s s', set (set t s) s' = set t s')
    (set_get : ∀ t, set t (get t) = t) (p : Program σ α) (t : τ) :
    (p.focus get set).run t = (p.run (get t)).map fun r => (r.1, set t r.2) := by
  induction p generalizing t with
  | done a => simp [focus, run, set_get]
  | step ready act next ih =>
    simp only [focus, run]
    split
    · rw [ih, get_set]
      congr
      funext r
      rw [set_set]
    · rfl

end Program

end FileIndexing
