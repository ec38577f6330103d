import FileIndexing.Concurrent.Program

/-!
# Threads that share a state

A pool is a state and the programs of the threads that work on it.  One step of a pool is one
access by one of its threads; `Pool.Reaches` closes this under repetition, and so describes every
interleaving.  A schedule is one interleaving as data, and `Pool.reaches_follow` says that following
it stays within those.
-/

namespace FileIndexing

/-- A shared state and what is left of the programs of the threads. -/
structure Pool (σ α : Type) where
  state : σ
  threads : List (Program σ α)

namespace Pool

variable {σ α : Type}

/-- One access by one thread. -/
inductive Step : Pool σ α → Pool σ α → Prop where
  | thread (before after : List (Program σ α)) (p q : Program σ α) (s t : σ) :
      Program.Step p s q t → Step ⟨s, before ++ p :: after⟩ ⟨t, before ++ q :: after⟩

/-- Any number of accesses. -/
inductive Reaches : Pool σ α → Pool σ α → Prop where
  | refl (p : Pool σ α) : Reaches p p
  | tail {p q r : Pool σ α} : Reaches p q → Step q r → Reaches p r

/-- Whether all threads are done. -/
def isDone (p : Pool σ α) : Bool := p.threads.all fun t => t.result?.isSome

/-- What one access by the thread at a place leads to, if there is a thread that can access. -/
def stepAt? (p : Pool σ α) (i : Nat) : Option (Pool σ α) :=
  match p.threads[i]? with
  | some (.step ready act next) =>
    if ready p.state then some ⟨act p.state, p.threads.set i (next p.state)⟩ else none
  | _ => none

/-- Follows a schedule, which names the thread that is to make each access.  An access that cannot
be made is left out. -/
def follow (p : Pool σ α) (schedule : List Nat) : Pool σ α :=
  schedule.foldl (fun p i => (p.stepAt? i).getD p) p

theorem Reaches.trans {p q r : Pool σ α} (h : Reaches p q) (h' : Reaches q r) : Reaches p r := by
  induction h' with
  | refl => exact h
  | tail _ hs ih => exact ih.tail hs

/-- Following one thread for one access is a step. -/
theorem step_of_stepAt? {p q : Pool σ α} {i : Nat} (h : p.stepAt? i = some q) : Step p q := by
  obtain ⟨s, threads⟩ := p
  simp only [stepAt?] at h
  split at h
  · next ready act next he =>
    split at h
    · next hr =>
      obtain ⟨hi, hget⟩ := List.getElem?_eq_some_iff.1 he
      have hsplit : threads = threads.take i ++ .step ready act next :: threads.drop (i + 1) := by
        rw [← hget, List.getElem_cons_drop, List.take_append_drop]
      injection h with h
      subst h
      have hset : threads.set i (next s) = threads.take i ++ next s :: threads.drop (i + 1) :=
        List.set_eq_take_append_cons_drop.trans (if_pos hi)
      rw [hset]
      conv => lhs; rw [hsplit]
      exact .thread _ _ _ _ _ _ (.step ready act next s hr)
    · simp at h
  · simp at h

/-- Every schedule leads to a state that the threads can reach. -/
theorem reaches_follow (p : Pool σ α) (schedule : List Nat) : p.Reaches (p.follow schedule) := by
  induction schedule generalizing p with
  | nil => exact .refl p
  | cons i rest ih =>
    simp only [follow, List.foldl_cons]
    cases h : p.stepAt? i with
    | none => exact ih p
    | some q => exact ((Reaches.refl p).tail (step_of_stepAt? h)).trans (ih q)

end Pool

end FileIndexing
