import FileIndexing.Service.Batch

/-!
# Workers

The threads of a program that uses a service, together with the workers of the service.  A worker
takes the oldest operations that were left to the workers, carries them out and is free again; at
most a given number of workers are busy at once.

`Crew.Step` allows every order of the accesses.  `Crew.perform` follows one order: a single thread
goes first as long as it can, and while it waits the workers go as far as they can.
-/

namespace FileIndexing

/-- The shared state, what is left of the programs of the threads, and of those of busy workers. -/
structure Crew (S C α : Type) where
  state : ServiceState S C
  threads : List (Program (ServiceState S C) α)
  busy : List (Program (ServiceState S C) (Except Failure Unit))

namespace Crew

variable {S U C α : Type}

/-- A free worker takes the oldest operations left to the workers. -/
def hire? (env : Environment S U C) (limit : Nat) (c : Crew S C α) : Option (Crew S C α) :=
  match c.state.deferred.queue with
  | [] => none
  | (ticket, application) :: queue =>
    if c.busy.length < limit then
      some
        { c with
          state := { c.state with deferred := { c.state.deferred with queue } }
          busy := c.busy ++ [(env.work ticket application).program] }
    else none

/-- What one access, or the taking or ending of work, can lead to. -/
inductive Step (env : Environment S U C) (limit : Nat) : Crew S C α → Crew S C α → Prop where
  | thread (before after : List (Program (ServiceState S C) α))
      (p q : Program (ServiceState S C) α) (s t : ServiceState S C)
      (busy : List (Program (ServiceState S C) (Except Failure Unit))) : Program.Step p s q t →
      Step env limit ⟨s, before ++ p :: after, busy⟩ ⟨t, before ++ q :: after, busy⟩
  | worker (threads : List (Program (ServiceState S C) α))
      (before after : List (Program (ServiceState S C) (Except Failure Unit)))
      (p q : Program (ServiceState S C) (Except Failure Unit)) (s t : ServiceState S C) :
      Program.Step p s q t →
      Step env limit ⟨s, threads, before ++ p :: after⟩ ⟨t, threads, before ++ q :: after⟩
  | hire (c d : Crew S C α) : c.hire? env limit = some d → Step env limit c d
  | retire (s : ServiceState S C) (threads : List (Program (ServiceState S C) α))
      (before after : List (Program (ServiceState S C) (Except Failure Unit)))
      (r : Except Failure Unit) :
      Step env limit ⟨s, threads, before ++ .done r :: after⟩ ⟨s, threads, before ++ after⟩

/-- Free workers take work as long as there is any. -/
def hireAll (env : Environment S U C) (limit : Nat) : Nat → Crew S C α → Crew S C α
  | 0, c => c
  | n + 1, c =>
    match c.hire? env limit with
    | some d => hireAll env limit n d
    | none => c

/-- Lets busy workers go as far as they can, one after the other; those that are done are free. -/
def workAll (s : ServiceState S C) :
    List (Program (ServiceState S C) (Except Failure Unit)) →
      List (Program (ServiceState S C) (Except Failure Unit)) × ServiceState S C
  | [] => ([], s)
  | p :: rest =>
    let (p, s) := p.advance s
    let (rest, s) := workAll s rest
    if p.result?.isSome then (rest, s) else (p :: rest, s)

/-- Lets the workers take work and go as far as they can. -/
def workRound (env : Environment S U C) (limit : Nat) (c : Crew S C α) : Crew S C α :=
  let c := c.hireAll env limit limit
  let (busy, state) := workAll c.state c.busy
  { c with state, busy }

/-- Whether a worker can go on or take work. -/
def canWork (env : Environment S U C) (limit : Nat) (c : Crew S C α) : Bool :=
  (c.hire? env limit).isSome || c.busy.any fun p => p.isReady c.state

/-- Runs a program with workers at its side, for a number of rounds at most.  There is no result if
the program and all workers wait. -/
def performFrom (env : Environment S U C) (limit : Nat) :
    Nat → Program (ServiceState S C) α →
      List (Program (ServiceState S C) (Except Failure Unit)) → ServiceState S C →
        Option (α × ServiceState S C)
  | 0, _, _, _ => none
  | rounds + 1, p, busy, s =>
    match p.advance s with
    | (.done a, s) => some (a, s)
    | (p, s) =>
      let c : Crew S C α := ⟨s, [], busy⟩
      if c.canWork env limit then
        let c := c.workRound env limit
        performFrom env limit rounds p c.busy c.state
      else none

/-- The rounds that a program may take. -/
def roundLimit : Nat := 1000000

/-- Runs a program with workers at its side. -/
def perform (env : Environment S U C) (limit : Nat) (p : Program (ServiceState S C) α)
    (s : ServiceState S C) : Option (α × ServiceState S C) :=
  performFrom env limit roundLimit p [] s

end Crew

end FileIndexing
