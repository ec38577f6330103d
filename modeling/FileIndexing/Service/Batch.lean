import FileIndexing.Service.Execute

/-!
# Operations for one file

The operations for one file run in order, whatever becomes of any of them, either at once or on a
worker.  In the second case the caller gets a ticket and waits for the result, or throws the ticket
away; the operations run in any case.

Registering an index, adding a listener and asking for the state of a file are here as well: with
`execute` they are what a service offers to its users.
-/

namespace FileIndexing

/-- The result of applying the operations for a file, or the ticket for it. -/
inductive ApplicationHandle where
  | completed (result : FileApplicationResult)
  | pending (ticket : Nat)
  deriving Repr

/-- Whether the result is still to come. -/
def ApplicationHandle.isPending : ApplicationHandle → Bool
  | .completed _ => false
  | .pending _ => true

/-- The error of a worker that ended without a result. -/
def lostResult : Error := .threadJoin "deferred application finished without a result"

/-- What waiting for a delivery answers. -/
def Delivery.received : Delivery → Except Error FileApplicationResult
  | .arrived result => .ok result
  | .lost => .error lostResult

namespace Environment

open Service

variable {S U C : Type}

/-- Carries out the operations for a file, one after the other. -/
def applyNow (env : Environment S U C) (application : FileApplication) :
    ServiceAction S C FileApplicationResult := do
  let outcomes ← Action.collect
    (fun op => do pure (op.index, ← env.execute op)) application.operations
  let result : FileApplicationResult := ⟨application.input, outcomes⟩
  if !result.allSucceeded then log (.incomplete application.info application.mode)
  pure result

/-- Carries out the operations for a file at once or leaves them to the workers. -/
def apply (env : Environment S U C) (application : FileApplication) :
    ServiceAction S C ApplicationHandle :=
  match application.mode with
  | .synchronous => do pure (.completed (← env.applyNow application))
  | .deferred => do
    let ticket ← Action.access fun s =>
      let (ticket, deferred) := s.deferred.submit application
      (ticket, { s with deferred })
    pure (.pending ticket)

/-- What a worker does with the operations for a file. -/
def work (env : Environment S U C) (ticket : Nat) (application : FileApplication) :
    ServiceAction S C Unit := do
  let delivery :=
    match ← (env.applyNow application).outcome with
    | .ok result => Delivery.arrived result
    | .error _ => .lost
  let delivered ← Action.access fun s =>
    let (delivered, deferred) := s.deferred.deliver ticket delivery
    (delivered, { s with deferred })
  match delivery with
  | .arrived _ => if !delivered then log .resultDropped
  | .lost => pure ()

end Environment

namespace Service

variable {S C : Type}

/-- Waits for the result of the operations for a file. -/
def wait : ApplicationHandle → ServiceAction S C FileApplicationResult
  | .completed result => pure result
  | .pending ticket => do
    Action.await (fun s => (s.deferred.delivery? ticket).isSome) id
    match ← Action.read fun s => s.deferred.delivery? ticket with
    | some delivery => Action.resume (delivery.received.mapError .error)
    | none => Action.raise lostResult

/-- Throws the result of the operations for a file away. -/
def discard : ApplicationHandle → ServiceAction S C Unit
  | .completed _ => pure ()
  | .pending ticket => .update fun s => { s with deferred := s.deferred.abandon ticket }

/-- Registers an index with its storage, unless one of that name is registered. -/
def register (index : IndexId) (store : S) : ServiceAction S C Unit := do
  let added ← Action.access fun s =>
    if s.isRegistered index then (false, s)
    else
      (true,
        { s.note (.logged (.registered index)) with stores := s.stores.insert index store })
  if !added then
    Action.raise (.invalidOperation s!"index {index.name} is already registered")

/-- Adds a listener after the others and answers how many there are now. -/
def addListener (listener : Listener) : ServiceAction S C Nat :=
  .access fun s =>
    (s.listeners.length + 1, { s with listeners := s.listeners ++ [listener] })

end Service

namespace Environment

open Service

variable {S U C : Type}

/-- Whether an index is up to date for an input; nothing if there is no such index. -/
def indexingState (env : Environment S U C) (index : IndexId) (input : InputId) :
    ServiceAction S C (Option IndexingState) := do
  if ← isRegistered index then
    some <$> withReadLock (env.handle.indexingState index input)
  else pure none

/-- Removes an input from all registered indices. -/
def removeFile (env : Environment S U C) (file : Option Path) (input : InputId)
    (mode : ApplicationMode) : ServiceAction S C ApplicationHandle := do
  env.apply (.removeFrom (← registeredIndices) file input mode)

/-- Updates an input in all registered indices. -/
def updateFile (env : Environment S U C) (content : FileContent) (input : InputId)
    (mode : ApplicationMode) : ServiceAction S C ApplicationHandle := do
  env.apply (.updateIn (← registeredIndices) content input mode)

end Environment

end FileIndexing
