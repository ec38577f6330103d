import FileIndexing.Service.Environment

/-!
# Executing operations

How a service carries out one operation.  In order:

* An operation on an index that waits for a rebuild is skipped, and so is one on an index that is
  not registered.
* The operation counts as a modification and takes the mark of its index and input; it keeps the
  mark to its end, however it ends.
* The update is prepared.  A mapping failure is brought to the listeners and ends the operation.
* Holding the lock of the index, the operation looks again whether the index waits for a rebuild,
  and applies the update if it does not.
* If storage changed, the indexing state of the input is set, sharing the coordination lock.

Every other failure on the way, panics included, ends the operation as well and makes the service
request a rebuild of the index.

Locks are taken in the order mark, lock of the index, coordination lock.
-/

namespace FileIndexing.Service

variable {S U C α : Type}

/-! ## Locks -/

/-- The lock of an index; it is looked for first and made only if it is not there. -/
def findLock (index : IndexId) : ServiceAction S C Nat := do
  match ← Action.read fun s => s.locks.find? index with
  | some lock => pure lock
  | none => Action.access fun s =>
    let (lock, locks) := s.locks.findOrMake index
    (lock, { s with locks })

/-- Runs an action while holding the lock of an index. -/
def withIndexLock (index : IndexId) (a : ServiceAction S C α) : ServiceAction S C α := do
  let lock ← findLock index
  Action.await (fun s => s.locks.isFree lock) fun s => { s with locks := s.locks.acquire lock }
  a.ensuring (.update fun s => { s with locks := s.locks.release lock })

/-- Runs an action while sharing the coordination lock. -/
def withReadLock (a : ServiceAction S C α) : ServiceAction S C α := do
  Action.await (·.coordination.canShare) fun s => { s with coordination := s.coordination.share }
  a.ensuring (.update fun s => { s with coordination := s.coordination.unshare })

/-- Runs an action while holding the coordination lock alone. -/
def withStructuralLock (a : ServiceAction S C α) : ServiceAction S C α := do
  Action.update fun s => { s with coordination := s.coordination.queue }
  Action.await (·.coordination.canHold) fun s => { s with coordination := s.coordination.hold }
  a.ensuring (.update fun s => { s with coordination := s.coordination.unhold })

/-- Runs an action while holding a mark, waiting for the mark first. -/
def withMark (mark : WriteMark) (a : ServiceAction S C α) : ServiceAction S C α := do
  Action.await (fun s => !s.marks.isMarked mark) fun s => { s with marks := s.marks.take mark }
  a.ensuring (.update fun s => { s with marks := s.marks.release mark })

/-! ## Small parts -/

/-- Counts something. -/
def count (f : Counters → Counters) : ServiceAction S C Unit :=
  .update fun s => { s with counters := f s.counters }

/-- Counts a modification and answers the new count. -/
def bumpModCount : ServiceAction S C UInt64 :=
  .access fun s => (s.modCount + 1, { s with modCount := s.modCount + 1 })

/-- Counts a modification on somebody's own account. -/
def increaseModCount : ServiceAction S C UInt64 := do
  let modCount ← bumpModCount
  note .bumped
  pure modCount

/-- Whether an index is registered. -/
def isRegistered (index : IndexId) : ServiceAction S C Bool := .read (·.isRegistered index)

/-- The ids of all registered indices, in order. -/
def registeredIndices : ServiceAction S C (List IndexId) := .read (·.registeredIndices)

/-- Tells one listener of a mapping failure. -/
def deliver (notice : Notice) (listener : Listener) : ServiceAction S C Unit := do
  note (.delivered listener notice)
  match listener with
  | .logging => log (.mappingFailed notice)
  | .recording _ panics => if panics then Action.panic (.text "listener panic")

/-- Tells all listeners of a mapping failure, in the order in which they were added. -/
def notify (notice : Notice) : ServiceAction S C Unit := do
  Action.each (deliver notice) (← Action.read (·.listeners))

/-- Counts an outcome. -/
def recordOutcome : Outcome → ServiceAction S C Unit
  | .applied changed => do
    count (·.recordSucceeded)
    if changed then count (·.recordChange)
  | .gated => count (·.recordGated)
  | .mappingFailed _ => count (·.recordMappingFailure)
  | .storageCorrupted _ => count (·.recordStorageFailure)
  | .unknownIndex => count (·.recordUnknownIndex)

/-- Counts the outcome of an operation and answers it. -/
def recorded (outcome : Outcome) : ServiceAction S C Outcome := do
  recordOutcome outcome
  pure outcome

end Service

namespace Environment

open Service

variable {S U C : Type}

/-- Whether operations on an index are skipped. -/
def isGated (env : Environment S U C) (index : IndexId) : ServiceAction S C Bool := do
  if env.config.testMode then pure false else pure !(← env.oracle.isOk index)

/-- Treats an error as damage to the storage of an index and requests a rebuild. -/
def requestRebuildOnError (env : Environment S U C) (cause : Error) (index : IndexId) :
    ServiceAction S C Unit := do
  log (.corrupted index cause)
  let _ ← env.oracle.request index (.ofError cause)

/-- Applies an update, noting when that begins and ends. -/
def applyUpdate (env : Environment S U C) (origin : Origin) (update : PreparedUpdate U) :
    ServiceAction S C Bool := do
  note (.applyBegan update.index update.input origin)
  let r ← (env.handle.apply update).outcome
  note (.applyEnded update.index update.input origin r.toOption)
  Action.resume r

/-- Applies an update while holding the lock of its index. -/
def runUpdate (env : Environment S U C) (origin : Origin) (update : PreparedUpdate U) :
    ServiceAction S C Bool :=
  withIndexLock update.index (env.applyUpdate origin update)

/-- Applies an update while holding the lock of its index, unless the index turns out to be gated
then. -/
def runUpdateUnless (env : Environment S U C) (origin : Origin) (update : PreparedUpdate U)
    (gate : IndexId → ServiceAction S C Bool) : ServiceAction S C (Option Bool) :=
  withIndexLock update.index do
    if ← gate update.index then pure none else some <$> env.applyUpdate origin update

/-- Prepares an update and counts the time that took.  The error raised is part of the answer; a
panic goes on. -/
def prepareTimed (env : Environment S U C) (index : IndexId) (input : InputId)
    (content : Option FileContent) : ServiceAction S C (Except Error (PreparedUpdate U)) := do
  let prepared ← (env.handle.prepare index input content).result
  count (·.addToTotal env.preparationTime)
  count (·.raiseMax env.preparationTime)
  pure prepared

/-- Sets the indexing state of an input after an operation changed storage. -/
def setState (env : Environment S U C) (op : Operation) : ServiceAction S C Unit :=
  withReadLock <|
    match op.task with
    | .removal => env.handle.setUnindexed op.index op.input
    | .update _ => env.handle.setIndexed op.index op.input

/-- What follows once an update has been prepared. -/
def carryOut (env : Environment S U C) (op : Operation) (update : PreparedUpdate U) :
    ServiceAction S C Outcome := do
  match ← env.runUpdateUnless .operation update env.isGated with
  | none =>
    log (.dropped op)
    pure .gated
  | some changed =>
    if changed then
      if env.config.traces op.index then log (.finished op)
      env.setState op
    pure (.applied changed)

/-- The part of an operation that runs while the mark is held and whose failures count as damage to
storage. -/
def attempt (env : Environment S U C) (op : Operation) : ServiceAction S C Outcome := do
  match ← env.prepareTimed op.index op.input op.task.content? with
  | .error (.mapping failure) =>
    notify ⟨op.input, op.file, op.index, failure⟩
    pure (.mappingFailed failure)
  | .error cause => Action.raise cause
  | .ok update => env.carryOut op update

/-- The part of an operation that runs while the mark is held. -/
def executeMarked (env : Environment S U C) (op : Operation) : ServiceAction S C Outcome := do
  match ← (env.attempt op).caught with
  | .ok outcome => recorded outcome
  | .error cause =>
    env.requestRebuildOnError cause op.index
    recorded (.storageCorrupted cause)

/-- Carries out an operation, unless it is skipped or its index is not registered. -/
def undertake (env : Environment S U C) (op : Operation) : ServiceAction S C Outcome := do
  if ← env.isGated op.index then
    log (.skipped op)
    recorded .gated
  else if !(← isRegistered op.index) then
    log (.unknownIndex op)
    recorded .unknownIndex
  else
    let _ ← bumpModCount
    count (·.recordStarted)
    withMark op.mark (env.executeMarked op)

/-- Executes an operation.  Whatever became of it, that the call has come to its end is noted. -/
def execute (env : Environment S U C) (op : Operation) : ServiceAction S C Outcome := do
  let outcome ← env.undertake op
  note (.executed op outcome)
  pure outcome

end Environment

end FileIndexing
