import FileIndexing.Service.State
import FileIndexing.Store.Memory

/-!
# What a service works with

A service does not know how an index stores its data, nor who keeps the rebuild states: it goes
through a `Handle` for the one and through an `Oracle` for the other.  Both may do anything that a
thread of the service can do, fail or panic.

* `Oracle.registry` is the oracle that keeps the rebuild states in the service itself.
* A `StoreHandle` works on the storage of its own index and on nothing else; `Handle.ofStores` uses
  one for every index.
* `StoreHandle.memory` is the storage of a map-reduce index in memory.
-/

namespace FileIndexing

/-- A change of storage, computed ahead of time and applied later. -/
structure PreparedUpdate (U : Type) where
  index : IndexId
  input : InputId
  change : U
  deriving Repr

/-- The update in debugging output. -/
def PreparedUpdate.debugText {U : Type} (u : PreparedUpdate U) : String :=
  s!"PreparedUpdate \x7b index_id: {u.index.debugText}, input_id: {u.input.debugText}, .. \x7d"

namespace Service

variable {S C : Type}

/-- Logs a record. -/
def log (record : LogRecord) : ServiceAction S C Unit := .update (·.note (.logged record))

/-- Notes an event in the journal. -/
def note (event : Event) : ServiceAction S C Unit := .update (·.note event)

end Service

/-! ## Oracles -/

/-- Who keeps the rebuild states of the indices. -/
structure Oracle (S C : Type) where
  /-- The rebuild state of an index. -/
  state : IndexId → ServiceAction S C RebuildState
  /-- Schedules a rebuild; true only for the call that scheduled it. -/
  request : IndexId → RebuildCause → ServiceAction S C Bool
  /-- Claims a scheduled rebuild; false if there is none. -/
  start : IndexId → ServiceAction S C Bool
  /-- Ends a running rebuild; false if it is not the running one any more. -/
  finish : IndexId → ServiceAction S C Bool
  /-- How many requests scheduled a rebuild. -/
  requestCount : IndexId → ServiceAction S C UInt64

namespace Oracle

variable {S C : Type}

/-- Whether an index is consistent. -/
def isOk (oracle : Oracle S C) (index : IndexId) : ServiceAction S C Bool := do
  pure ((← oracle.state index) = .ok)

/-- Requests a rebuild from the registry of the service. -/
def requestRebuild (index : IndexId) (cause : RebuildCause) : ServiceAction S C Bool := do
  let before ← Action.access fun s =>
    (if s.registry.canRequest index then some (s.registry.state index) else none,
      s.moveRegistry index (s.registry.markRequired index))
  match before with
  | none => pure false
  | some before => do
    Action.update fun s => { s with registry := s.registry.countRequest index }
    Service.log (.rebuildScheduled index before cause)
    Action.update fun s => { s with registry := s.registry.recordRequest index cause }
    pure true

/-- Claims a rebuild from the registry of the service. -/
def startRebuild (index : IndexId) : ServiceAction S C Bool := do
  let started ← Action.access fun s =>
    (s.registry.canStart index, s.moveRegistry index (s.registry.markRunning index))
  if started then Service.log (.rebuildStarted index)
  pure started

/-- Ends a rebuild in the registry of the service. -/
def finishRebuild (index : IndexId) : ServiceAction S C Bool := do
  let finished ← Action.access fun s => (s.registry.canFinish index, s.endRebuild index)
  if finished then Service.log (.rebuildFinished index)
  else Service.log (.rebuildRequestedAgain index)
  pure finished

/-- The oracle that keeps the rebuild states in the registry of the service. -/
def registry : Oracle S C where
  state index := .read (·.registry.state index)
  request := requestRebuild
  start := startRebuild
  finish := finishRebuild
  requestCount index := .read (·.registry.requestCount index)

end Oracle

/-! ## Handles -/

/-- How the storage of an index is worked on. -/
structure Handle (S U C : Type) where
  /-- Maps content, or the absence of content, to a change of storage.  An input that cannot be
  mapped makes it raise a mapping failure; any other error means that storage is in trouble. -/
  prepare : IndexId → InputId → Option FileContent → ServiceAction S C (PreparedUpdate U)
  /-- Applies a change and tells whether storage changed. -/
  apply : PreparedUpdate U → ServiceAction S C Bool
  /-- Notes that an index is up to date for an input. -/
  setIndexed : IndexId → InputId → ServiceAction S C Unit
  /-- Notes that an index holds nothing for an input. -/
  setUnindexed : IndexId → InputId → ServiceAction S C Unit
  /-- Whether an index is up to date for an input. -/
  indexingState : IndexId → InputId → ServiceAction S C IndexingState
  /-- Drops all data and indexing states. -/
  clear : IndexId → ServiceAction S C Unit

/-- How the storage of one index is worked on by a handle that sees nothing else. -/
structure StoreHandle (S U : Type) where
  prepare : InputId → Option FileContent → Action S (PreparedUpdate U)
  apply : PreparedUpdate U → Action S Bool
  setIndexed : InputId → Action S Unit
  setUnindexed : InputId → Action S Unit
  indexingState : InputId → Action S IndexingState
  clear : Action S Unit

namespace Handle

variable {S U C : Type} [Inhabited S]

/-- Lets an action work on the storage of an index. -/
def onStore {α : Type} (index : IndexId) (a : Action S α) : ServiceAction S C α :=
  ExceptT.mk
    (a.program.focus (fun s : ServiceState S C => s.stores[index]?.getD default) fun s store =>
      { s with stores := s.stores.insert index store })

/-- The handle that works on the storage of every index through a handle of its own. -/
def ofStores (handles : IndexId → StoreHandle S U) : Handle S U C where
  prepare index input content := onStore index ((handles index).prepare input content)
  apply update := onStore update.index ((handles update.index).apply update)
  setIndexed index input := onStore index ((handles index).setIndexed input)
  setUnindexed index input := onStore index ((handles index).setUnindexed input)
  indexingState index input := onStore index ((handles index).indexingState input)
  clear index := onStore index (handles index).clear

end Handle

/-! ## Indices in memory -/

/-- Why an indexer did not map a content. -/
inductive Refusal where
  /-- It raised an error. -/
  | error (message : String)
  /-- It panicked. -/
  | panic (payload : Payload)
  deriving DecidableEq, Repr

/-- A pure function that maps contents to keys and values. -/
abbrev Indexer (K V : Type) [Ord K] := FileContent → Except Refusal (Mapping K V)

namespace StoreHandle

variable {K V : Type} [Ord K] [Std.TransOrd K] [BEq V]

/-- The change that an indexer makes of a content, or of the absence of content. -/
def mapped (indexer : Indexer K V) (index : IndexId) (input : InputId) :
    Option FileContent → Except Failure (Mapping K V)
  | none => .ok ∅
  | some content =>
    match indexer content with
    | .ok data => .ok data
    | .error (.error message) => .error (.error (.mapping (.caused index input message)))
    | .error (.panic payload) => .error (.panic payload)

/-- How an index in memory is worked on. -/
def memory (indexer : Indexer K V) (index : IndexId) :
    StoreHandle (MemoryIndex K V) (Mapping K V) where
  prepare input content := do
    let data ← Action.resume (mapped indexer index input content)
    pure ⟨index, input, data⟩
  apply update := .access fun m => m.replace update.input update.change
  setIndexed input := .update (·.setIndexed input)
  setUnindexed input := .update (·.setUnindexed input)
  indexingState input := .read (·.state input)
  clear := do
    Action.update (·.dropData)
    Action.update (·.dropStates)

end StoreHandle

/-! ## Environments -/

/-- What a service works with. -/
structure Environment (S U C : Type) where
  config : Config
  handle : Handle S U C
  oracle : Oracle S C
  /-- The time that preparing an update takes. -/
  preparationTime : Duration

/-- The environment whose indices are kept in memory, each with an indexer of its own, and whose
rebuild states are kept in the registry of the service. -/
def Environment.memory {K V C : Type} [Ord K] [Std.TransOrd K] [BEq V] (config : Config)
    (indexers : IndexId → Indexer K V) : Environment (MemoryIndex K V) (Mapping K V) C where
  config := config
  handle := .ofStores fun index => .memory (indexers index) index
  oracle := .registry
  preparationTime := .zero

end FileIndexing
