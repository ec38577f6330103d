import FileIndexing.Rehearsal.Indexers
import FileIndexing.Rehearsal.Script
import FileIndexing.Service.Batch
import FileIndexing.Service.Rebuild

/-!
# Steps of a rehearsal

A rehearsal exercises a service step by step.  `Step` lists what a step can do and `Answer` what it
answers; an `Entry` adds what can be seen of the service after a step.
-/

namespace FileIndexing.Rehearsal

/-- The storage of an index in a rehearsal. -/
inductive Store where
  | scripted (index : ScriptedIndex)
  | memory (kind : IndexerKind) (index : MemoryIndex String Nat)

instance : Inhabited Store := ⟨.scripted .empty⟩

/-- The scripted index, if the storage is of one. -/
def Store.scripted? : Store → Option ScriptedIndex
  | .scripted index => some index
  | .memory _ _ => none

/-- The index in memory, if the storage is of one. -/
def Store.memory? : Store → Option (MemoryIndex String Nat)
  | .scripted _ => none
  | .memory _ index => some index

/-- The name and the kind of an index; one without indexer is scripted. -/
structure IndexSpec where
  index : IndexId
  indexer : Option IndexerKind

/-- The storage of a new index. -/
def IndexSpec.store (spec : IndexSpec) : Store :=
  match spec.indexer with
  | none => .scripted .empty
  | some kind => .memory kind .empty

/-- A change of storage in a rehearsal. -/
inductive Change where
  /-- No change. -/
  | nothing
  /-- Adds the entry of a scripted index. -/
  | insert
  /-- Removes the entry of a scripted index. -/
  | remove
  /-- Replaces the data of an index in memory. -/
  | replace (data : Mapping String Nat)

/-- Operations for one file. -/
inductive FileItem where
  | update (content : FileContent) (input : InputId) (mode : ApplicationMode)
  | remove (file : Option Path) (input : InputId) (mode : ApplicationMode)
  | apply (application : FileApplication)

/-- What a slot holds between steps. -/
inductive Slot where
  | operation (op : Operation)
  | update (update : PreparedUpdate Change)
  | handle (handle : ApplicationHandle)

/-- What a step does. -/
inductive Step where
  | register (spec : IndexSpec)
  | registered
  | hasIndex (index : IndexId)
  | debug
  | traces (index : IndexId)
  | bump
  | metrics
  | operate (op : Operation)
  | keep (slot : String) (op : Operation)
  | execute (slot : String)
  /-- Like `execute`, but answers only whether the operation ran to completion. -/
  | succeed (slot : String)
  | applyFile (item : FileItem) (find : Option IndexId)
  | sizeOf (application : FileApplication)
  | batch (items : List FileItem) (find : Option IndexId)
  /-- Starts operations and, if told so, waits for a number of arrivals at the gate. -/
  | submit (slot : String) (item : FileItem) (arrivals : Option Nat)
  /-- Opens the gate, waits for submitted operations and then starts others and waits for them. -/
  | openGate (slots : List String) (next : Option FileItem) (find : Option IndexId)
  | discard (slot : String)
  | race (ops : List Operation)
  | gated (index : IndexId)
  | state (index : IndexId)
  | isOk (index : IndexId)
  | request (index : IndexId) (cause : RebuildCause)
  | start (index : IndexId)
  | finish (index : IndexId)
  | requestCount (index : IndexId)
  | reportError (index : IndexId) (cause : Error)
  | recent
  /-- Rebuilds an index; the inner steps put its files back. -/
  | rebuild (index : IndexId) (steps : List Step)
  /-- Ends the inner steps of a rebuild with an error. -/
  | fail (cause : Error)
  /-- Ends the inner steps of a rebuild with a panic. -/
  | panic (message : String)
  /-- Puts a file back; failures may end the inner steps. -/
  | indexFile (input : InputId) (content : FileContent) (propagate : Bool)
  /-- Names the index that is being rebuilt. -/
  | rebuilding
  | indexingState (index : IndexId) (input : InputId)
  | setIndexed (index : IndexId) (input : InputId)
  | setUnindexed (index : IndexId) (input : InputId)
  | clear (index : IndexId)
  | prepare (slot : String) (index : IndexId) (input : InputId) (content : Option FileContent)
  | applyUpdate (slot : String)
  | runUpdate (slot : String)
  | runGated (slot : String) (gated : Option Bool)
  | query (index : IndexId) (key : String)
  | forward (index : IndexId) (input : InputId)
  | isMarked (mark : WriteMark)
  | script (index : IndexId) (behaviours : List (Phase × List Behaviour))
  | seed (index : IndexId) (inputs : List InputId)
  | scriptOracle (script : OracleScript)
  | addListener (listener : Listener)
  /-- Notifies the listeners of the service, or listeners that are none. -/
  | notify (notice : Notice) (toNobody : Bool)
  | dump (inputs : List InputId) (keys : List String)

instance : Inhabited Step := ⟨.registered⟩

/-- What an index in memory shows of itself. -/
structure MemoryView where
  forward : List (InputId × Mapping String Nat)
  keys : List (String × List (InputId × Nat))
  inputCount : Nat
  keyCount : Nat
  debugText : String

/-- What a scripted index shows of itself. -/
structure ScriptedView where
  entries : List InputId
  calls : List (Phase × Nat)
  maxInFlight : Nat

/-- What can be seen of the storage of an index. -/
inductive StoreView where
  | memory (view : MemoryView)
  | scripted (view : ScriptedView)

/-- What can be seen of an index. -/
structure IndexView where
  index : IndexId
  state : RebuildState
  requests : UInt64
  states : List (InputId × Option IndexingState)
  store : Option StoreView

/-- The result of the operations for a file, as a step answers it. -/
structure FileAnswer where
  result : FileApplicationResult
  /-- What became of a certain index, if that was asked for. -/
  found : Option (Option Outcome)
  /-- Whether the caller had to wait, if that was asked for. -/
  pending : Option Bool

/-- A mapping failure brought to a listener with a tag. -/
structure Delivered where
  tag : String
  notice : Notice

mutual

/-- What a step answers. -/
inductive Answer where
  | nothing
  | flag (value : Bool)
  | number (n : UInt64)
  | text (text : String)
  | texts (texts : List String)
  | failed (failure : Failure)
  | outcome (outcome : Outcome)
  | operation (op : Operation)
  | file (answer : FileAnswer)
  | files (answers : List (Except Failure FileAnswer))
  | submitted (pending : Bool) (arrived : Bool)
  | listeners (count : Nat) (debugText : String)
  | history (entries : List HistoryEntry)
  | counters (counters : Counters)
  | rebuilt (run : Except Failure RebuildRun) (entries : List Entry)
  | values (values : List (InputId × Nat)) (inputs : List InputId)
  | mapping (data : Mapping String Nat)
  | size (size : Nat)
  | dump (views : List IndexView)

/-- The answer of a step and what can be seen of the service after it. -/
inductive Entry where
  | mk (answer : Answer) (modCount : UInt64) (marks : Nat) (delivered : List Delivered)
      (log : List LogRecord)

end

end FileIndexing.Rehearsal
