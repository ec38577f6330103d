import FileIndexing.Rebuild.Request
import FileIndexing.Update.Operation

/-!
# What happens in a service

The journal of a service lists what happened in it: log records, mapping failures brought to a
listener, changes of rebuild states, when storage was applied to or cleared, and how calls ended.
A log record is kept as what it reports; its level and its wording are functions on it.
-/

namespace FileIndexing

/-- The weight of a log record. -/
inductive LogLevel where
  | error
  | warn
  | info
  | debug
  deriving DecidableEq, Repr

/-- The level as shown in a log. -/
def LogLevel.text : LogLevel → String
  | .error => "ERROR"
  | .warn => "WARN"
  | .info => "INFO"
  | .debug => "DEBUG"

/-- The news that an input could not be mapped. -/
structure Notice where
  input : InputId
  file : Option Path
  index : IndexId
  failure : MappingFailure
  deriving Repr

/-- What is logged. -/
inductive LogRecord where
  /-- An operation was skipped at once. -/
  | skipped (op : Operation)
  /-- An operation named an index that is not registered. -/
  | unknownIndex (op : Operation)
  /-- An operation was given up because a rebuild was scheduled after it had begun. -/
  | dropped (op : Operation)
  /-- An operation changed storage. -/
  | finished (op : Operation)
  /-- An input could not be mapped. -/
  | mappingFailed (notice : Notice)
  /-- Storage of an index failed. -/
  | corrupted (index : IndexId) (cause : Error)
  /-- An index was registered. -/
  | registered (index : IndexId)
  /-- A rebuild was scheduled. -/
  | rebuildScheduled (index : IndexId) (before : RebuildState) (cause : RebuildCause)
  /-- A scheduled rebuild was claimed. -/
  | rebuildStarted (index : IndexId)
  /-- A running rebuild ended. -/
  | rebuildFinished (index : IndexId)
  /-- A rebuild ended that was not the running one any more. -/
  | rebuildRequestedAgain (index : IndexId)
  /-- Not every operation for a file ran to completion. -/
  | incomplete (info : String) (mode : ApplicationMode)
  /-- Nobody wanted the result of deferred operations any more. -/
  | resultDropped
  deriving Repr

namespace LogRecord

/-- The level of a record. -/
def level : LogRecord → LogLevel
  | .skipped _ | .dropped _ | .registered _ | .resultDropped => .debug
  | .finished _ | .rebuildStarted _ | .rebuildFinished _ => .info
  | .unknownIndex _ | .mappingFailed _ | .rebuildScheduled _ _ _ | .rebuildRequestedAgain _
  | .incomplete _ _ => .warn
  | .corrupted _ _ => .error

/-- The wording of a record. -/
def text : LogRecord → String
  | .skipped op =>
    s!"index {op.index.name} is scheduled for rebuild, skipping {op.task.noun} of {op.info}"
  | .unknownIndex op =>
    s!"no index registered as {op.index.name}, cannot {op.task.verb} {op.info}"
  | .dropped op =>
    s!"index {op.index.name} was scheduled for rebuild while preparing, " ++
      s!"dropped {op.task.noun} of {op.info}"
  | .finished op => s!"index {op.index.name} {op.task.finishedNoun} finished for {op.info}"
  | .mappingFailed n =>
    match n.file with
    | some file =>
      s!"index {n.index.name} failed to map {file.text} (id={n.input.text}): {n.failure.text}"
    | none => s!"index {n.index.name} failed to map input {n.input.text}: {n.failure.text}"
  | .corrupted index cause =>
    s!"index {index.name} failed to update and will be rebuilt: {cause.text}"
  | .registered index => s!"registered index {index.name}"
  | .rebuildScheduled index before cause =>
    s!"index {index.name} scheduled for rebuild (was {before.text}): {cause.message}"
  | .rebuildStarted index => s!"rebuild of index {index.name} started"
  | .rebuildFinished index => s!"rebuild of index {index.name} finished"
  | .rebuildRequestedAgain index =>
    s!"rebuild of index {index.name} was requested again while running"
  | .incomplete info mode => s!"not every index was updated for {info} ({mode.text} mode)"
  | .resultDropped => "deferred application result dropped by caller"

/-- A record as a line of a log. -/
def line (r : LogRecord) : String := s!"{r.level.text} {r.text}"

end LogRecord

/-- Somebody who is told of mapping failures. -/
inductive Listener where
  /-- Writes them to the log. -/
  | logging
  /-- Takes them down under a tag, and perhaps panics then. -/
  | recording (tag : String) (panics : Bool)
  deriving DecidableEq, Repr

/-- The listeners in debugging output. -/
def listenersDebugText (listeners : List Listener) : String :=
  s!"BrokenIndexingDiagnostics \x7b listeners: {listeners.length} \x7d"

/-- On whose behalf an update is applied to storage. -/
inductive Origin where
  /-- An operation, which is subject to the gate. -/
  | operation
  /-- A rebuild. -/
  | rebuild
  /-- Somebody who applies an update of their own. -/
  | direct
  deriving DecidableEq, Repr

/-- How a rebuild ended. -/
inductive RebuildRun where
  /-- No rebuild was scheduled, and nothing was done. -/
  | notScheduled
  /-- The index was rebuilt and is consistent. -/
  | completed
  /-- The index was rebuilt, but another rebuild was requested meanwhile. -/
  | rescheduled
  deriving DecidableEq, Repr

/-- The end of a rebuild as shown to people. -/
def RebuildRun.text : RebuildRun → String
  | .notScheduled => "not-scheduled"
  | .completed => "completed"
  | .rescheduled => "rescheduled"

/-- What happened. -/
inductive Event where
  | logged (record : LogRecord)
  | delivered (listener : Listener) (notice : Notice)
  | moved (index : IndexId) (before after : RebuildState)
  /-- A rebuild could not be ended, because its index was found in another state than being
  rebuilt. -/
  | finishRefused (index : IndexId) (found : RebuildState)
  | applyBegan (index : IndexId) (input : InputId) (origin : Origin)
  /-- An application of an update ended; it changed storage or not, or it failed. -/
  | applyEnded (index : IndexId) (input : InputId) (origin : Origin) (changed : Option Bool)
  | clearBegan (index : IndexId)
  /-- A clearing of an index ended, in success or not. -/
  | clearEnded (index : IndexId) (cleared : Bool)
  /-- A call to execute an operation came to its end. -/
  | executed (op : Operation) (outcome : Outcome)
  /-- A file was put back during a rebuild; storage changed or not, or the call failed. -/
  | fileIndexed (index : IndexId) (input : InputId) (changed : Option Bool)
  /-- A run of a rebuild claimed its index.  Every run has a number of its own. -/
  | rebuildBegan (index : IndexId) (run : Nat)
  /-- A run of a rebuild ended; without an answer if it raised an error or panicked. -/
  | rebuildEnded (index : IndexId) (run : Nat) (answer : Option RebuildRun)
  /-- Somebody counted a modification of their own. -/
  | bumped
  deriving Repr

end FileIndexing
