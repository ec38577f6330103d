import FileIndexing.Rebuild.Request
import FileIndexing.Store.Memory

/-!
# Scripts

An index and an oracle that do what a script tells them.  Every phase of a scripted index has a
queue of behaviours, and every call of a scripted oracle a queue of replies; where a queue is empty
the phase or the call does its usual work.
-/

namespace FileIndexing.Rehearsal

/-- The phases in which an index is worked on. -/
inductive Phase where
  | prepare
  | apply
  | setIndexed
  | setUnindexed
  | clear
  deriving DecidableEq, Repr

namespace Phase

/-- All phases. -/
def all : List Phase := [.prepare, .apply, .setIndexed, .setUnindexed, .clear]

/-- The name of a phase. -/
def name : Phase → String
  | .prepare => "prepare"
  | .apply => "apply"
  | .setIndexed => "set_indexed"
  | .setUnindexed => "set_unindexed"
  | .clear => "clear"

end Phase

/-- What a phase does before anything else. -/
inductive Hook where
  /-- Requests a rebuild of its own index. -/
  | request
  /-- Claims the rebuild of its own index. -/
  | start
  /-- Ends the rebuild of its own index. -/
  | finish
  /-- Arrives at the gate and waits until it is open. -/
  | gate
  /-- Lets some time pass. -/
  | delay
  deriving DecidableEq, Repr

/-- How a phase goes on after its hooks. -/
inductive Turn where
  /-- It does its usual work. -/
  | usual
  /-- It raises an error. -/
  | error (cause : Error)
  /-- It raises a mapping failure for its own index. -/
  | mapping (message : String)
  /-- It panics. -/
  | panic (payload : Payload)
  /-- It answers at once. -/
  | answer (value : Bool)
  deriving DecidableEq, Repr

/-- What a phase does when it runs. -/
structure Behaviour where
  hooks : List Hook
  turn : Turn
  deriving DecidableEq, Repr

/-- The behaviour where none is scripted. -/
def Behaviour.usual : Behaviour := ⟨[], .usual⟩

/-- An index that stores nothing but which inputs it has entries for. -/
structure ScriptedIndex where
  entries : Std.ExtTreeMap InputId Unit
  states : Std.ExtTreeMap InputId IndexingState
  queue : Phase → List Behaviour
  calls : Phase → Nat
  inFlight : Nat
  maxInFlight : Nat

namespace ScriptedIndex

/-- An index without entries and without script. -/
def empty : ScriptedIndex := ⟨∅, ∅, fun _ => [], fun _ => 0, 0, 0⟩

instance : Inhabited ScriptedIndex := ⟨empty⟩

/-- Adds behaviours to the queue of a phase. -/
def script (s : ScriptedIndex) (phase : Phase) (behaviours : List Behaviour) : ScriptedIndex :=
  { s with queue := fun p => if p = phase then s.queue p ++ behaviours else s.queue p }

/-- A phase runs: its call is counted and its next behaviour taken from the queue. -/
def play (s : ScriptedIndex) (phase : Phase) : Behaviour × ScriptedIndex :=
  ((s.queue phase).head?.getD .usual,
    { s with
      queue := fun p => if p = phase then (s.queue p).drop 1 else s.queue p
      calls := fun p => if p = phase then s.calls p + 1 else s.calls p })

/-- The application of an update begins. -/
def beginApply (s : ScriptedIndex) : ScriptedIndex :=
  { s with inFlight := s.inFlight + 1, maxInFlight := max s.maxInFlight (s.inFlight + 1) }

/-- The application of an update ends. -/
def endApply (s : ScriptedIndex) : ScriptedIndex := { s with inFlight := s.inFlight - 1 }

/-- Adds an entry and tells whether it was missing. -/
def insert (s : ScriptedIndex) (input : InputId) : Bool × ScriptedIndex :=
  (!s.entries.contains input, { s with entries := s.entries.insert input () })

/-- Removes an entry and tells whether it was there. -/
def remove (s : ScriptedIndex) (input : InputId) : Bool × ScriptedIndex :=
  (s.entries.contains input, { s with entries := s.entries.erase input })

/-- Notes that the index is up to date for an input. -/
def setIndexed (s : ScriptedIndex) (input : InputId) : ScriptedIndex :=
  { s with states := s.states.insert input .upToDate }

/-- Forgets the state of an input. -/
def setUnindexed (s : ScriptedIndex) (input : InputId) : ScriptedIndex :=
  { s with states := s.states.erase input }

/-- The indexing state of an input. -/
def state (s : ScriptedIndex) (input : InputId) : IndexingState :=
  s.states[input]?.getD .notIndexed

/-- Drops all entries and states. -/
def clear (s : ScriptedIndex) : ScriptedIndex := { s with entries := ∅, states := ∅ }

/-- Adds entries that are up to date. -/
def seed (s : ScriptedIndex) (inputs : List InputId) : ScriptedIndex :=
  inputs.foldl (fun s input => (s.insert input).2.setIndexed input) s

end ScriptedIndex

/-- What a scripted call of an oracle does. -/
inductive Reply (α : Type) where
  | answer (value : α)
  /-- It does its usual work. -/
  | pass
  | panic
  deriving DecidableEq, Repr

/-- The replies of an oracle that are still to come. -/
structure OracleScript where
  states : List (Reply RebuildState)
  request : List (Reply Bool)
  start : List (Reply Bool)
  finish : List (Reply Bool)

namespace OracleScript

/-- No replies scripted. -/
def empty : OracleScript := ⟨[], [], [], []⟩

/-- Adds replies after those that are still to come. -/
def append (a b : OracleScript) : OracleScript :=
  ⟨a.states ++ b.states, a.request ++ b.request, a.start ++ b.start, a.finish ++ b.finish⟩

/-- The next reply of a queue. -/
def next {α : Type} (queue : List (Reply α)) : Reply α := queue.head?.getD .pass

end OracleScript

end FileIndexing.Rehearsal
