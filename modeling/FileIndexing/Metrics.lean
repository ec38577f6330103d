import FileIndexing.Duration
import FileIndexing.Error

/-!
# Metrics of index updates

`Counters` counts what becomes of the operations.  Every count has 64 bits and wraps around, and
so does the total of the evaluation times in nanoseconds, while the longest one is kept apart.
`Metrics` is what the counters show to the outside at one moment.
-/

namespace FileIndexing

/-- Counts of operations by what became of them, and of the time spent preparing updates. -/
structure Counters where
  started : UInt64
  gated : UInt64
  succeeded : UInt64
  changes : UInt64
  mappingFailures : UInt64
  storageFailures : UInt64
  unknownIndices : UInt64
  totalNanos : UInt64
  maxNanos : UInt64
  deriving DecidableEq, Repr

namespace Counters

/-- Nothing counted. -/
def zero : Counters := ⟨0, 0, 0, 0, 0, 0, 0, 0, 0⟩

instance : Inhabited Counters := ⟨zero⟩

/-- An operation passed the gate. -/
def recordStarted (c : Counters) : Counters := { c with started := c.started + 1 }

/-- An operation was skipped because its index waits for a rebuild. -/
def recordGated (c : Counters) : Counters := { c with gated := c.gated + 1 }

/-- An operation ran to completion. -/
def recordSucceeded (c : Counters) : Counters := { c with succeeded := c.succeeded + 1 }

/-- A completed operation changed storage. -/
def recordChange (c : Counters) : Counters := { c with changes := c.changes + 1 }

/-- An operation was given up because its input could not be mapped. -/
def recordMappingFailure (c : Counters) : Counters :=
  { c with mappingFailures := c.mappingFailures + 1 }

/-- An operation was given up because storage failed. -/
def recordStorageFailure (c : Counters) : Counters :=
  { c with storageFailures := c.storageFailures + 1 }

/-- An operation named an index that is not registered. -/
def recordUnknownIndex (c : Counters) : Counters :=
  { c with unknownIndices := c.unknownIndices + 1 }

/-- The nanoseconds of a duration, or the greatest 64-bit number if there are more. -/
def cappedNanos (d : Duration) : UInt64 := UInt64.ofNat (min d.toNanos (UInt64.size - 1))

/-- Adds to the total time spent preparing updates. -/
def addToTotal (d : Duration) (c : Counters) : Counters :=
  { c with totalNanos := c.totalNanos + cappedNanos d }

/-- Takes a duration into account for the longest preparation. -/
def raiseMax (d : Duration) (c : Counters) : Counters :=
  { c with maxNanos := max c.maxNanos (cappedNanos d) }

/-- One update was prepared in the given time. -/
def recordEvaluation (d : Duration) (c : Counters) : Counters := (c.addToTotal d).raiseMax d

/-- The total time spent preparing updates. -/
def totalEvaluation (c : Counters) : Duration := .ofNanos c.totalNanos.toNat

/-- The longest single preparation. -/
def maxEvaluation (c : Counters) : Duration := .ofNanos c.maxNanos.toNat

theorem toNat_cappedNanos (d : Duration) :
    (cappedNanos d).toNat = min d.toNanos (UInt64.size - 1) := by
  have h : min d.toNanos (UInt64.size - 1) < UInt64.size := by
    rw [UInt64.size]
    omega
  simp only [cappedNanos, UInt64.toNat_ofNat', Nat.mod_eq_of_lt h]

theorem toNanos_totalEvaluation (c : Counters) :
    c.totalEvaluation.toNanos = c.totalNanos.toNat :=
  Duration.toNanos_ofNanos (Nat.lt_of_le_of_lt (Nat.div_le_self _ _) c.totalNanos.toNat_lt)

theorem toNanos_maxEvaluation (c : Counters) : c.maxEvaluation.toNanos = c.maxNanos.toNat :=
  Duration.toNanos_ofNanos (Nat.lt_of_le_of_lt (Nat.div_le_self _ _) c.maxNanos.toNat_lt)

end Counters

/-- The state of the counters at one moment. -/
structure Metrics where
  operationsStarted : UInt64
  operationsGated : UInt64
  operationsSucceeded : UInt64
  storageChanges : UInt64
  mappingFailures : UInt64
  storageFailures : UInt64
  unknownIndices : UInt64
  totalEvaluationTime : Duration
  maxEvaluationTime : Duration
  uptimeSeconds : Float

namespace Metrics

/-- Nothing counted and no time passed. -/
def zero : Metrics := ⟨0, 0, 0, 0, 0, 0, 0, .zero, .zero, 0⟩

/-- What the counters show after the given time. -/
def ofCounters (c : Counters) (uptime : Float) : Metrics where
  operationsStarted := c.started
  operationsGated := c.gated
  operationsSucceeded := c.succeeded
  storageChanges := c.changes
  mappingFailures := c.mappingFailures
  storageFailures := c.storageFailures
  unknownIndices := c.unknownIndices
  totalEvaluationTime := c.totalEvaluation
  maxEvaluationTime := c.maxEvaluation
  uptimeSeconds := uptime

/-- Whether two snapshots agree; a zero uptime of either sign is the same. -/
def agrees (a b : Metrics) : Bool :=
  a.operationsStarted == b.operationsStarted && a.operationsGated == b.operationsGated &&
    a.operationsSucceeded == b.operationsSucceeded && a.storageChanges == b.storageChanges &&
    a.mappingFailures == b.mappingFailures && a.storageFailures == b.storageFailures &&
    a.unknownIndices == b.unknownIndices && a.totalEvaluationTime == b.totalEvaluationTime &&
    a.maxEvaluationTime == b.maxEvaluationTime && a.uptimeSeconds == b.uptimeSeconds

/-- The average time of one preparation, rounded down to nanoseconds.  The number of operations
takes part in the division with its low 32 bits; a count other than zero whose low 32 bits are
zero makes the division panic. -/
def averageEvaluation (m : Metrics) : Except Payload Duration :=
  if m.operationsStarted = 0 then .ok .zero
  else
    match m.totalEvaluationTime.divide? m.operationsStarted.toUInt32 with
    | some average => .ok average
    | none => .error (.text "divide by zero error when dividing duration by scalar")

end Metrics

end FileIndexing
