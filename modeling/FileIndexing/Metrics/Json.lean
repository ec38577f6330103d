import FileIndexing.Decimal.Shortest
import FileIndexing.Json.Form
import FileIndexing.Json.Value
import FileIndexing.Metrics

/-!
# Metrics in JSON

How durations and metrics are written in JSON.  Every field must be there when metrics are read;
members of other names are skipped in metrics and refused in durations.
-/

namespace FileIndexing

namespace Duration

/-- A duration as a JSON value. -/
def toJson (d : Duration) : Json.Value :=
  .object [("secs", .natural d.seconds.toNat), ("nanos", .natural d.nanos.val)]

/-- What has been read of a duration so far. -/
structure Draft where
  seconds : Option UInt64
  nanos : Option UInt32

/-- How a duration is written in JSON. -/
def form : Json.Form Draft Duration where
  blank := ⟨none, none⟩
  fields :=
    [⟨"secs", fun d => d.seconds.isSome, fun tree d => do
        .ok { d with seconds := some (← tree.asUInt64) }⟩,
      ⟨"nanos", fun d => d.nanos.isSome, fun tree d => do
        .ok { d with nanos := some (← tree.asUInt32) }⟩]
  strict := true
  finish := fun d => do
    Json.required (ofParts? (← Json.required d.seconds) (← Json.required d.nanos).toNat)

end Duration

namespace Metrics

/-- Floating-point numbers have at least one decimal; very great and very small ones have an
exponent with a sign. -/
def floatStyle : Decimal.Style where
  leastFixed := -5
  greatestFixed := 15
  wholeMark := ".0"
  exponentPlus := "+"

/-- Metrics as a JSON value. -/
def toJson (m : Metrics) : Json.Value :=
  .object
    [("operations_started", .natural m.operationsStarted.toNat),
      ("operations_gated", .natural m.operationsGated.toNat),
      ("operations_succeeded", .natural m.operationsSucceeded.toNat),
      ("storage_changes", .natural m.storageChanges.toNat),
      ("mapping_failures", .natural m.mappingFailures.toNat),
      ("storage_failures", .natural m.storageFailures.toNat),
      ("unknown_indices", .natural m.unknownIndices.toNat),
      ("total_evaluation_time", m.totalEvaluationTime.toJson),
      ("max_evaluation_time", m.maxEvaluationTime.toJson),
      ("uptime_secs", .number (floatStyle.write m.uptimeSeconds))]

/-- What has been read of metrics so far. -/
structure Draft where
  operationsStarted : Option UInt64
  operationsGated : Option UInt64
  operationsSucceeded : Option UInt64
  storageChanges : Option UInt64
  mappingFailures : Option UInt64
  storageFailures : Option UInt64
  unknownIndices : Option UInt64
  totalEvaluationTime : Option Duration
  maxEvaluationTime : Option Duration
  uptimeSeconds : Option Float

/-- How metrics are written in JSON. -/
def form : Json.Form Draft Metrics where
  blank := ⟨none, none, none, none, none, none, none, none, none, none⟩
  fields :=
    [⟨"operations_started", fun d => d.operationsStarted.isSome, fun tree d => do
        .ok { d with operationsStarted := some (← tree.asUInt64) }⟩,
      ⟨"operations_gated", fun d => d.operationsGated.isSome, fun tree d => do
        .ok { d with operationsGated := some (← tree.asUInt64) }⟩,
      ⟨"operations_succeeded", fun d => d.operationsSucceeded.isSome, fun tree d => do
        .ok { d with operationsSucceeded := some (← tree.asUInt64) }⟩,
      ⟨"storage_changes", fun d => d.storageChanges.isSome, fun tree d => do
        .ok { d with storageChanges := some (← tree.asUInt64) }⟩,
      ⟨"mapping_failures", fun d => d.mappingFailures.isSome, fun tree d => do
        .ok { d with mappingFailures := some (← tree.asUInt64) }⟩,
      ⟨"storage_failures", fun d => d.storageFailures.isSome, fun tree d => do
        .ok { d with storageFailures := some (← tree.asUInt64) }⟩,
      ⟨"unknown_indices", fun d => d.unknownIndices.isSome, fun tree d => do
        .ok { d with unknownIndices := some (← tree.asUInt64) }⟩,
      ⟨"total_evaluation_time", fun d => d.totalEvaluationTime.isSome, fun tree d => do
        .ok { d with totalEvaluationTime := some (← Duration.form.read tree) }⟩,
      ⟨"max_evaluation_time", fun d => d.maxEvaluationTime.isSome, fun tree d => do
        .ok { d with maxEvaluationTime := some (← Duration.form.read tree) }⟩,
      ⟨"uptime_secs", fun d => d.uptimeSeconds.isSome, fun tree d => do
        .ok { d with uptimeSeconds := some (← tree.asFloat) }⟩]
  strict := false
  finish := fun d => do
    .ok
      { operationsStarted := ← Json.required d.operationsStarted
        operationsGated := ← Json.required d.operationsGated
        operationsSucceeded := ← Json.required d.operationsSucceeded
        storageChanges := ← Json.required d.storageChanges
        mappingFailures := ← Json.required d.mappingFailures
        storageFailures := ← Json.required d.storageFailures
        unknownIndices := ← Json.required d.unknownIndices
        totalEvaluationTime := ← Json.required d.totalEvaluationTime
        maxEvaluationTime := ← Json.required d.maxEvaluationTime
        uptimeSeconds := ← Json.required d.uptimeSeconds }

/-- Reads metrics from a JSON text. -/
def ofJson (text : String) : Except Error Metrics :=
  (Json.readText form.read text).mapError .json

end Metrics

end FileIndexing
