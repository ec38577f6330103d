import FileIndexing.Error
import FileIndexing.Json.Form
import FileIndexing.Json.Value
import FileIndexing.Timestamp

/-!
# Rebuild states and requests

The state of an index with regard to rebuilding, why a rebuild was requested, and what is recorded
of a request.
-/

namespace FileIndexing

/-- The state of an index with regard to rebuilding. -/
inductive RebuildState where
  /-- The index is consistent and takes updates. -/
  | ok
  /-- The index is scheduled for a rebuild. -/
  | required
  /-- The index is being rebuilt. -/
  | running
  deriving DecidableEq, Repr, Inhabited

/-- The state as shown to people. -/
def RebuildState.text : RebuildState → String
  | .ok => "ok"
  | .required => "requires-rebuild"
  | .running => "doing-rebuild"

/-- Why a rebuild was requested. -/
structure RebuildCause where
  message : String
  deriving DecidableEq, Repr, Inhabited

namespace RebuildCause

/-- An error as the cause of a rebuild. -/
def ofError (error : Error) : RebuildCause := ⟨error.text⟩

/-- A cause as a JSON value. -/
def toJson (cause : RebuildCause) : Json.Value := .object [("message", .string cause.message)]

/-- How a cause is written in JSON. -/
def form : Json.Form (Option String) RebuildCause where
  blank := none
  fields := [⟨"message", Option.isSome, fun tree _ => tree.asString.map some⟩]
  strict := false
  finish := fun message => do .ok ⟨← Json.required message⟩

/-- Reads a cause from a JSON text. -/
def ofJson (text : String) : Except Error RebuildCause :=
  (Json.readText form.read text).mapError .json

end RebuildCause

/-- A request to rebuild an index, with its time. -/
structure RebuildRequest where
  indexName : String
  cause : RebuildCause
  requestedAt : Timestamp
  deriving DecidableEq, Repr

namespace RebuildRequest

/-- A request as a JSON value. -/
def toJson (r : RebuildRequest) : Json.Value :=
  .object
    [("index_name", .string r.indexName), ("cause", r.cause.toJson),
      ("requested_at", .string r.requestedAt.text)]

/-- What has been read of a request so far. -/
structure Draft where
  indexName : Option String
  cause : Option RebuildCause
  requestedAt : Option Timestamp

/-- Reads a point in time. -/
def readTimestamp (tree : Json.Tree) : Except Json.Fault Timestamp := do
  Json.required (Timestamp.parse? (← tree.asString))

/-- How a request is written in JSON. -/
def form : Json.Form Draft RebuildRequest where
  blank := ⟨none, none, none⟩
  fields :=
    [⟨"index_name", fun d => d.indexName.isSome, fun tree d => do
        .ok { d with indexName := some (← tree.asString) }⟩,
      ⟨"cause", fun d => d.cause.isSome, fun tree d => do
        .ok { d with cause := some (← RebuildCause.form.read tree) }⟩,
      ⟨"requested_at", fun d => d.requestedAt.isSome, fun tree d => do
        .ok { d with requestedAt := some (← readTimestamp tree) }⟩]
  strict := false
  finish := fun d => do
    .ok ⟨← Json.required d.indexName, ← Json.required d.cause, ← Json.required d.requestedAt⟩

/-- Reads a request from a JSON text. -/
def ofJson (text : String) : Except Error RebuildRequest :=
  (Json.readText form.read text).mapError .json

end RebuildRequest

end FileIndexing
