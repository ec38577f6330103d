import FileIndexing.Error
import FileIndexing.Json.Form
import FileIndexing.Json.Value
import FileIndexing.Text.Blank
import FileIndexing.Text.Quoted
import FileIndexing.Text.Utf8

/-!
# Configuration

What can be set about an indexing service, how the settings are read from JSON and from
environment variables, and which settings are accepted.

* `Config.ofJson` accepts a text only if the settings in it are valid.
* `Config.toJson` writes all settings.
-/

namespace FileIndexing

/-- The settings of an indexing service. -/
structure Config where
  /-- Whether updates are applied even while their index waits for a rebuild. -/
  testMode : Bool
  /-- Whether every finished update is logged. -/
  traceUpdates : Bool
  /-- The names of indices whose finished updates are logged in any case. -/
  tracedIndices : List String
  /-- How many workers apply deferred updates; if not given, one for each processor. -/
  workerThreads : Option UInt64
  /-- How many rebuild requests are remembered. -/
  historyLimit : UInt64
  deriving DecidableEq, Repr

namespace Config

/-- The settings where nothing is set. -/
def standard : Config := ⟨false, false, [], none, 64⟩

instance : Inhabited Config := ⟨standard⟩

/-- Why settings are refused. -/
def fault? (c : Config) : Option Error :=
  if c.workerThreads = some 0 then
    some (.config "worker_threads must be greater than zero")
  else if c.historyLimit = 0 then
    some (.config "rebuild_history_limit must be greater than zero")
  else none

/-- Settings are refused if there are to be no workers or no remembered requests. -/
def validate (c : Config) : Except Error Unit :=
  match c.fault? with
  | some e => .error e
  | none => .ok ()

theorem validate_eq_ok_iff (c : Config) :
    c.validate = .ok () ↔ c.workerThreads ≠ some 0 ∧ c.historyLimit ≠ 0 := by
  simp only [validate, fault?]
  by_cases hw : c.workerThreads = some 0
  · simp [hw]
  · by_cases hh : c.historyLimit = 0 <;> simp [hw, hh]

/-- The number of workers, at least one, given the number of processors. -/
def effectiveWorkers (c : Config) (processors : UInt64) : UInt64 :=
  max (c.workerThreads.getD processors) 1

/-- Whether finished updates of an index are logged. -/
def traces (c : Config) (index : IndexId) : Bool :=
  c.traceUpdates || c.tracedIndices.contains index.name

theorem traces_iff (c : Config) (index : IndexId) :
    c.traces index = true ↔ c.traceUpdates = true ∨ index.name ∈ c.tracedIndices := by
  simp [traces]

/-- Adds the name of an index whose finished updates are logged. -/
def traceIndex (c : Config) (name : String) : Config :=
  { c with tracedIndices := c.tracedIndices ++ [name] }

/-! ## Environment -/

/-- The letters A to Z in lower case, everything else as it is. -/
def lowerAscii (text : String) : String := text.map Char.toLower

/-- The truth value that the bytes of an environment variable stand for.  Bytes that are not UTF-8
stand for none. -/
def flag? (value : List UInt8) : Option Bool :=
  (Text.Utf8.decode? value).map fun text =>
    ["1", "true", "yes", "on"].contains (lowerAscii (Text.trim text))

/-- Lets environment variables, if set, override the two switches. -/
def override (c : Config) (testMode traceUpdates : Option (List UInt8)) : Config :=
  { c with
    testMode := (testMode.bind flag?).getD c.testMode
    traceUpdates := (traceUpdates.bind flag?).getD c.traceUpdates }

/-! ## JSON -/

/-- The settings as a JSON value. -/
def toJson (c : Config) : Json.Value :=
  .object
    [("test_mode", .bool c.testMode),
      ("trace_index_updates", .bool c.traceUpdates),
      ("traced_indices", .array (c.tracedIndices.map .string)),
      ("worker_threads", (c.workerThreads.map fun n => Json.Value.natural n.toNat).getD .null),
      ("rebuild_history_limit", .natural c.historyLimit.toNat)]

/-- The settings that have been read so far. -/
structure Draft where
  testMode : Option Bool
  traceUpdates : Option Bool
  tracedIndices : Option (List String)
  workerThreads : Option (Option UInt64)
  historyLimit : Option UInt64

/-- The settings that were read, and the standard ones for the others. -/
def Draft.complete (d : Draft) : Config where
  testMode := d.testMode.getD standard.testMode
  traceUpdates := d.traceUpdates.getD standard.traceUpdates
  tracedIndices := d.tracedIndices.getD standard.tracedIndices
  workerThreads := d.workerThreads.getD standard.workerThreads
  historyLimit := d.historyLimit.getD standard.historyLimit

/-- How settings are written in JSON. -/
def form : Json.Form Draft Config where
  blank := ⟨none, none, none, none, none⟩
  fields :=
    [⟨"test_mode", fun d => d.testMode.isSome, fun tree d => do
        .ok { d with testMode := some (← tree.asBool) }⟩,
      ⟨"trace_index_updates", fun d => d.traceUpdates.isSome, fun tree d => do
        .ok { d with traceUpdates := some (← tree.asBool) }⟩,
      ⟨"traced_indices", fun d => d.tracedIndices.isSome, fun tree d => do
        .ok { d with tracedIndices := some (← tree.asList Json.Tree.asString) }⟩,
      ⟨"worker_threads", fun d => d.workerThreads.isSome, fun tree d => do
        .ok { d with workerThreads := some (← tree.asOption Json.Tree.asUInt64) }⟩,
      ⟨"rebuild_history_limit", fun d => d.historyLimit.isSome, fun tree d => do
        .ok { d with historyLimit := some (← tree.asUInt64) }⟩]
  strict := false
  finish := fun d => .ok d.complete

/-- Reads settings from a JSON text and refuses those that are not valid. -/
def ofJson (text : String) : Except Error Config := do
  let c ← (Json.readText form.read text).mapError .json
  c.validate
  .ok c

/-- What a file system holds under a path, as far as reading it as a file goes. -/
inductive FileState where
  | missing
  | directory
  | file (bytes : List UInt8)

/-- Reads settings from a file. -/
def ofFile : FileState → Except Error Config
  | .missing => .error (.file .notFound)
  | .directory => .error (.file .isDirectory)
  | .file bytes =>
    match Text.Utf8.decode? bytes with
    | some text => ofJson text
    | none => .error (.file .notUtf8)

/-- The settings in debugging output. -/
def debugText (c : Config) : String :=
  let workers := (c.workerThreads.map fun n => s!"Some({n})").getD "None"
  s!"IndexingConfig \x7b test_mode: {c.testMode}, trace_index_updates: {c.traceUpdates}, " ++
    s!"traced_indices: {Text.quotedList c.tracedIndices}, worker_threads: {workers}, " ++
    s!"rebuild_history_limit: {c.historyLimit} \x7d"

end Config

end FileIndexing
