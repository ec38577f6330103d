import FileIndexing.Duration
import FileIndexing.File
import FileIndexing.Json.Form
import FileIndexing.Json.Value
import FileIndexing.Marks.Table
import FileIndexing.Text.Quoted
import FileIndexing.Update.Outcome

/-!
# Operations

An operation removes the data of one input from one index or puts new data there, and a
`FileApplication` collects the operations for one file.  Nothing here runs them: an operation says
what is to be done and how it is described in log records.
-/

namespace FileIndexing

/-- How the operations for a file are applied. -/
inductive ApplicationMode where
  /-- By the caller, before it goes on. -/
  | synchronous
  /-- By a worker; the caller collects the result later. -/
  | deferred
  deriving DecidableEq, Repr, Inhabited

namespace ApplicationMode

/-- The mode as shown to people. -/
def text : ApplicationMode → String
  | .synchronous => "Synchronous"
  | .deferred => "Deferred"

/-- The modes by their names. -/
def names : List (String × ApplicationMode) :=
  [("Synchronous", .synchronous), ("Deferred", .deferred)]

/-- A mode as a JSON value. -/
def toJson (mode : ApplicationMode) : Json.Value := .string mode.text

/-- Reads a mode from a JSON text. -/
def ofJson (text : String) : Except Error ApplicationMode :=
  (Json.readVariant names text).mapError .json

end ApplicationMode

/-- What an operation does with its input. -/
inductive Task where
  | removal
  | update (content : FileContent)
  deriving Repr

namespace Task

/-- The content to be indexed, if any. -/
def content? : Task → Option FileContent
  | .removal => none
  | .update content => some content

/-- The verb for the task. -/
def verb : Task → String
  | .removal => "remove"
  | .update _ => "update"

/-- The noun for the task. -/
def noun : Task → String
  | .removal => "removal"
  | .update _ => "update"

/-- The noun for the task once it is finished. -/
def finishedNoun : Task → String
  | .removal => "deletion"
  | .update _ => "update"

/-- The name of what carries out the task. -/
def agent : Task → String
  | .removal => "SingleIndexValueRemover"
  | .update _ => "SingleIndexValueApplier"

end Task

/-- The removal or update of one input in one index. -/
structure Operation where
  index : IndexId
  input : InputId
  task : Task
  /-- The file the operation is about, as far as it is known. -/
  file : Option Path
  /-- The description of the file in log records. -/
  info : String
  mode : ApplicationMode
  /-- The time that preparing took; none has passed before the operation is executed. -/
  evaluationTime : Duration
  deriving Repr

namespace Operation

/-- The removal of an input from an index.  File and content only describe the input. -/
def removal (index : IndexId) (file : Option Path) (content : Option FileContent)
    (input : InputId) (mode : ApplicationMode) : Operation where
  index := index
  input := input
  task := .removal
  file := subjectFile file content
  info := describe input file content
  mode := mode
  evaluationTime := .zero

/-- The update of an input in an index with new content. -/
def update (index : IndexId) (content : FileContent) (input : InputId) (mode : ApplicationMode) :
    Operation where
  index := index
  input := input
  task := .update content
  file := some content.file
  info := describe input none (some content)
  mode := mode
  evaluationTime := .zero

/-- The mark that is held while the operation runs. -/
def mark (op : Operation) : WriteMark := ⟨op.index, op.input⟩

/-- The operation as shown to people. -/
def text (op : Operation) : String :=
  s!"{op.task.agent}\x7bindexId={op.index.name}, inputId={op.input.text}, " ++
    s!"fileInfo=\x27{op.info}\x27, applicationMode={op.mode.text}\x7d"

/-- The operation in debugging output. -/
def debugText (op : Operation) : String :=
  s!"{op.task.agent} \x7b index_id: {op.index.debugText}, input_id: {op.input.debugText}, " ++
    s!"file_info: {Text.quoted op.info}, application_mode: {op.mode.text} \x7d"

end Operation

/-- The operations for one file: the removals, which come first, and the updates, each in the
order in which they were added. -/
structure FileApplication where
  input : InputId
  info : String
  mode : ApplicationMode
  removals : List Operation
  updates : List Operation
  deriving Repr

namespace FileApplication

/-- No operation yet. -/
def empty (input : InputId) (info : String) (mode : ApplicationMode) : FileApplication :=
  ⟨input, info, mode, [], []⟩

/-- Adds an operation. -/
def add (a : FileApplication) (op : Operation) : FileApplication :=
  match op.task with
  | .removal => { a with removals := a.removals ++ [op] }
  | .update _ => { a with updates := a.updates ++ [op] }

/-- The operations in the order in which they are executed. -/
def operations (a : FileApplication) : List Operation := a.removals ++ a.updates

/-- The number of operations. -/
def size (a : FileApplication) : Nat := a.removals.length + a.updates.length

/-- The removal of an input from each of some indices. -/
def removeFrom (indices : List IndexId) (file : Option Path) (input : InputId)
    (mode : ApplicationMode) : FileApplication :=
  (indices.map fun index => Operation.removal index file none input mode).foldl add
    (empty input (describe input file none) mode)

/-- The update of an input in each of some indices. -/
def updateIn (indices : List IndexId) (content : FileContent) (input : InputId)
    (mode : ApplicationMode) : FileApplication :=
  (indices.map fun index => Operation.update index content input mode).foldl add
    (empty input (describe input none (some content)) mode)

theorem operations_add_removal (a : FileApplication) (op : Operation) (h : op.task = .removal) :
    (a.add op).operations = a.removals ++ op :: a.updates := by
  simp [add, h, operations]

theorem operations_add_update (a : FileApplication) (op : Operation) {content : FileContent}
    (h : op.task = .update content) : (a.add op).operations = a.operations ++ [op] := by
  simp [add, h, operations]

theorem length_operations (a : FileApplication) : a.operations.length = a.size := by
  simp [operations, size]

theorem size_add (a : FileApplication) (op : Operation) : (a.add op).size = a.size + 1 := by
  rw [add]
  split <;> simp only [size, List.length_append, List.length_singleton] <;> omega

end FileApplication

/-- What became of the operations for one file.  How long preparing them took is measured by the
clock and is no part of it. -/
structure FileApplicationResult where
  input : InputId
  outcomes : List (IndexId × Outcome)
  deriving DecidableEq, Repr

namespace FileApplicationResult

/-- Whether every operation ran to completion. -/
def allSucceeded (r : FileApplicationResult) : Bool := r.outcomes.all fun (_, o) => o.isSuccess

/-- What became of the first operation on an index. -/
def outcome? (r : FileApplicationResult) (index : IndexId) : Option Outcome :=
  r.outcomes.lookup index

end FileApplicationResult

end FileIndexing
