import FileIndexing.Id
import FileIndexing.Json.Fault

/-!
# Errors

What can go wrong, by cause.  A mapping failure concerns one input and never the index as a whole;
every other error that comes out of index storage counts as corruption of the index.

An operation ends abnormally in one of two ways, which `Failure` keeps together: it raises an
error, or it panics with a payload.  Both leave the steps that follow undone; they differ in who
may catch them.
-/

namespace FileIndexing

/-- An indexer could not turn one input into index data. -/
structure MappingFailure where
  index : IndexId
  input : InputId
  message : String
  source : Option String
  deriving DecidableEq, Repr

namespace MappingFailure

/-- A mapping failure without an underlying cause. -/
def plain (index : IndexId) (input : InputId) (message : String) : MappingFailure :=
  ⟨index, input, message, none⟩

/-- A mapping failure that wraps the indexer's own failure. -/
def caused (index : IndexId) (input : InputId) (source : String) : MappingFailure :=
  ⟨index, input, source, some source⟩

/-- The failure as shown to people. -/
def text (failure : MappingFailure) : String :=
  s!"failed to map input {failure.input.text} for index {failure.index.name}: {failure.message}"

end MappingFailure

/-- Why a file could not be read. -/
inductive FileFault where
  | notFound
  | isDirectory
  | notUtf8
  | described (message : String)
  deriving DecidableEq, Repr

/-- The fault as shown to people. -/
def FileFault.text : FileFault → String
  | .notFound => "entity not found"
  | .isDirectory => "is a directory"
  | .notUtf8 => "stream did not contain valid UTF-8"
  | .described message => message

/-- An error by its cause. -/
inductive Error where
  | file (fault : FileFault)
  | index (message : String)
  | storage (message : String)
  | mapping (failure : MappingFailure)
  | config (message : String)
  | threadJoin (message : String)
  | invalidOperation (message : String)
  | json (fault : Json.Fault)
  | other (message : String)
  | foreign (message : String)
  deriving DecidableEq, Repr

namespace Error

/-- An argument that the called operation does not accept. -/
def invalidArgument (message : String) : Error := .other s!"Invalid argument: {message}"

/-- A broken assumption inside the library. -/
def internal (message : String) : Error := .other s!"Internal error: {message}"

/-- Something asked for is not there. -/
def notFound (what : String) : Error := .other s!"Not found: {what}"

/-- The error as shown to people. -/
def text : Error → String
  | .file fault => s!"I/O error: {fault.text}"
  | .index message => s!"Index error: {message}"
  | .storage message => s!"Storage error: {message}"
  | .mapping failure => failure.text
  | .config message => s!"Configuration error: {message}"
  | .threadJoin message => s!"Thread join error: {message}"
  | .invalidOperation message => s!"Invalid operation: {message}"
  | .json fault => s!"JSON error: {fault.text}"
  | .other message => s!"Error: {message}"
  | .foreign message => s!"Anyhow error: {message}"

/-- Whether the error concerns one input only. -/
def isMappingFailure : Error → Bool
  | .mapping _ => true
  | _ => false

end Error

/-- What a panic carries: a text, or a value that is not text. -/
inductive Payload where
  | text (message : String)
  | other
  deriving DecidableEq, Repr

namespace Payload

/-- The text carried, if any. -/
def message? : Payload → Option String
  | .text message => some message
  | .other => none

/-- The payload as shown to people. -/
def shown (payload : Payload) : String := payload.message?.getD "non-string panic payload"

/-- The error that stands for a panic that was caught. -/
def toError (payload : Payload) : Error :=
  .internal s!"panic in index storage: {payload.shown}"

end Payload

/-- How an operation ends abnormally. -/
inductive Failure where
  | error (cause : Error)
  | panic (payload : Payload)
  deriving DecidableEq, Repr

/-- The error that stands for an abnormal end once it has been caught. -/
def Failure.toError : Failure → Error
  | .error cause => cause
  | .panic payload => payload.toError

end FileIndexing
