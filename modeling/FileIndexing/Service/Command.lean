import FileIndexing.Concurrent.Pool
import FileIndexing.Service.Batch
import FileIndexing.Service.Rebuild

/-!
# Commands

What the users of a service can ask of it, as data.  A thread carries out a list of commands, and
the files of an index that is being rebuilt are put back by a list of commands too, so that a
rebuild may itself execute operations, request rebuilds and rebuild other indices.

What becomes of the commands can be read in the journal.
-/

namespace FileIndexing

/-- What can be asked of a service. -/
inductive Command where
  /-- Carries out an operation. -/
  | execute (op : Operation)
  /-- Carries out the operations for a file. -/
  | applyFile (application : FileApplication)
  /-- Updates an input in all registered indices. -/
  | updateFile (content : FileContent) (input : InputId) (mode : ApplicationMode)
  /-- Removes an input from all registered indices. -/
  | removeFile (file : Option Path) (input : InputId) (mode : ApplicationMode)
  /-- Requests a rebuild. -/
  | request (index : IndexId) (cause : RebuildCause)
  /-- Rebuilds an index, putting its files back by further commands. -/
  | rebuild (index : IndexId) (repopulate : List Command)
  /-- Puts a file back into the index that is being rebuilt; an error is passed on or ignored. -/
  | indexFile (input : InputId) (content : FileContent) (propagate : Bool)
  /-- Ends the putting back of files abnormally. -/
  | fail (failure : Failure)
  /-- Counts a modification. -/
  | bump
  /-- Asks whether an index is up to date for an input. -/
  | indexingState (index : IndexId) (input : InputId)
  deriving Repr

namespace Command

variable {S U C : Type}

mutual

/-- Carries out a command; `session` is the index that is being rebuilt, if any. -/
def run (env : Environment S U C) (session : Option IndexId) :
    Command → ServiceAction S C Unit
  | .execute op => do
    let _ ← env.execute op
  | .applyFile application => do
    let _ ← env.apply application
  | .updateFile content input mode => do
    let _ ← env.updateFile content input mode
  | .removeFile file input mode => do
    let _ ← env.removeFile file input mode
  | .request index cause => do
    let _ ← env.oracle.request index cause
  | .rebuild index repopulate => do
    let _ ← (env.rebuildIndex index (runAll env (some index) repopulate)).result
  | .indexFile input content propagate =>
    match session with
    | none => pure ()
    | some index => do
      match ← (env.indexFile index input content).result with
      | .ok _ => pure ()
      | .error cause => if propagate then Action.raise cause else pure ()
  | .fail failure => Action.fail failure
  | .bump => do
    let _ ← Service.increaseModCount
  | .indexingState index input => do
    let _ ← env.indexingState index input

/-- Carries out commands, one after the other. -/
def runAll (env : Environment S U C) (session : Option IndexId) :
    List Command → ServiceAction S C Unit
  | [] => pure ()
  | command :: rest => do
    run env session command
    runAll env session rest

end

end Command

namespace Environment

variable {S U C : Type}

/-- Threads that share a service, each of which carries out commands. -/
def threads (env : Environment S U C) (s : ServiceState S C) (commands : List (List Command)) :
    Pool (ServiceState S C) (Except Failure Unit) :=
  ⟨s, commands.map fun list => (Command.runAll env none list).program⟩

end Environment

end FileIndexing
