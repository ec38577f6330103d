import FileIndexing.Service.Batch
import FileIndexing.Service.Rebuild

/-!
# Errands

A user of a service who runs errands one after the other, and who writes down what each of them
came to.  An errand is over before the next one begins: operations that are left to the workers are
waited for, and a rebuild that panics ends the rebuild only.

* `Refill` is what a user does to put the files of an index back: it puts back one file after the
  other, in the light of what the files before came to, and ends as it likes.
* `Entry` is what is written down.  The diary of a user is kept with what the embedding program
  shares, the latest entry first.
* `Errand.carry` runs an errand, and `Errand.carryAll` several of them.
-/

namespace FileIndexing

/-- What a user writes down. -/
inductive Entry where
  /-- What became of an operation. -/
  | executed (index : IndexId) (input : InputId) (task : Task) (outcome : Outcome)
  /-- Whether a request scheduled a rebuild. -/
  | requested (index : IndexId) (scheduled : Bool)
  /-- An index was handed over without data, for its files to be put back. -/
  | emptied (index : IndexId)
  /-- What it came to that a file was put back. -/
  | filed (index : IndexId) (input : InputId) (content : FileContent)
    (answer : Except Failure Bool)
  /-- How a rebuild ended. -/
  | rebuilt (index : IndexId) (answer : Except Failure RebuildRun)

/-- The index that an entry is about. -/
def Entry.index : Entry → IndexId
  | .executed index _ _ _ => index
  | .requested index _ => index
  | .emptied index => index
  | .filed index _ _ _ => index
  | .rebuilt index _ => index

/-- What a user wrote down so far, the latest entry first. -/
abbrev Diary := List Entry

/-- How a user puts the files of an index back. -/
inductive Refill where
  /-- Ends, normally or not. -/
  | done (result : Except Failure Unit)
  /-- Puts a file back and goes on in the light of what that came to. -/
  | file (input : InputId) (content : FileContent) (next : Except Failure Bool → Refill)

/-- What a user asks of a service. -/
inductive Errand where
  /-- To carry out an operation. -/
  | execute (op : Operation)
  /-- To update an input in all registered indices. -/
  | updateFile (content : FileContent) (input : InputId) (mode : ApplicationMode)
  /-- To remove an input from all registered indices. -/
  | removeFile (file : Option Path) (input : InputId) (mode : ApplicationMode)
  /-- To request a rebuild. -/
  | request (index : IndexId) (cause : RebuildCause)
  /-- To rebuild an index. -/
  | rebuild (index : IndexId) (refill : Refill)

/-- Takes the application that was left to the workers last. -/
def DeferredWork.takeLast (d : DeferredWork) : Option (Nat × FileApplication) × DeferredWork :=
  (d.queue.getLast?, { d with queue := d.queue.dropLast })

namespace Service

variable {S : Type}

/-- Writes entries down, in order. -/
def write (entries : List Entry) : ServiceAction S Diary Unit :=
  .update fun s => { s with client := entries.reverse ++ s.client }

/-- What is written down about the operations for a file. -/
def entriesFor (input : InputId) (task : Task) (result : FileApplicationResult) : List Entry :=
  result.outcomes.map fun (index, outcome) => .executed index input task outcome

end Service

namespace Environment

open Service

variable {S U C : Type}

/-- Waits for the result of the operations for a file.  If they were left to the workers, a worker
carries them out meanwhile. -/
def attend (env : Environment S U C) : ApplicationHandle → ServiceAction S C FileApplicationResult
  | .completed result => pure result
  | .pending ticket => do
    match ← Action.access fun s =>
      let (job, deferred) := s.deferred.takeLast
      (job, { s with deferred }) with
    | some (own, application) => env.work own application
    | none => pure ()
    wait (.pending ticket)

end Environment

variable {S U : Type}

/-- Puts files back, writing down what each of them came to. -/
def Refill.action (env : Environment S U Diary) (index : IndexId) :
    Refill → ServiceAction S Diary Unit
  | .done result => Action.resume result
  | .file input content next => do
    let r ← (env.indexFile index input content).outcome
    Service.write [.filed index input content r]
    (next r).action env index

namespace Errand

open Service

/-- Runs an errand and writes down what it came to. -/
def carry (env : Environment S U Diary) : Errand → ServiceAction S Diary Unit
  | .execute op => do
    let outcome ← env.execute op
    write [.executed op.index op.input op.task outcome]
  | .updateFile content input mode => do
    let result ← env.attend (← env.updateFile content input mode)
    write (entriesFor input (.update content) result)
  | .removeFile file input mode => do
    let result ← env.attend (← env.removeFile file input mode)
    write (entriesFor input .removal result)
  | .request index cause => do
    let scheduled ← env.oracle.request index cause
    write [.requested index scheduled]
  | .rebuild index refill => do
    let r ← Action.outcome <| env.rebuildIndex index do
      write [.emptied index]
      refill.action env index
    write [.rebuilt index r]

/-- Runs errands, one after the other. -/
def carryAll (env : Environment S U Diary) (errands : List Errand) : ServiceAction S Diary Unit :=
  Action.each (carry env) errands

end Errand

end FileIndexing
