import FileIndexing.Service.Execute

/-!
# Rebuilding an index

A rebuild claims the scheduled rebuild of an index and clears it while holding the lock of the
index, so that no update is being applied meanwhile.  Then the caller's own program puts the files
back through `indexFile`, which is not subject to the gate.  A rebuild that fails requests a new
one.
-/

namespace FileIndexing

namespace Environment

open Service

variable {S U C : Type}

/-- Clears an index, noting when that begins and ends. -/
def clearIndex (env : Environment S U C) (index : IndexId) : ServiceAction S C Unit := do
  note (.clearBegan index)
  let r ← (env.handle.clear index).outcome
  note (.clearEnded index r.toBool)
  Action.resume r

/-- Gives a run of a rebuild its number. -/
def numberRun (index : IndexId) : ServiceAction S C Nat :=
  .access fun s => (s.runs, { s with runs := s.runs + 1 }.note (.rebuildBegan index s.runs))

/-- Claims a scheduled rebuild and clears the index.  Answers nothing if none was scheduled, and
otherwise the number of the run and how the clearing ended. -/
def claimAndClear (env : Environment S U C) (index : IndexId) :
    ServiceAction S C (Option (Nat × Except Failure Unit)) :=
  withIndexLock index do
    if ← env.oracle.start index then
      let run ← numberRun index
      let cleared ← (withStructuralLock (env.clearIndex index)).outcome
      pure (some (run, cleared))
    else pure none

/-- Ends a rebuild whose files have been put back, or requests a new one. -/
def concludeRebuild (env : Environment S U C) (index : IndexId) :
    Except Error Unit → ServiceAction S C RebuildRun
  | .ok () => do
    let _ ← bumpModCount
    if ← env.oracle.finish index then pure .completed else pure .rescheduled
  | .error cause => do
    env.requestRebuildOnError cause index
    Action.raise cause

/-- What follows once an index has been claimed: unless the clearing failed, `repopulate` puts the
files back. -/
def refill (env : Environment S U C) (index : IndexId) (cleared : Except Failure Unit)
    (repopulate : ServiceAction S C Unit) : ServiceAction S C RebuildRun := do
  let filled ← Action.result do
    Action.resume cleared
    repopulate
  env.concludeRebuild index filled

/-- Rebuilds an index if a rebuild is scheduled.  `repopulate` puts the files back. -/
def rebuildIndex (env : Environment S U C) (index : IndexId)
    (repopulate : ServiceAction S C Unit) : ServiceAction S C RebuildRun := do
  if !(← isRegistered index) then Action.raise (.notFound s!"index {index.name}")
  else
    match ← env.claimAndClear index with
    | none => pure .notScheduled
    | some (run, cleared) =>
      let r ← (env.refill index cleared repopulate).outcome
      note (.rebuildEnded index run r.toOption)
      Action.resume r

/-- Puts a file back while its mark is held. -/
def indexMarked (env : Environment S U C) (index : IndexId) (input : InputId)
    (content : FileContent) : ServiceAction S C Bool := do
  match ← (env.handle.prepare index input (some content)).result with
  | .error (.mapping failure) =>
    notify ⟨input, some content.file, index, failure⟩
    pure false
  | .error cause => Action.raise cause
  | .ok update =>
    let changed ← env.runUpdate .rebuild update
    withReadLock (env.handle.setIndexed index input)
    pure changed

/-- Puts a file back into an index that is being rebuilt and tells whether storage changed.  A file
that cannot be mapped is brought to the listeners and does not fail the rebuild. -/
def indexFile (env : Environment S U C) (index : IndexId) (input : InputId)
    (content : FileContent) : ServiceAction S C Bool := do
  let r ← (withMark ⟨index, input⟩ (env.indexMarked index input content)).outcome
  note (.fileIndexed index input r.toOption)
  Action.resume r

end Environment

end FileIndexing
