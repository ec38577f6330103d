import FileIndexing.Marks.Waiting
import FileIndexing.Rebuild.Contention
import FileIndexing.Service.Execute

/-!
# Trying out single parts

The locks of a service, its mark table and its registry, each by itself.  A service on the bench
has no storage: an update carries the end of its own application.
-/

namespace FileIndexing.Rehearsal

/-! ## Locks -/

/-- An update that ends in a known way. -/
abbrev FixedUpdate := PreparedUpdate (Except Failure Bool)

/-- The state of a service on the bench. -/
abbrev BenchState := ServiceState Unit Unit

/-- What is done with a service on the bench. -/
abbrev BenchAct (α : Type) := ServiceAction Unit Unit α

/-- The environment of a service on the bench: updates end as they say, and nothing else is
stored. -/
def bench : Environment Unit (Except Failure Bool) Unit where
  config := .standard
  handle :=
    { prepare := fun index input _ => pure ⟨index, input, .ok false⟩
      apply := fun update => Action.resume update.change
      setIndexed := fun _ _ => pure ()
      setUnindexed := fun _ _ => pure ()
      indexingState := fun _ _ => pure .notIndexed
      clear := fun _ => pure () }
  oracle := .registry
  preparationTime := .zero

/-- A service on the bench before anything has happened. -/
def BenchState.initial : BenchState := ServiceState.initial .standard true ()

/-- Runs an update. -/
def benchRun (update : FixedUpdate) : BenchAct Bool := bench.runUpdate .direct update

/-- Runs an update unless its index is the gated one. -/
def benchRunUnless (gated : IndexId) (update : FixedUpdate) : BenchAct (Option Bool) :=
  bench.runUpdateUnless .direct update fun index => pure (index = gated)

/-- Takes a mark for a moment: how many marks are held before, whether the pair is marked
meanwhile, and how many marks are held after. -/
def benchMark (mark : WriteMark) : BenchAct (Nat × Bool × Nat) := do
  let before ← Action.read fun s => s.marks.size
  let during ← Service.withMark mark (.read fun s => s.marks.isMarked mark)
  let after ← Action.read fun s => s.marks.size
  pure (before, during, after)

/-! ## Marks -/

/-- A mark table and the slots in which marks are kept. -/
structure MarkBench where
  table : MarkTable
  slots : List (String × WriteMark)

namespace MarkBench

/-- No marks. -/
def empty : MarkBench := ⟨.empty, []⟩

/-- Releases the mark in a slot and tells whether there was one. -/
def release (b : MarkBench) (slot : String) : Bool × MarkBench :=
  match b.slots.lookup slot with
  | some mark => (true, ⟨b.table.release mark, b.slots.filter (·.1 != slot)⟩)
  | none => (false, b)

/-- Takes a mark, if the pair is not marked, and keeps it in a slot, whose mark is released then.
Tells whether the mark was taken. -/
def take (b : MarkBench) (slot : String) (mark : WriteMark) : Bool × MarkBench :=
  if b.table.isMarked mark then (false, b)
  else
    let (_, released) := MarkBench.release { b with table := b.table.take mark } slot
    (true, { released with slots := (slot, mark) :: released.slots })

/-- Lets callers wait for the mark in a slot, releases it, and lets each of them drop it again. -/
def handOff (b : MarkBench) (slot : String) (waiters : Nat) : Marks.HandOff × MarkBench :=
  match b.slots.lookup slot with
  | some mark =>
    let handOff := Marks.handOff b.table mark waiters
    (handOff, ⟨handOff.table, b.slots.filter (·.1 != slot)⟩)
  | none => (⟨0, waiters, b.table⟩, b)

end MarkBench

end FileIndexing.Rehearsal
