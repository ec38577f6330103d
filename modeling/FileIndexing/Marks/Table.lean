import FileIndexing.Id

/-!
# Write marks

A mark stands for one operation that is writing one input in one index.  The table holds the marks
that are held at the moment; a pair of index and input is marked at most once.
-/

namespace FileIndexing

/-- An input that is being written in an index. -/
structure WriteMark where
  index : IndexId
  input : InputId
  deriving DecidableEq, Repr

/-- A mark in debugging output. -/
def WriteMark.debugText (mark : WriteMark) : String :=
  s!"WriteMark \x7b index_id: {mark.index.debugText}, input_id: {mark.input.debugText} \x7d"

/-- The marks held at one moment, the latest first. -/
structure MarkTable where
  held : List WriteMark
  deriving DecidableEq, Repr, Inhabited

namespace MarkTable

/-- No mark held. -/
def empty : MarkTable := ⟨[]⟩

/-- Whether a pair is marked. -/
def isMarked (t : MarkTable) (mark : WriteMark) : Bool := t.held.contains mark

/-- Marks a pair that is not marked. -/
def take (t : MarkTable) (mark : WriteMark) : MarkTable := ⟨mark :: t.held⟩

/-- Releases a mark. -/
def release (t : MarkTable) (mark : WriteMark) : MarkTable := ⟨t.held.erase mark⟩

/-- The number of marks held. -/
def size (t : MarkTable) : Nat := t.held.length

/-- The table in debugging output. -/
def debugText (t : MarkTable) : String := s!"WriteMarkTable \x7b active: {t.size} \x7d"

@[simp] theorem isMarked_empty (mark : WriteMark) : empty.isMarked mark = false := rfl

theorem isMarked_take (t : MarkTable) (mark other : WriteMark) :
    (t.take mark).isMarked other = (other == mark || t.isMarked other) := by
  rw [Bool.eq_iff_iff]
  simp [isMarked, take]

/-- Releasing a mark does not touch the others. -/
theorem isMarked_release_of_ne (t : MarkTable) {mark other : WriteMark} (h : other ≠ mark) :
    (t.release mark).isMarked other = t.isMarked other := by
  simp [isMarked, release, List.mem_erase_of_ne h]

/-- A mark that was held once is free after its release. -/
theorem isMarked_release_self (t : MarkTable) (mark : WriteMark) (h : t.held.Nodup) :
    (t.release mark).isMarked mark = false := by
  simp [isMarked, release, h.mem_erase_iff]

@[simp] theorem size_take (t : MarkTable) (mark : WriteMark) : (t.take mark).size = t.size + 1 :=
  rfl

@[simp] theorem release_take (t : MarkTable) (mark : WriteMark) :
    (t.take mark).release mark = t := by
  simp [take, release]

end MarkTable

end FileIndexing
