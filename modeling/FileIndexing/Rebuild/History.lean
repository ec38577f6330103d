import FileIndexing.Rebuild.Request

/-!
# History of rebuild requests

The most recent requests that scheduled a rebuild, oldest first, up to a limit of at least one.
When the history is full, recording a request drops the oldest one, so that a history within its
limit stays within it (`size_record_le`).
-/

namespace FileIndexing

/-- What the history keeps of a request. -/
structure HistoryEntry where
  index : IndexId
  cause : RebuildCause
  deriving DecidableEq, Repr

/-- The most recent requests, oldest first. -/
structure RebuildHistory where
  limit : Nat
  entries : List HistoryEntry
  deriving DecidableEq, Repr

namespace RebuildHistory

/-- An empty history; a limit of zero acts as one. -/
def empty (limit : Nat) : RebuildHistory := ⟨max limit 1, []⟩

/-- Records a request. -/
def record (h : RebuildHistory) (index : IndexId) (cause : RebuildCause) : RebuildHistory :=
  let kept := if h.entries.length = h.limit then h.entries.drop 1 else h.entries
  { h with entries := kept ++ [⟨index, cause⟩] }

/-- The number of requests kept. -/
def size (h : RebuildHistory) : Nat := h.entries.length

theorem limit_empty_pos (limit : Nat) : 0 < (empty limit).limit := by
  simp only [empty]
  omega

theorem limit_record (h : RebuildHistory) (index : IndexId) (cause : RebuildCause) :
    (h.record index cause).limit = h.limit := rfl

/-- A history within its limit stays within it. -/
theorem size_record_le (h : RebuildHistory) (index : IndexId) (cause : RebuildCause)
    (hpos : 0 < h.limit) (hsize : h.size ≤ h.limit) :
    (h.record index cause).size ≤ h.limit := by
  simp only [size, record] at *
  split <;> simp only [List.length_append, List.length_drop, List.length_singleton] <;> omega

/-- The entry recorded last is the last one. -/
theorem getLast?_entries_record (h : RebuildHistory) (index : IndexId) (cause : RebuildCause) :
    (h.record index cause).entries.getLast? = some ⟨index, cause⟩ := by
  simp [record]

end RebuildHistory

end FileIndexing
