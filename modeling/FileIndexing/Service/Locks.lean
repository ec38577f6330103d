import FileIndexing.Id
import Std.Data.ExtTreeMap

/-!
# Locks

Every index has a lock that excludes writers of its storage from each other.  The locks are made
when they are first needed: a table maps indices to locks, which are known by numbers.  The
coordination lock is shared by all who look at or change indexing states and is held alone for
structural work.
-/

namespace FileIndexing

/-- The locks of the indices. -/
structure IndexLocks where
  table : Std.ExtTreeMap IndexId Nat
  /-- The number of locks made so far; the next one gets this number. -/
  made : Nat
  /-- The locks that are held. -/
  held : List Nat

namespace IndexLocks

/-- No locks made. -/
def empty : IndexLocks := ⟨∅, 0, []⟩

/-- The lock of an index, if it has been made. -/
def find? (l : IndexLocks) (index : IndexId) : Option Nat := l.table[index]?

/-- The lock of an index, which is made if there is none. -/
def findOrMake (l : IndexLocks) (index : IndexId) : Nat × IndexLocks :=
  match l.find? index with
  | some lock => (lock, l)
  | none => (l.made, { l with table := l.table.insert index l.made, made := l.made + 1 })

/-- Whether a lock is free. -/
def isFree (l : IndexLocks) (lock : Nat) : Bool := !l.held.contains lock

/-- Takes a lock. -/
def acquire (l : IndexLocks) (lock : Nat) : IndexLocks := { l with held := lock :: l.held }

/-- Gives a lock back. -/
def release (l : IndexLocks) (lock : Nat) : IndexLocks := { l with held := l.held.erase lock }

/-- Finding the lock of an index does not make a lock that is there already. -/
theorem find?_findOrMake (l : IndexLocks) (index : IndexId) :
    (l.findOrMake index).2.find? index = some (l.findOrMake index).1 := by
  rw [findOrMake]
  split
  · assumption
  · simp [find?]

theorem find?_findOrMake_of_ne (l : IndexLocks) {index other : IndexId} (h : other ≠ index) :
    (l.findOrMake index).2.find? other = l.find? other := by
  rw [findOrMake]
  split
  · rfl
  · simp [find?, Std.ExtTreeMap.getElem?_insert, Ne.symm h]

theorem isFree_acquire (l : IndexLocks) (lock other : Nat) :
    (l.acquire lock).isFree other = (other != lock && l.isFree other) := by
  rw [Bool.eq_iff_iff]
  simp [isFree, acquire]

@[simp] theorem release_acquire (l : IndexLocks) (lock : Nat) :
    (l.acquire lock).release lock = l := by
  simp [acquire, release]

end IndexLocks

/-- The coordination lock. -/
structure Coordination where
  /-- How many hold the lock together. -/
  readers : Nat
  /-- Whether somebody holds the lock alone. -/
  writer : Bool
  /-- How many wait to hold the lock alone. -/
  waiting : Nat
  /-- Whether those who wait to hold the lock alone keep new readers out. -/
  writersFirst : Bool
  deriving DecidableEq, Repr

namespace Coordination

/-- Nobody holds the lock. -/
def free (writersFirst : Bool) : Coordination := ⟨0, false, 0, writersFirst⟩

/-- Whether the lock can be shared. -/
def canShare (c : Coordination) : Bool := !c.writer && (c.waiting = 0 || !c.writersFirst)

/-- Begins to share the lock. -/
def share (c : Coordination) : Coordination := { c with readers := c.readers + 1 }

/-- Ends sharing the lock. -/
def unshare (c : Coordination) : Coordination := { c with readers := c.readers - 1 }

/-- Begins to wait to hold the lock alone. -/
def queue (c : Coordination) : Coordination := { c with waiting := c.waiting + 1 }

/-- Whether the lock can be held alone. -/
def canHold (c : Coordination) : Bool := !c.writer && c.readers = 0

/-- Holds the lock alone, after having waited for it. -/
def hold (c : Coordination) : Coordination := { c with writer := true, waiting := c.waiting - 1 }

/-- Gives the lock back that was held alone. -/
def unhold (c : Coordination) : Coordination := { c with writer := false }

end Coordination

end FileIndexing
