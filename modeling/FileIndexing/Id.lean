import Std.Data.ExtTreeMap

/-!
# Identifiers

An index is known by its name and an indexed file by a number.  Both kinds of identifier are
ordered: names by their code points, which is also the order of their UTF-8 bytes, and file
numbers by size.  The order instances say that each order is total and that only equal
identifiers compare as equal, which is what a sorted map needs of its keys.
-/

namespace FileIndexing

/-- The name of one index.  Two ids with the same name are the same id. -/
structure IndexId where
  name : String
  deriving DecidableEq, Inhabited, Repr

/-- The number of one indexed file. -/
structure InputId where
  number : UInt32
  deriving DecidableEq, Inhabited, Repr

namespace IndexId

instance : Ord IndexId := ⟨fun a b => compare a.name b.name⟩

theorem compare_eq (a b : IndexId) : compare a b = compare a.name b.name := rfl

instance : Std.TransOrd IndexId where
  eq_swap := by
    intro a b
    rw [compare_eq, compare_eq]
    exact Std.OrientedOrd.eq_swap
  isLE_trans := by
    intro a b c hab hbc
    rw [compare_eq] at hab hbc ⊢
    exact Std.TransOrd.isLE_trans hab hbc

instance : Std.LawfulEqOrd IndexId where
  compare_self := by
    intro a
    rw [compare_eq]
    exact Std.ReflOrd.compare_self
  eq_of_compare := by
    intro a b h
    rw [compare_eq] at h
    cases a
    cases b
    exact congrArg IndexId.mk (Std.LawfulEqOrd.eq_of_compare h)

/-- The debugging text of an index id: the bare name in round brackets. -/
def debugText (id : IndexId) : String := s!"IndexId({id.name})"

end IndexId

namespace InputId

instance : Ord InputId := ⟨fun a b => compare a.number b.number⟩

theorem compare_eq (a b : InputId) : compare a b = compare a.number b.number := rfl

instance : Std.TransOrd InputId where
  eq_swap := by
    intro a b
    rw [compare_eq, compare_eq]
    exact Std.OrientedOrd.eq_swap
  isLE_trans := by
    intro a b c hab hbc
    rw [compare_eq] at hab hbc ⊢
    exact Std.TransOrd.isLE_trans hab hbc

instance : Std.LawfulEqOrd InputId where
  compare_self := by
    intro a
    rw [compare_eq]
    exact Std.ReflOrd.compare_self
  eq_of_compare := by
    intro a b h
    rw [compare_eq] at h
    cases a
    cases b
    exact congrArg InputId.mk (Std.LawfulEqOrd.eq_of_compare h)

/-- An input id is written as its number. -/
def text (id : InputId) : String := toString id.number

/-- The debugging text of an input id. -/
def debugText (id : InputId) : String := s!"InputId({id.text})"

end InputId

end FileIndexing
