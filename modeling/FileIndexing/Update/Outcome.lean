import FileIndexing.Error

/-!
# Outcomes

What can become of the removal or the update of one input in one index.
-/

namespace FileIndexing

/-- What became of one operation. -/
inductive Outcome where
  /-- The operation ran to completion. -/
  | applied (changed : Bool)
  /-- The index waits for a rebuild, so the operation was skipped. -/
  | gated
  /-- The input could not be mapped; the index is as it was. -/
  | mappingFailed (failure : MappingFailure)
  /-- Storage failed, and the index was scheduled for a rebuild. -/
  | storageCorrupted (cause : Error)
  /-- No such index is registered. -/
  | unknownIndex
  deriving DecidableEq, Repr

namespace Outcome

/-- Whether the operation ran to completion. -/
def isSuccess : Outcome → Bool
  | .applied _ => true
  | _ => false

/-- Whether the operation changed storage. -/
def storageChanged : Outcome → Bool
  | .applied changed => changed
  | _ => false

/-- A short name for the kind of an outcome. -/
def kind : Outcome → String
  | .applied true => "applied"
  | .applied false => "unchanged"
  | .gated => "gated"
  | .mappingFailed _ => "mapping-failed"
  | .storageCorrupted _ => "storage-corrupted"
  | .unknownIndex => "unknown-index"

theorem isSuccess_iff (o : Outcome) : o.isSuccess = true ↔ ∃ changed, o = .applied changed := by
  cases o <;> simp [isSuccess]

theorem isSuccess_of_storageChanged {o : Outcome} (h : o.storageChanged = true) :
    o.isSuccess = true := by
  cases o <;> simp_all [isSuccess, storageChanged]

end Outcome

end FileIndexing
