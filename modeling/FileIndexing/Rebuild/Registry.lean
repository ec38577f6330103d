import FileIndexing.Rebuild.History
import Std.Data.ExtTreeMap

/-!
# Registry of rebuild states

The rebuild state of every index, with the number of requests that scheduled a rebuild and their
history.  An index that was never seen is consistent.

The state of an index moves in three ways, each of them a single step that happens only in certain
states: a request schedules a rebuild unless one is scheduled already, a start claims a scheduled
rebuild, and a finish ends a running one.  `state_markRequired`, `state_markRunning` and
`state_markFinished` say what each of them does to the states of all indices.
-/

namespace FileIndexing

/-- The rebuild state of one index and how many requests scheduled a rebuild of it. -/
structure RebuildStatus where
  state : RebuildState
  requests : UInt64
  deriving DecidableEq, Repr

/-- An index that was never seen. -/
def RebuildStatus.initial : RebuildStatus := ⟨.ok, 0⟩

/-- The rebuild states of all indices. -/
structure RebuildRegistry where
  statuses : Std.ExtTreeMap IndexId RebuildStatus
  history : RebuildHistory

namespace RebuildRegistry

/-- No index seen. -/
def empty (historyLimit : Nat) : RebuildRegistry := ⟨∅, .empty historyLimit⟩

/-- The limit of the history where none is given. -/
def standardHistoryLimit : Nat := 64

/-- The status of an index. -/
def status (r : RebuildRegistry) (index : IndexId) : RebuildStatus :=
  r.statuses[index]?.getD .initial

/-- The rebuild state of an index. -/
def state (r : RebuildRegistry) (index : IndexId) : RebuildState := (r.status index).state

/-- How many requests scheduled a rebuild of an index. -/
def requestCount (r : RebuildRegistry) (index : IndexId) : UInt64 := (r.status index).requests

/-- Replaces the status of an index. -/
def setStatus (r : RebuildRegistry) (index : IndexId) (status : RebuildStatus) :
    RebuildRegistry :=
  { r with statuses := r.statuses.insert index status }

/-- Makes an index known, keeping its status. -/
def register (r : RebuildRegistry) (index : IndexId) : RebuildRegistry :=
  r.setStatus index (r.status index)

/-- Moves an index to a state. -/
def setState (r : RebuildRegistry) (index : IndexId) (state : RebuildState) : RebuildRegistry :=
  r.setStatus index { r.status index with state }

theorem status_empty (limit : Nat) (index : IndexId) : (empty limit).status index = .initial := by
  simp [status, empty]

theorem status_setStatus (r : RebuildRegistry) (index other : IndexId) (status : RebuildStatus) :
    (r.setStatus index status).status other = if index = other then status else r.status other := by
  simp only [RebuildRegistry.status, setStatus, Std.ExtTreeMap.getElem?_insert,
    Std.LawfulEqOrd.compare_eq_iff_eq]
  split <;> rfl

@[simp] theorem status_register (r : RebuildRegistry) (index other : IndexId) :
    (r.register index).status other = r.status other := by
  rw [register, status_setStatus]
  split
  · next h => rw [h]
  · rfl

@[simp] theorem state_register (r : RebuildRegistry) (index other : IndexId) :
    (r.register index).state other = r.state other := by
  simp [state]

theorem status_setState (r : RebuildRegistry) (index other : IndexId) (state : RebuildState) :
    (r.setState index state).status other =
      if index = other then { r.status index with state } else r.status other := by
  rw [setState, status_setStatus]

theorem state_setState (r : RebuildRegistry) (index other : IndexId) (s : RebuildState) :
    (r.setState index s).state other = if index = other then s else r.state other := by
  rw [state, setState, status_setStatus]
  split <;> rfl

/-! ## Transitions -/

/-- Whether a request schedules a rebuild. -/
def canRequest (r : RebuildRegistry) (index : IndexId) : Bool := r.state index ≠ .required

/-- Whether a rebuild can be claimed. -/
def canStart (r : RebuildRegistry) (index : IndexId) : Bool := r.state index = .required

/-- Whether a running rebuild can end. -/
def canFinish (r : RebuildRegistry) (index : IndexId) : Bool := r.state index = .running

/-- Schedules a rebuild, unless one is scheduled. -/
def markRequired (r : RebuildRegistry) (index : IndexId) : RebuildRegistry :=
  if r.canRequest index then r.setState index .required else r.register index

/-- Claims a scheduled rebuild, if there is one. -/
def markRunning (r : RebuildRegistry) (index : IndexId) : RebuildRegistry :=
  if r.canStart index then r.setState index .running else r.register index

/-- Ends a running rebuild, if there is one. -/
def markFinished (r : RebuildRegistry) (index : IndexId) : RebuildRegistry :=
  if r.canFinish index then r.setState index .ok else r.register index

/-- Counts a request that scheduled a rebuild. -/
def countRequest (r : RebuildRegistry) (index : IndexId) : RebuildRegistry :=
  r.setStatus index { r.status index with requests := r.requestCount index + 1 }

/-- Puts a request that scheduled a rebuild into the history. -/
def recordRequest (r : RebuildRegistry) (index : IndexId) (cause : RebuildCause) :
    RebuildRegistry :=
  { r with history := r.history.record index cause }

/-- A request leaves the index scheduled, whatever its state was. -/
theorem state_markRequired (r : RebuildRegistry) (index other : IndexId) :
    (r.markRequired index).state other = if index = other then .required else r.state other := by
  rw [markRequired]
  split
  · rw [state_setState]
  · next h =>
    simp only [canRequest, decide_not, Bool.not_eq_true', decide_eq_false_iff_not,
      Decidable.not_not] at h
    rw [state_register]
    split
    · next he => rw [← he, h]
    · rfl

/-- A start moves only a scheduled index. -/
theorem state_markRunning (r : RebuildRegistry) (index other : IndexId) :
    (r.markRunning index).state other =
      if index = other ∧ r.state index = .required then .running else r.state other := by
  rw [markRunning]
  by_cases h : r.state index = .required <;> simp [canStart, h, state_setState]

/-- A finish moves only an index that is being rebuilt. -/
theorem state_markFinished (r : RebuildRegistry) (index other : IndexId) :
    (r.markFinished index).state other =
      if index = other ∧ r.state index = .running then .ok else r.state other := by
  rw [markFinished]
  by_cases h : r.state index = .running <;> simp [canFinish, h, state_setState]

/-- Counting a request moves no index. -/
@[simp] theorem state_countRequest (r : RebuildRegistry) (index other : IndexId) :
    (r.countRequest index).state other = r.state other := by
  rw [state, countRequest, status_setStatus]
  split
  · next h => rw [← h, state]
  · rfl

@[simp] theorem state_recordRequest (r : RebuildRegistry) (index other : IndexId)
    (cause : RebuildCause) : (r.recordRequest index cause).state other = r.state other := rfl

/-! What becomes of a whole status depends on this status only. -/

theorem status_markRequired (r : RebuildRegistry) (index other : IndexId) :
    (r.markRequired index).status other =
      if index = other then { r.status index with state := .required } else r.status other := by
  rw [markRequired]
  split
  · rw [status_setState]
  · next h =>
    have hstate : r.state index = .required := by simpa [canRequest] using h
    rw [status_register]
    split
    · next he => rw [← he, ← hstate, state]
    · rfl

theorem status_markRunning (r : RebuildRegistry) (index other : IndexId) :
    (r.markRunning index).status other =
      if index = other ∧ (r.status index).state = .required then
        { r.status index with state := .running }
      else r.status other := by
  rw [markRunning]
  by_cases h : r.state index = .required <;>
    simp_all [canStart, status_setState, state]

theorem status_markFinished (r : RebuildRegistry) (index other : IndexId) :
    (r.markFinished index).status other =
      if index = other ∧ (r.status index).state = .running then
        { r.status index with state := .ok }
      else r.status other := by
  rw [markFinished]
  by_cases h : r.state index = .running <;>
    simp_all [canFinish, status_setState, state]

theorem status_countRequest (r : RebuildRegistry) (index other : IndexId) :
    (r.countRequest index).status other =
      if index = other then
        { r.status index with requests := (r.status index).requests + 1 }
      else r.status other := by
  rw [countRequest, status_setStatus, requestCount]

theorem canRequest_congr {r r' : RebuildRegistry} {index : IndexId}
    (h : r.status index = r'.status index) :
    r.canRequest index = r'.canRequest index :=
  congrArg (fun status : RebuildStatus => decide (status.state ≠ .required)) h

theorem canStart_congr {r r' : RebuildRegistry} {index : IndexId}
    (h : r.status index = r'.status index) :
    r.canStart index = r'.canStart index :=
  congrArg (fun status : RebuildStatus => decide (status.state = .required)) h

theorem canFinish_congr {r r' : RebuildRegistry} {index : IndexId}
    (h : r.status index = r'.status index) :
    r.canFinish index = r'.canFinish index :=
  congrArg (fun status : RebuildStatus => decide (status.state = .running)) h

@[simp] theorem history_setStatus (r : RebuildRegistry) (index : IndexId)
    (status : RebuildStatus) : (r.setStatus index status).history = r.history := rfl

@[simp] theorem history_register (r : RebuildRegistry) (index : IndexId) :
    (r.register index).history = r.history := rfl

@[simp] theorem history_markRequired (r : RebuildRegistry) (index : IndexId) :
    (r.markRequired index).history = r.history := by
  rw [markRequired]
  split <;> rfl

@[simp] theorem history_markRunning (r : RebuildRegistry) (index : IndexId) :
    (r.markRunning index).history = r.history := by
  rw [markRunning]
  split <;> rfl

@[simp] theorem history_markFinished (r : RebuildRegistry) (index : IndexId) :
    (r.markFinished index).history = r.history := by
  rw [markFinished]
  split <;> rfl

/-! ## Calls -/

/-- Requests a rebuild.  Only the call that schedules it answers `true`, is counted and recorded. -/
def request (r : RebuildRegistry) (index : IndexId) (cause : RebuildCause) :
    Bool × RebuildRegistry :=
  if r.canRequest index then
    (true, ((r.markRequired index).countRequest index).recordRequest index cause)
  else (false, r.register index)

/-- After a call the index is scheduled, whether or not the call was the one that did it. -/
theorem state_request (r : RebuildRegistry) (index : IndexId) (cause : RebuildCause) :
    (r.request index cause).2.state index = .required := by
  have hrequired : (r.markRequired index).state index = .required := by simp [state_markRequired]
  cases hcan : r.canRequest index with
  | false =>
    rw [markRequired, hcan] at hrequired
    simpa [request, hcan] using hrequired
  | true => simpa [request, hcan] using hrequired

/-- A call moves no other index. -/
theorem state_request_of_ne (r : RebuildRegistry) {index other : IndexId} (cause : RebuildCause)
    (h : index ≠ other) : (r.request index cause).2.state other = r.state other := by
  rw [request]
  split
  · simp [state_markRequired, h]
  · simp

/-- Only a call that schedules a rebuild is counted. -/
theorem requestCount_request (r : RebuildRegistry) (index : IndexId) (cause : RebuildCause) :
    (r.request index cause).2.requestCount index =
      if r.state index = .required then r.requestCount index else r.requestCount index + 1 := by
  by_cases h : r.state index = .required
  · simp [request, canRequest, h, requestCount]
  · simp [request, canRequest, h, requestCount, recordRequest, countRequest, markRequired,
      setState, status, setStatus]

/-- Claims a scheduled rebuild and tells whether there was one. -/
def start (r : RebuildRegistry) (index : IndexId) : Bool × RebuildRegistry :=
  (r.canStart index, r.markRunning index)

/-- Ends a running rebuild and tells whether there was one. -/
def finish (r : RebuildRegistry) (index : IndexId) : Bool × RebuildRegistry :=
  (r.canFinish index, r.markFinished index)

end RebuildRegistry

end FileIndexing
