import FileIndexing.Rebuild.Contention
import Mathlib.Data.List.DropRight

/-!
# What the history remembers

Calls that are made on a registry one after the other.  All indices share one history, and only a
request that schedules a rebuild is put into it, so that what is recorded depends on the states of
all indices along the whole run.

* The state of an index depends on the calls for this index only (`state_callAll`), each of which
  moves it as `RebuildState.after` says.
* A history that holds the last of some requests holds the last of one more after recording it
  (`entries_record`).  It drops its oldest entry when it is as long as its limit, which is enough
  because it is never longer.
* `history_exact` is the result: the history holds exactly the most recent of the requests that
  answered that they scheduled a rebuild, as many as its limit allows.
-/

namespace FileIndexing

open Rebuild (Call)

/-! ## States -/

/-- The state to which a call moves its index. -/
def RebuildState.after (state : RebuildState) : Call → RebuildState
  | .request _ _ => .required
  | .start _ => if state = .required then .running else state
  | .finish _ => if state = .running then .ok else state

/-- The state of an index after some calls, as told from the calls. -/
def stateAfter (calls : List Call) (index : IndexId) : RebuildState :=
  (calls.filter (·.index = index)).foldl RebuildState.after .ok

theorem stateAfter_append (calls : List Call) (call : Call) (index : IndexId) :
    stateAfter (calls ++ [call]) index =
      if call.index = index then (stateAfter calls index).after call
      else stateAfter calls index := by
  by_cases h : call.index = index <;> simp [stateAfter, List.filter_append, h]

/-! ## Calls on a registry -/

/-- What is to be remembered of a call that gave an answer. -/
def Rebuild.Call.entry? : Call → Bool → Option HistoryEntry
  | .request index cause, true => some ⟨index, cause⟩
  | _, _ => none

namespace RebuildRegistry

/-- Makes a call. -/
def call (r : RebuildRegistry) : Call → Bool × RebuildRegistry
  | .request index cause => r.request index cause
  | .start index => r.start index
  | .finish index => r.finish index

/-- Makes calls one after the other. -/
def callAll (r : RebuildRegistry) (calls : List Call) : RebuildRegistry :=
  calls.foldl (fun r call => (r.call call).2) r

/-- The requests among some calls, made one after the other, that answer `true`. -/
def granted (r : RebuildRegistry) : List Call → List HistoryEntry
  | [] => []
  | call :: rest => (call.entry? (r.call call).1).toList ++ (r.call call).2.granted rest

theorem callAll_append (r : RebuildRegistry) (calls : List Call) (call : Call) :
    r.callAll (calls ++ [call]) = ((r.callAll calls).call call).2 := by
  rw [callAll, List.foldl_append, List.foldl_cons, List.foldl_nil, callAll]

theorem state_call (r : RebuildRegistry) (call : Call) (index : IndexId) :
    (r.call call).2.state index =
      if call.index = index then (r.state index).after call else r.state index := by
  cases call with
  | request asked cause =>
    change (r.request asked cause).2.state index =
      if asked = index then .required else r.state index
    split
    · next h => rw [← h, state_request]
    · next h => rw [state_request_of_ne r cause h]
  | start asked =>
    rw [RebuildRegistry.call, start, state_markRunning]
    by_cases h : asked = index <;> simp [Call.index, RebuildState.after, h]
  | finish asked =>
    rw [RebuildRegistry.call, finish, state_markFinished]
    by_cases h : asked = index <;> simp [Call.index, RebuildState.after, h]

/-- The state of each index follows the calls for it. -/
theorem state_callAll (limit : Nat) (calls : List Call) (index : IndexId) :
    ((empty limit).callAll calls).state index = stateAfter calls index := by
  induction calls using List.reverseRecOn with
  | nil =>
    change ((empty limit).status index).state = _
    rw [status_empty]
    rfl
  | append_singleton calls call ih => rw [callAll_append, state_call, stateAfter_append, ih]

/-- A request answers `true` exactly if its index is not scheduled. -/
theorem fst_request (r : RebuildRegistry) (index : IndexId) (cause : RebuildCause) :
    (r.request index cause).1 = true ↔ r.state index ≠ .required := by
  rw [request]
  split
  · next h => simpa [canRequest] using h
  · next h => simpa [canRequest] using h

/-! ## The history -/

/-- Only a request that answers `true` is put into the history. -/
theorem history_call (r : RebuildRegistry) (call : Call) :
    (r.call call).2.history =
      ((call.entry? (r.call call).1).elim r.history fun entry =>
        r.history.record entry.index entry.cause) := by
  cases call with
  | request index cause =>
    rw [RebuildRegistry.call, request]
    split
    · exact congrArg (·.record index cause) (history_markRequired r index)
    · rfl
  | start index => exact history_markRunning r index
  | finish index => exact history_markFinished r index

end RebuildRegistry

/-- A history that holds the last of some requests holds the last of one more after recording it. -/
theorem RebuildHistory.entries_record {h : RebuildHistory} (hpos : 0 < h.limit)
    {all : List HistoryEntry} (hentries : h.entries = all.rtake h.limit) (entry : HistoryEntry) :
    (h.record entry.index entry.cause).entries = (all ++ [entry]).rtake h.limit := by
  obtain ⟨n, hn⟩ : ∃ n, h.limit = n + 1 := ⟨h.limit - 1, by omega⟩
  have hlength : h.entries.length = min (n + 1) all.length := by
    rw [hentries, hn, List.rtake, List.length_drop]
    omega
  -- The history is full exactly if there are as many requests as its limit.
  have hkept : (if h.entries.length = h.limit then h.entries.drop 1 else h.entries) =
      all.rtake n := by
    rw [hlength, hentries, hn, List.rtake, List.rtake, List.drop_drop]
    split <;> congr 1 <;> omega
  rw [record, hkept, hn, List.rtake_concat_succ]

namespace RebuildRegistry

/-- A history that holds the last of the requests granted so far holds the last of those granted
in the end. -/
theorem entries_callAll (calls : List Call) {r : RebuildRegistry} {limit : Nat} (hpos : 0 < limit)
    (hlimit : r.history.limit = limit) {all : List HistoryEntry}
    (hentries : r.history.entries = all.rtake limit) :
    (r.callAll calls).history.entries = (all ++ r.granted calls).rtake limit := by
  induction calls generalizing r all with
  | nil => rwa [granted, List.append_nil]
  | cons call rest ih =>
    rw [granted, ← List.append_assoc]
    refine ih (r := (r.call call).2) ?_ ?_
    · rw [history_call]
      cases call.entry? (r.call call).1 with
      | none => exact hlimit
      | some entry => exact hlimit
    · rw [history_call]
      cases call.entry? (r.call call).1 with
      | none => simpa using hentries
      | some entry =>
        subst hlimit
        exact RebuildHistory.entries_record hpos hentries entry

end RebuildRegistry

open RebuildRegistry in
/-- The history of a registry with some limit, where zero acts as one, holds exactly the last of the
requests that answered that they scheduled a rebuild, the oldest first and as many as the limit
allows.  A request answers so exactly if its index is not scheduled, where the state of an index
depends on the calls for it, and no other call changes the history. -/
theorem history_exact (limit : Nat) (calls : List Call) :
    let r := (empty limit).callAll calls
    let granted := (empty limit).granted calls
    r.history.entries = granted.rtake (min (max limit 1) granted.length) ∧
      (∀ index, r.state index = stateAfter calls index) ∧
      (∀ index cause, (r.request index cause).1 = true ↔ r.state index ≠ .required) ∧
      (∀ index cause, (r.request index cause).1 = false →
        (r.request index cause).2.history = r.history) ∧
      (∀ index, (r.start index).2.history = r.history) ∧
      ∀ index, (r.finish index).2.history = r.history := by
  refine ⟨?_, state_callAll limit calls, fst_request _, fun index cause h => ?_,
    history_markRunning _, history_markFinished _⟩
  · have hpos : 0 < max limit 1 := by omega
    rw [entries_callAll calls (r := empty limit) hpos rfl (List.rtake_nil _).symm, List.nil_append,
      List.rtake, List.rtake]
    congr 1
    omega
  · have hcall := history_call ((empty limit).callAll calls) (.request index cause)
    rw [RebuildRegistry.call, h] at hcall
    exact hcall

/-- Two indices that share a history of two requests: one of them asks again while it is scheduled,
and once more after its rebuild was claimed. -/
def sharedCalls : List Call :=
  [.request ⟨"words"⟩ ⟨"first"⟩, .request ⟨"words"⟩ ⟨"again"⟩, .request ⟨"names"⟩ ⟨"second"⟩,
    .start ⟨"words"⟩, .request ⟨"words"⟩ ⟨"third"⟩]

open RebuildRegistry in
/-- The oldest request was dropped, and the one that found its index scheduled never got in; nor
would another one. -/
theorem history_exact_sharedCalls :
    ((empty 2).callAll sharedCalls).history.entries =
        [⟨⟨"names"⟩, ⟨"second"⟩⟩, ⟨⟨"words"⟩, ⟨"third"⟩⟩] ∧
      (((empty 2).callAll sharedCalls).request ⟨"words"⟩ ⟨"fourth"⟩).2.history =
        ((empty 2).callAll sharedCalls).history := by
  have h := history_exact 2 sharedCalls
  have hgranted : (empty 2).granted sharedCalls =
      [⟨⟨"words"⟩, ⟨"first"⟩⟩, ⟨⟨"names"⟩, ⟨"second"⟩⟩, ⟨⟨"words"⟩, ⟨"third"⟩⟩] := by decide
  have hstate : ((empty 2).callAll sharedCalls).state ⟨"words"⟩ = .required :=
    (h.2.1 _).trans (by decide)
  refine ⟨by rw [h.1, hgranted]; rfl, h.2.2.2.1 _ _ ?_⟩
  exact Bool.eq_false_iff.2 fun hrequest => (h.2.2.1 _ _).1 hrequest hstate

end FileIndexing
