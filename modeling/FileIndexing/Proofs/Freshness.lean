import FileIndexing.Proofs.Exclusion
import Mathlib.Data.Finset.Card

/-!
# Whether a mark outlives a clear

An index in memory is up to date for an input if it has been marked as such since it was last
cleared.  A writer applies its update under the lock of the index and marks the input later, under
the coordination lock, so that a rebuild may clear the index between the two steps.  The mark then
stands for data that are gone.

* `appliedSinceClear` reads off a trace whether the last application to an input came after the
  last clear of its index, and `clearedUnderWay` whether instead the last clear met a writer that
  had applied its update to the input and had not come to its end.
* `MarkPlace` and `MarkMove` are the protocol of a thread with regard to the marks and the
  coordination lock, and `MarkInvariant` is what all moves keep.
* `appliedSinceClear_iff` is the result: of an input that is marked as up to date, the last
  application came after the last clear exactly if no such writer was met.
-/

namespace FileIndexing

open ServiceState

/-! ## Applications and clears -/

namespace Event

/-- The pair that an update was applied to. -/
def applied? : Event → Option WriteMark
  | .applyEnded index input _ _ => some ⟨index, input⟩
  | _ => none

/-- The index that was cleared. -/
def cleared? : Event → Option IndexId
  | .clearEnded index _ => some index
  | _ => none

/-- The pair that a writer has done with. -/
def completed? : Event → Option WriteMark
  | .executed op _ => some op.mark
  | .fileIndexed index input _ => some ⟨index, input⟩
  | _ => none

/-- Whether an event is about the writers or the clears of an index. -/
def isAboutStorage (event : Event) : Bool :=
  event.applied?.isSome || event.cleared?.isSome || event.completed?.isSome

end Event

/-- Whether the last application to a pair came after the last clear of its index. -/
def appliedSinceClear (pair : WriteMark) : Trace → Bool
  | [] => false
  | (_, event) :: h =>
    if event.applied? = some pair then true
    else if event.cleared? = some pair.index then false
    else appliedSinceClear pair h

/-- The thread that applied the last update to a pair, unless it has come to its end since. -/
def underWay? (pair : WriteMark) : Trace → Option Nat
  | [] => none
  | (t, event) :: h =>
    if event.applied? = some pair then some t
    else if event.completed? = some pair ∧ underWay? pair h = some t then none
    else underWay? pair h

/-- Whether the last clear of an index came after the last application to a pair and met the writer
that had applied it under way. -/
def clearedUnderWay (pair : WriteMark) : Trace → Bool
  | [] => false
  | (_, event) :: h =>
    if event.applied? = some pair then false
    else if event.cleared? = some pair.index then (underWay? pair h).isSome
    else clearedUnderWay pair h

theorem appliedSinceClear_of_clearedUnderWay {pair : WriteMark} {h : Trace}
    (hmet : clearedUnderWay pair h = true) : appliedSinceClear pair h = false := by
  induction h with
  | nil => rfl
  | cons x h ih =>
    simp only [clearedUnderWay, appliedSinceClear] at hmet ⊢
    split at hmet
    · simp at hmet
    · split at hmet <;> simp_all

/-- Whether a pair was applied last, or cleared while its writer was under way. -/
def Accounted (pair : WriteMark) (h : Trace) : Prop :=
  appliedSinceClear pair h = true ∨ clearedUnderWay pair h = true

section

variable {pair : WriteMark} {h : Trace} {t : Nat} {event : Event}

theorem underWay?_cons (hquiet : event.isAboutStorage = false) :
    underWay? pair ((t, event) :: h) = underWay? pair h := by
  cases event <;>
    simp_all [Event.isAboutStorage, Event.applied?, Event.cleared?, Event.completed?, underWay?]

theorem accounted_cons (happlied : event.applied? = none) (hcleared : event.cleared? = none) :
    Accounted pair ((t, event) :: h) ↔ Accounted pair h := by
  simp [Accounted, appliedSinceClear, clearedUnderWay, happlied, hcleared]

theorem underWay?_append {events : List Event}
    (hquiet : ∀ event ∈ events, event.isAboutStorage = false) :
    underWay? pair (events.map (fun event => (t, event)) ++ h) = underWay? pair h := by
  induction events with
  | nil => rfl
  | cons event rest ih =>
    rw [List.map_cons, List.cons_append, underWay?_cons (hquiet event (by simp))]
    exact ih fun e he => hquiet e (by simp [he])

theorem accounted_append {events : List Event}
    (hquiet : ∀ event ∈ events, event.isAboutStorage = false) :
    Accounted pair (events.map (fun event => (t, event)) ++ h) ↔ Accounted pair h := by
  induction events with
  | nil => rfl
  | cons event rest ih =>
    have hevent := hquiet event (by simp)
    simp only [Event.isAboutStorage, Bool.or_eq_false_iff, Option.isSome_eq_false_iff,
      Option.isNone_iff_eq_none] at hevent
    rw [List.map_cons, List.cons_append, accounted_cons hevent.1.1 hevent.1.2]
    exact ih fun e he => hquiet e (by simp [he])

end

/-! ## The protocol of the marks -/

variable {K V C : Type} [Ord K]

/-- The shared state of a service whose indices are kept in memory. -/
abbrev MemoryState (K V C : Type) [Ord K] := ServiceState (MemoryIndex K V) C

/-- The indexing state of a pair. -/
def ServiceState.indexingState (s : MemoryState K V C) (pair : WriteMark) : IndexingState :=
  (s.stores[pair.index]?.getD default).state pair.input

/-- How far a thread has come as a writer of a pair, or with the coordination lock. -/
inductive MarkPlace where
  | outside
  /-- Shares the coordination lock to look at indexing states. -/
  | looking
  /-- Holds the mark of a pair. -/
  | marked (pair : WriteMark)
  /-- Has applied its update to the pair and has not come to its end. -/
  | applied (pair : WriteMark)
  /-- Shares the coordination lock to mark the pair. -/
  | sharing (pair : WriteMark)
  /-- Holds the coordination lock alone. -/
  | alone
  /-- Holds the coordination lock alone and has dropped the indexing states of an index. -/
  | dropped (index : IndexId)

namespace MarkPlace

/-- The pair whose mark a thread holds. -/
def mark? : MarkPlace → Option WriteMark
  | .marked pair | .applied pair | .sharing pair => some pair
  | _ => none

/-- The pair that a thread has applied its update to. -/
def applied? : MarkPlace → Option WriteMark
  | .applied pair | .sharing pair => some pair
  | _ => none

/-- Whether a thread shares the coordination lock. -/
def shares : MarkPlace → Bool
  | .looking | .sharing _ => true
  | _ => false

/-- Whether a thread holds the coordination lock alone. -/
def excludes : MarkPlace → Bool
  | .alone | .dropped _ => true
  | _ => false

end MarkPlace

/-- The later state differs from the earlier one in nothing that concerns marks. -/
structure ServiceState.Unmarked (s t : MemoryState K V C) : Prop where
  marks : t.marks = s.marks
  readers : t.coordination.readers = s.coordination.readers
  writer : t.coordination.writer = s.coordination.writer
  states : ∀ pair, t.indexingState pair = s.indexingState pair
  events : ∃ events : List Event, (∀ event ∈ events, event.isAboutStorage = false) ∧
    t.journal = events ++ s.journal

/-- What a thread does by one access, as far as it concerns marks and the coordination lock. -/
inductive MarkMove : MarkPlace → MemoryState K V C → MarkPlace → MemoryState K V C → Prop where
  | unmarked {l s t} : s.Unmarked t → MarkMove l s l t
  | complete {s pair event} : event.completed? = some pair →
    MarkMove .outside s .outside (s.note event)
  | take {s pair} : s.marks.isMarked pair = false →
    MarkMove .outside s (.marked pair) { s with marks := s.marks.take pair }
  | apply {s : MemoryState K V C} {pair : WriteMark} {origin changed} :
    MarkMove (.marked pair) s (.applied pair)
      (s.note (.applyEnded pair.index pair.input origin changed))
  | share {s pair} : s.coordination.canShare = true →
    MarkMove (.applied pair) s (.sharing pair) { s with coordination := s.coordination.share }
  | set {s t : MemoryState K V C} {pair : WriteMark} : t.marks = s.marks →
    t.coordination = s.coordination → t.journal = s.journal →
    (∀ other, other ≠ pair → t.indexingState other = s.indexingState other) →
    MarkMove (.sharing pair) s (.sharing pair) t
  | unshare {s pair} :
    MarkMove (.sharing pair) s (.applied pair)
      { s with coordination := s.coordination.unshare }
  | release {l s pair} : l = .marked pair ∨ l = .applied pair →
    MarkMove l s .outside { s with marks := s.marks.release pair }
  | look {s} : s.coordination.canShare = true →
    MarkMove .outside s .looking { s with coordination := s.coordination.share }
  | unlook {s} : MarkMove .looking s .outside { s with coordination := s.coordination.unshare }
  | hold {s} : s.coordination.canHold = true →
    MarkMove .outside s .alone { s with coordination := s.coordination.hold }
  | drop {s t : MemoryState K V C} {index : IndexId} : t.marks = s.marks →
    t.coordination = s.coordination → t.journal = s.journal →
    (∀ pair, pair.index = index → t.indexingState pair = .notIndexed) →
    (∀ pair, pair.index ≠ index → t.indexingState pair = s.indexingState pair) →
    MarkMove .alone s (.dropped index) t
  | clear {s index cleared} :
    MarkMove (.dropped index) s .alone (s.note (.clearEnded index cleared))
  | unhold {s} : MarkMove .alone s .outside { s with coordination := s.coordination.unhold }

/-! ## The invariant -/

/-- Whoever holds the coordination lock alone is alone with it. -/
structure Coordinated (s : MemoryState K V C) (place : Nat → MarkPlace) : Prop where
  sharers : ∃ S : Finset Nat, (∀ t, t ∈ S ↔ (place t).shares = true) ∧
    S.card = s.coordination.readers
  writer : ∀ t, (place t).excludes = true → s.coordination.writer = true
  exclusive : ∀ t u, (place t).excludes = true → (place u).shares = false
  single : ∀ t u, (place t).excludes = true → (place u).excludes = true → t = u

/-- What the trace tells about the pairs that are marked or about to be marked as up to date. -/
structure Accounts (h : Trace) (s : MemoryState K V C) (place : Nat → MarkPlace) : Prop where
  dropped : ∀ t index, place t = .dropped index → ∀ pair, pair.index = index →
    s.indexingState pair = .notIndexed
  underWay : ∀ t pair, (place t).applied? = some pair → underWay? pair h = some t
  applied : ∀ t pair, (place t).applied? = some pair → Accounted pair h
  upToDate : ∀ pair, s.indexingState pair = .upToDate → Accounted pair h

/-- How the marks, the coordination lock, the indexing states and the trace hang together with the
places of the threads. -/
structure MarkInvariant (h : Trace) (s : MemoryState K V C) (place : Nat → MarkPlace) : Prop where
  marks : MarksHeld s.marks (MarkPlace.mark? ∘ place)
  coordination : Coordinated s place
  accounts : Accounts h s place

/-- Nobody holds or shares the coordination lock of a service at rest. -/
theorem Coordinated.of_atRest {s : MemoryState K V C} (hs : s.AtRest) :
    Coordinated s fun _ => .outside := by
  obtain ⟨writersFirst, hfree⟩ := hs.coordination
  refine ⟨⟨∅, by simp [MarkPlace.shares], by simp [hfree, Coordination.free]⟩, ?_, ?_, ?_⟩ <;>
    simp [MarkPlace.excludes]

theorem markInvariant_nil {s : MemoryState K V C} (hs : s.AtRest)
    (hfresh : ∀ pair, s.indexingState pair = .notIndexed) :
    MarkInvariant [] s fun _ => .outside where
  marks := .of_none fun _ => rfl
  coordination := .of_atRest hs
  accounts := by
    refine ⟨by simp, by simp [MarkPlace.applied?], by simp [MarkPlace.applied?], ?_⟩
    intro pair hpair
    simp [hfresh pair] at hpair

section Steps

variable {h : Trace} {s s' : MemoryState K V C} {place : Nat → MarkPlace} {t : Nat}
  {l : MarkPlace} {pair : WriteMark}

/-! ### Marks -/

theorem MarksHeld.of_same (hinv : MarksHeld s.marks (MarkPlace.mark? ∘ place))
    (hmarks : s'.marks = s.marks) (hl : l.mark? = (place t).mark?) :
    MarksHeld s'.marks (MarkPlace.mark? ∘ Function.update place t l) := by
  have hheld : Function.update (MarkPlace.mark? ∘ place) t (place t).mark? =
      MarkPlace.mark? ∘ place := Function.update_eq_self t _
  rwa [Function.comp_update, hl, hheld, hmarks]

theorem MarksHeld.take_place (hinv : MarksHeld s.marks (MarkPlace.mark? ∘ place))
    (hfree : s.marks.isMarked pair = false) (hl : l.mark? = some pair) :
    MarksHeld (s.marks.take pair) (MarkPlace.mark? ∘ Function.update place t l) := by
  rw [Function.comp_update, hl]
  exact hinv.take hfree

theorem MarksHeld.release_place (hinv : MarksHeld s.marks (MarkPlace.mark? ∘ place))
    (hplace : (place t).mark? = some pair) (hl : l.mark? = none) :
    MarksHeld (s.marks.release pair) (MarkPlace.mark? ∘ Function.update place t l) := by
  rw [Function.comp_update, hl]
  exact hinv.release hplace

/-! ### The coordination lock -/

theorem Coordinated.of_same (hinv : Coordinated s place)
    (hreaders : s'.coordination.readers = s.coordination.readers)
    (hwriter : s'.coordination.writer = s.coordination.writer)
    (hshares : l.shares = (place t).shares) (hexcludes : l.excludes = (place t).excludes) :
    Coordinated s' (Function.update place t l) where
  sharers := by
    obtain ⟨S, hS, hcard⟩ := hinv.sharers
    refine ⟨S, fun u => ?_, hcard.trans hreaders.symm⟩
    grind [Function.update_apply]
  writer u hu := by
    rw [hwriter]
    refine hinv.writer u ?_
    grind [Function.update_apply]
  exclusive u v hu := by
    have := hinv.exclusive u v
    grind [Function.update_apply]
  single u v hu hv := by
    refine hinv.single u v ?_ ?_ <;> grind [Function.update_apply]

/-- A thread begins to share the lock, which nobody holds alone. -/
theorem Coordinated.share (hinv : Coordinated s place)
    (hcan : s.coordination.canShare = true)
    (hcoordination : s'.coordination = s.coordination.share)
    (hshares : l.shares = true) (hexcludes : l.excludes = false)
    (hplace : (place t).shares = false) : Coordinated s' (Function.update place t l) where
  sharers := by
    obtain ⟨S, hS, hcard⟩ := hinv.sharers
    have ht : t ∉ S := by simp [hS, hplace]
    refine ⟨insert t S, fun u => ?_, ?_⟩
    · rw [Function.update_apply]
      by_cases hut : u = t <;> simp [hut, hS, hshares]
    · rw [Finset.card_insert_of_notMem ht, hcard, hcoordination]
      rfl
  writer u hu := by
    rw [hcoordination]
    refine hinv.writer u ?_
    grind [Function.update_apply]
  exclusive u v hu := by
    have hu' : (place u).excludes = true := by grind [Function.update_apply]
    have := hinv.writer u hu'
    simp [Coordination.canShare, this] at hcan
  single u v hu hv := by
    refine hinv.single u v ?_ ?_ <;> grind [Function.update_apply]

theorem Coordinated.unshare (hinv : Coordinated s place)
    (hcoordination : s'.coordination = s.coordination.unshare) (hshares : l.shares = false)
    (hexcludes : l.excludes = (place t).excludes) (hplace : (place t).shares = true) :
    Coordinated s' (Function.update place t l) where
  sharers := by
    obtain ⟨S, hS, hcard⟩ := hinv.sharers
    have ht : t ∈ S := by simp [hS, hplace]
    refine ⟨S.erase t, fun u => ?_, ?_⟩
    · rw [Function.update_apply]
      by_cases hut : u = t <;> simp [hut, hS, hshares]
    · rw [Finset.card_erase_of_mem ht, hcard, hcoordination]
      rfl
  writer u hu := by
    rw [hcoordination]
    refine hinv.writer u ?_
    grind [Function.update_apply]
  exclusive u v hu := by
    have := hinv.exclusive u v
    grind [Function.update_apply]
  single u v hu hv := by
    refine hinv.single u v ?_ ?_ <;> grind [Function.update_apply]

/-- A thread gets the lock alone while nobody shares it. -/
theorem Coordinated.hold (hinv : Coordinated s place) (hcan : s.coordination.canHold = true)
    (hcoordination : s'.coordination = s.coordination.hold)
    (hshares : l.shares = false) : Coordinated s' (Function.update place t l) := by
  simp only [Coordination.canHold, Bool.and_eq_true, Bool.not_eq_eq_eq_not, Bool.not_true,
    decide_eq_true_eq] at hcan
  obtain ⟨S, hS, hcard⟩ := hinv.sharers
  have hempty : S = ∅ := Finset.card_eq_zero.1 (hcard.trans hcan.2)
  have hnone : ∀ u, (place u).shares = false := fun u => by
    have := hS u
    simpa [hempty] using this
  have hfree : ∀ u, (place u).excludes = false := fun u => by
    by_contra hu
    simp [hinv.writer u (by simpa using hu)] at hcan
  constructor
  · refine ⟨∅, fun u => ?_, ?_⟩
    · rw [Function.update_apply]
      split <;> simp [hshares, hnone]
    · simp [hcoordination, Coordination.hold, hcan.2]
  · intro u _
    rw [hcoordination]
    rfl
  · intro u v _
    rw [Function.update_apply]
    split
    · exact hshares
    · exact hnone v
  · intro u v hu hv
    rw [Function.update_apply] at hu hv
    split at hu <;> split at hv <;> simp_all

theorem Coordinated.unhold (hinv : Coordinated s place)
    (hcoordination : s'.coordination = s.coordination.unhold) (hshares : l.shares = false)
    (hexcludes : l.excludes = false) (hplace : (place t).excludes = true) :
    Coordinated s' (Function.update place t l) where
  sharers := by
    obtain ⟨S, hS, hcard⟩ := hinv.sharers
    refine ⟨S, fun u => ?_, by rw [hcard, hcoordination]; rfl⟩
    have := hinv.exclusive t t hplace
    grind [Function.update_apply]
  writer u hu := by
    have hut : u ≠ t := by
      intro heq
      subst heq
      simp [hexcludes] at hu
    rw [Function.update_of_ne hut] at hu
    exact absurd (hinv.single u t hu hplace) hut
  exclusive u v hu := by
    have := hinv.exclusive u v
    grind [Function.update_apply]
  single u v hu hv := by
    refine hinv.single u v ?_ ?_ <;> grind [Function.update_apply]

/-! ### The accounts -/

/-- An access that moves no indexing state and tells nothing of writers or clears. -/
theorem Accounts.of_same (hinv : Accounts h s place) {h' : Trace}
    (hunderWay : ∀ pair, underWay? pair h' = underWay? pair h)
    (haccounted : ∀ pair, Accounted pair h' ↔ Accounted pair h)
    (hstates : ∀ pair, s'.indexingState pair = s.indexingState pair)
    (hdropped : ∀ index, l = .dropped index → place t = .dropped index)
    (happlied : ∀ pair, l.applied? = some pair → (place t).applied? = some pair) :
    Accounts h' s' (Function.update place t l) where
  dropped u index hu other hother := by
    rw [hstates]
    refine hinv.dropped u index ?_ other hother
    grind [Function.update_apply]
  underWay u other hu := by
    rw [hunderWay]
    refine hinv.underWay u other ?_
    grind [Function.update_apply]
  applied u other hu := by
    rw [haccounted]
    refine hinv.applied u other ?_
    grind [Function.update_apply]
  upToDate other hother := by
    rw [haccounted]
    exact hinv.upToDate other (by rw [← hstates, hother])

/-- An access that notes nothing and leaves the indexing states alone. -/
theorem Accounts.of_state (hinv : Accounts h s place) (hjournal : s'.journal = s.journal)
    (hstates : ∀ pair, s'.indexingState pair = s.indexingState pair)
    (hdropped : ∀ index, l = .dropped index → place t = .dropped index)
    (happlied : ∀ pair, l.applied? = some pair → (place t).applied? = some pair) :
    Accounts (h.extend t s s') s' (Function.update place t l) := by
  rw [Trace.extend_of_journal_eq hjournal]
  exact hinv.of_same (fun _ => rfl) (fun _ => Iff.rfl) hstates hdropped happlied

/-- A thread that moves and has not just dropped the data of an index leaves it to the others. -/
theorem Accounts.dropped_update (hinv : Accounts h s place) (hdropped : ∀ index, l ≠ .dropped index)
    (u : Nat) (index : IndexId) (hu : Function.update place t l u = .dropped index)
    (other : WriteMark) (hother : other.index = index) :
    s.indexingState other = .notIndexed := by
  refine hinv.dropped u index ?_ other hother
  rw [Function.update_apply] at hu
  split at hu
  · exact absurd hu (hdropped index)
  · exact hu

/-- A thread comes to the end of an operation on a pair. -/
theorem Accounts.complete (hinv : Accounts h s place) {event : Event}
    (hevent : event.completed? = some pair) (hdropped : ∀ index, l ≠ .dropped index)
    (happlied : l.applied? = none) :
    Accounts ((t, event) :: h) (s.note event) (Function.update place t l) := by
  have hnot : event.applied? = none ∧ event.cleared? = none := by
    cases event <;> simp_all [Event.applied?, Event.cleared?, Event.completed?]
  have hother : ∀ u other, (Function.update place t l u).applied? = some other →
      u ≠ t ∧ (place u).applied? = some other := by
    intro u other hu
    rw [Function.update_apply] at hu
    split at hu
    · simp [happlied] at hu
    · next hut => exact ⟨hut, hu⟩
  constructor
  · exact hinv.dropped_update hdropped
  · intro u other hu
    obtain ⟨hut, hu⟩ := hother u other hu
    have hold := hinv.underWay u other hu
    simp [underWay?, hnot.1, hold, hut]
  · intro u other hu
    rw [accounted_cons hnot.1 hnot.2]
    exact hinv.applied u other (hother u other hu).2
  · intro other hstate
    rw [accounted_cons hnot.1 hnot.2]
    exact hinv.upToDate other hstate

/-- The thread that holds the mark of a pair has applied its update. -/
theorem Accounts.apply (hinv : Accounts h s place)
    (hmarks : MarksHeld s.marks (MarkPlace.mark? ∘ place)) {event : Event}
    (hevent : event.applied? = some pair) (hplace : (place t).mark? = some pair)
    (hdropped : ∀ index, l ≠ .dropped index) (happlied : l.applied? = some pair) :
    Accounts ((t, event) :: h) (s.note event) (Function.update place t l) := by
  have hcleared : event.cleared? = none := by
    cases event <;> simp_all [Event.applied?, Event.cleared?]
  have hcompleted : event.completed? = none := by
    cases event <;> simp_all [Event.applied?, Event.completed?]
  have haccounted : ∀ other, Accounted other h → Accounted other ((t, event) :: h) := by
    intro other hother
    by_cases hpair : pair = other
    · simp [Accounted, appliedSinceClear, hevent, hpair]
    · simpa [Accounted, appliedSinceClear, clearedUnderWay, hevent, hpair, hcleared] using hother
  constructor
  · exact hinv.dropped_update hdropped
  · intro u other hu
    rw [Function.update_apply] at hu
    split at hu
    · next hut =>
      obtain rfl : pair = other := by simpa [happlied] using hu
      simp [underWay?, hevent, hut]
    · next hut =>
      -- another writer of the pair would hold the same mark
      have hne : pair ≠ other := by
        intro heq
        subst heq
        refine hut (hmarks.sole u t pair ?_ hplace)
        rw [Function.comp_apply]
        cases hu' : place u <;> simp_all [MarkPlace.applied?, MarkPlace.mark?]
      simpa [underWay?, hevent, hcompleted, hne] using hinv.underWay u other hu
  · intro u other hu
    rw [Function.update_apply] at hu
    split at hu
    · obtain rfl : pair = other := by simpa [happlied] using hu
      simp [Accounted, appliedSinceClear, hevent]
    · exact haccounted other (hinv.applied u other hu)
  · intro other hstate
    exact haccounted other (hinv.upToDate other hstate)

/-- A thread that shares the coordination lock sets the indexing state of its pair. -/
theorem Accounts.set (hinv : Accounts h s place) (hcoordination : Coordinated s place)
    (hplace : place t = .sharing pair) (hjournal : s'.journal = s.journal)
    (hstates : ∀ other, other ≠ pair → s'.indexingState other = s.indexingState other) :
    Accounts (h.extend t s s') s' place := by
  rw [Trace.extend_of_journal_eq hjournal]
  constructor
  · intro u index hu
    have hshares := hcoordination.exclusive u t (by simp [hu, MarkPlace.excludes])
    simp [hplace, MarkPlace.shares] at hshares
  · exact hinv.underWay
  · exact hinv.applied
  · intro other hstate
    by_cases hother : other = pair
    · subst hother
      exact hinv.applied t other (by simp [hplace, MarkPlace.applied?])
    · exact hinv.upToDate other (by rw [← hstates other hother, hstate])

/-- A thread that holds the coordination lock alone drops the indexing states of an index. -/
theorem Accounts.drop (hinv : Accounts h s place) {index : IndexId}
    (hjournal : s'.journal = s.journal)
    (hcleared : ∀ other : WriteMark, other.index = index → s'.indexingState other = .notIndexed)
    (hstates : ∀ other : WriteMark, other.index ≠ index →
      s'.indexingState other = s.indexingState other) :
    Accounts (h.extend t s s') s' (Function.update place t (.dropped index)) := by
  rw [Trace.extend_of_journal_eq hjournal]
  have hmono : ∀ other : WriteMark, s.indexingState other = .notIndexed →
      s'.indexingState other = .notIndexed := by
    intro other hother
    by_cases hindex : other.index = index
    · exact hcleared other hindex
    · rw [hstates other hindex, hother]
  constructor
  · intro u i hu other hother
    rw [Function.update_apply] at hu
    split at hu
    · obtain rfl : index = i := by simpa using hu
      exact hcleared other hother
    · exact hmono other (hinv.dropped u i hu other hother)
  · intro u other hu
    refine hinv.underWay u other ?_
    grind [Function.update_apply, MarkPlace.applied?]
  · intro u other hu
    refine hinv.applied u other ?_
    grind [Function.update_apply, MarkPlace.applied?]
  · intro other hstate
    refine hinv.upToDate other ?_
    cases hold : s.indexingState other with
    | upToDate => rfl
    | notIndexed => simp [hmono other hold] at hstate

/-- A clear meets every writer of the index that has applied its update. -/
theorem Accounts.clear (hinv : Accounts h s place) {index : IndexId} {event : Event}
    (hplace : place t = .dropped index) (hevent : event.cleared? = some index) :
    Accounts ((t, event) :: h) (s.note event) (Function.update place t .alone) := by
  have happlied : event.applied? = none := by
    cases event <;> simp_all [Event.applied?, Event.cleared?]
  have hcompleted : event.completed? = none := by
    cases event <;> simp_all [Event.cleared?, Event.completed?]
  have hother : ∀ u other, (Function.update place t .alone u).applied? = some other →
      (place u).applied? = some other := by
    intro u other hu
    grind [Function.update_apply, MarkPlace.applied?]
  constructor
  · intro u i hu other hindex
    refine hinv.dropped u i ?_ other hindex
    grind [Function.update_apply]
  · intro u other hu
    simpa [underWay?, happlied, hcompleted] using hinv.underWay u other (hother u other hu)
  · intro u other hu
    have hold := hinv.applied u other (hother u other hu)
    have hunderWay := hinv.underWay u other (hother u other hu)
    by_cases hindex : index = other.index
    · right
      simp [clearedUnderWay, happlied, hevent, hindex, hunderWay]
    · simpa [Accounted, appliedSinceClear, clearedUnderWay, happlied, hevent, hindex] using hold
  · intro other hstate
    have hindex : index ≠ other.index := by
      intro hindex
      have hnot := hinv.dropped t index hplace other hindex.symm
      have hsame : (s.note event).indexingState other = s.indexingState other := rfl
      simp [hsame, hnot] at hstate
    simpa [Accounted, appliedSinceClear, clearedUnderWay, happlied, hevent, hindex] using
      hinv.upToDate other hstate

/-! ### All moves -/

/-- Every move of a thread keeps the invariant. -/
theorem MarkInvariant.step (hinv : MarkInvariant h s place) (hmove : MarkMove (place t) s l s') :
    MarkInvariant (h.extend t s s') s' (Function.update place t l) := by
  obtain ⟨hmarks, hcoordination, haccounts⟩ := hinv
  generalize hplace : place t = l₀ at hmove
  cases hmove with
  | unmarked hsame =>
    refine ⟨hmarks.of_same hsame.marks (by rw [hplace]),
      hcoordination.of_same hsame.readers hsame.writer (by rw [hplace]) (by rw [hplace]), ?_⟩
    obtain ⟨events, hquiet, hjournal⟩ := hsame.events
    rw [Trace.extend_of_journal events hjournal]
    exact haccounts.of_same (fun _ => underWay?_append hquiet)
      (fun _ => accounted_append hquiet) hsame.states (fun index hl => by rw [hplace, hl])
      (fun _ hl => by rw [hplace, hl])
  | complete hevent =>
    rw [Trace.extend_note]
    exact ⟨hmarks.of_same rfl (by rw [hplace]),
      hcoordination.of_same rfl rfl (by rw [hplace]) (by rw [hplace]),
      haccounts.complete hevent (by simp) rfl⟩
  | take hfree =>
    exact ⟨hmarks.take_place hfree rfl,
      hcoordination.of_same rfl rfl (by rw [hplace]; rfl) (by rw [hplace]; rfl),
      haccounts.of_state rfl (fun _ => rfl) (by simp) (by simp [MarkPlace.applied?])⟩
  | apply =>
    rw [Trace.extend_note]
    exact ⟨hmarks.of_same rfl (by rw [hplace]; rfl),
      hcoordination.of_same rfl rfl (by rw [hplace]; rfl) (by rw [hplace]; rfl),
      haccounts.apply hmarks rfl (by rw [hplace]; rfl) (by simp) rfl⟩
  | share hcan =>
    exact ⟨hmarks.of_same rfl (by rw [hplace]; rfl),
      hcoordination.share hcan rfl rfl rfl (by rw [hplace]; rfl),
      haccounts.of_state rfl (fun _ => rfl) (by simp) (fun _ hl => by rw [hplace]; exact hl)⟩
  | set hm hc hj hstates =>
    rw [← hplace, Function.update_eq_self]
    have hmarks' := hmarks.of_same (t := t) hm rfl
    have hcoordination' := hcoordination.of_same (t := t) (congrArg _ hc) (congrArg _ hc) rfl rfl
    rw [Function.update_eq_self] at hmarks' hcoordination'
    exact ⟨hmarks', hcoordination', haccounts.set hcoordination hplace hj hstates⟩
  | unshare =>
    exact ⟨hmarks.of_same rfl (by rw [hplace]; rfl),
      hcoordination.unshare rfl rfl (by rw [hplace]; rfl) (by rw [hplace]; rfl),
      haccounts.of_state rfl (fun _ => rfl) (by simp) (fun _ hl => by rw [hplace]; exact hl)⟩
  | release hl =>
    refine ⟨hmarks.release_place ?_ rfl, hcoordination.of_same rfl rfl ?_ ?_,
      haccounts.of_state rfl (fun _ => rfl) (by simp) (by simp [MarkPlace.applied?])⟩ <;>
        rcases hl with rfl | rfl <;> rw [hplace] <;> rfl
  | look hcan =>
    exact ⟨hmarks.of_same rfl (by rw [hplace]; rfl),
      hcoordination.share hcan rfl rfl rfl (by rw [hplace]; rfl),
      haccounts.of_state rfl (fun _ => rfl) (by simp) (by simp [MarkPlace.applied?])⟩
  | unlook =>
    exact ⟨hmarks.of_same rfl (by rw [hplace]; rfl),
      hcoordination.unshare rfl rfl (by rw [hplace]; rfl) (by rw [hplace]; rfl),
      haccounts.of_state rfl (fun _ => rfl) (by simp) (by simp [MarkPlace.applied?])⟩
  | hold hcan =>
    exact ⟨hmarks.of_same rfl (by rw [hplace]; rfl), hcoordination.hold hcan rfl rfl,
      haccounts.of_state rfl (fun _ => rfl) (by simp) (by simp [MarkPlace.applied?])⟩
  | drop hm hc hj hcleared hstates =>
    exact ⟨hmarks.of_same hm (by rw [hplace]; rfl),
      hcoordination.of_same (congrArg _ hc) (congrArg _ hc) (by rw [hplace]; rfl)
        (by rw [hplace]; rfl),
      haccounts.drop hj hcleared hstates⟩
  | clear =>
    rw [Trace.extend_note]
    exact ⟨hmarks.of_same rfl (by rw [hplace]; rfl),
      hcoordination.of_same rfl rfl (by rw [hplace]; rfl) (by rw [hplace]; rfl),
      haccounts.clear hplace rfl⟩
  | unhold =>
    exact ⟨hmarks.of_same rfl (by rw [hplace]; rfl),
      hcoordination.unhold rfl rfl rfl (by rw [hplace]; rfl),
      haccounts.of_state rfl (fun _ => rfl) (by simp) (by simp [MarkPlace.applied?])⟩

end Steps

/-! ## Keeping to the protocol -/

/-- One access to the storage of an index as an access to the state of the service. -/
theorem Handle.onStore_access {α : Type} (index : IndexId)
    (f : MemoryIndex K V → α × MemoryIndex K V) :
    (onStore index (Action.access f) : ServiceAction (MemoryIndex K V) C α) =
      Action.access fun s =>
        ((f (s.stores[index]?.getD default)).1,
          { s with stores := s.stores.insert index (f (s.stores[index]?.getD default)).2 }) := rfl

theorem Handle.indexingState_onStore (s : MemoryState K V C) (index : IndexId)
    (store : MemoryIndex K V) (pair : WriteMark) :
    ServiceState.indexingState { s with stores := s.stores.insert index store } pair =
      if index = pair.index then store.state pair.input else s.indexingState pair := by
  by_cases hindex : index = pair.index
  · simp [ServiceState.indexingState, hindex]
  · simp [ServiceState.indexingState, Std.ExtTreeMap.getElem?_insert, hindex]

namespace ServiceState

theorem Still.unmarked {s t : MemoryState K V C} (h : s.Still t) : s.Unmarked t where
  marks := h.marks
  readers := congrArg _ h.coordination
  writer := congrArg _ h.coordination
  states pair := by
    unfold indexingState
    rw [h.stores]
  events := by
    obtain ⟨events, hremark, hjournal⟩ := h.remarks
    refine ⟨events, fun event hevent => ?_, hjournal⟩
    have := hremark event hevent
    cases event <;> simp_all [Event.isRemark, Event.isAboutStorage, Event.applied?, Event.cleared?,
      Event.completed?]

theorem Unmarked.of_eq {s t : MemoryState K V C} (hmarks : t.marks = s.marks)
    (hreaders : t.coordination.readers = s.coordination.readers)
    (hwriter : t.coordination.writer = s.coordination.writer)
    (hstates : ∀ pair, t.indexingState pair = s.indexingState pair)
    (hjournal : t.journal = s.journal) : s.Unmarked t :=
  ⟨hmarks, hreaders, hwriter, hstates, [], by simp, hjournal⟩

theorem Unmarked.note (s : MemoryState K V C) {event : Event}
    (h : event.isAboutStorage = false) : s.Unmarked (s.note event) :=
  ⟨rfl, rfl, rfl, fun _ => rfl, [event], by simpa using h, rfl⟩

theorem Unmarked.moveRegistry (s : MemoryState K V C) (index : IndexId)
    (registry : RebuildRegistry) : s.Unmarked (s.moveRegistry index registry) := by
  rw [ServiceState.moveRegistry]
  split
  · exact .of_eq rfl rfl rfl (fun _ => rfl) rfl
  · exact ⟨rfl, rfl, rfl, fun _ => rfl, [_], by simp [Event.isAboutStorage, Event.applied?,
      Event.cleared?, Event.completed?], rfl⟩

theorem Unmarked.endRebuild (s : MemoryState K V C) (index : IndexId) :
    s.Unmarked (s.endRebuild index) := by
  unfold ServiceState.endRebuild
  obtain ⟨hmarks, hreaders, hwriter, hstates, events, hquiet, hjournal⟩ :=
    Unmarked.moveRegistry s index (s.registry.markFinished index)
  split
  · exact ⟨hmarks, hreaders, hwriter, hstates, events, hquiet, hjournal⟩
  · refine ⟨hmarks, hreaders, hwriter, hstates, .finishRefused index (s.registry.state index) ::
      events, ?_, by rw [journal_note, hjournal]; rfl⟩
    simp only [List.forall_mem_cons]
    exact ⟨rfl, hquiet⟩

end ServiceState

/-- A thread that holds the mark of a pair and no more, or has applied its update. -/
def MarkPlace.IsWriter (pair : WriteMark) (l : MarkPlace) : Prop :=
  l = .marked pair ∨ l = .applied pair

/-- An operation under its mark leaves the thread outside. -/
theorem markNeutral_withMark {α : Type} {pair : WriteMark} {a : ServiceAction (MemoryIndex K V) C α}
    (ha : a.program.Obeys MarkMove (fun _ l => l.IsWriter pair) (.marked pair)) :
    (Service.withMark pair a).Neutral MarkMove .outside := by
  refine Action.obeys_await_bind fun s hfree => ⟨_, .take (by simpa using hfree), ?_⟩
  exact Action.obeys_ensuring ha fun r l hl s => ⟨_, .release hl, rfl⟩

theorem markMove_locks (l : MarkPlace) (s : MemoryState K V C) (locks : IndexLocks) :
    MarkMove l s l { s with locks } := .unmarked (.of_eq rfl rfl rfl (fun _ => rfl) rfl)

/-- Setting an indexing state takes a thread through the coordination lock and back. -/
theorem markNeutral_setState {index : IndexId} {input : InputId}
    {change : MemoryIndex K V → MemoryIndex K V}
    (hchange : ∀ m other, other ≠ input → (change m).state other = m.state other) :
    (Service.withReadLock (Handle.onStore index (Action.update change) :
      ServiceAction (MemoryIndex K V) C Unit)).Neutral MarkMove (.applied ⟨index, input⟩) := by
  have hset : (Handle.onStore index (Action.update change) :
      ServiceAction (MemoryIndex K V) C Unit).Neutral MarkMove (.sharing ⟨index, input⟩) := by
    rw [Action.update, Handle.onStore_access]
    refine Action.obeys_access fun s => ⟨_, .set rfl rfl rfl fun other hother => ?_, rfl⟩
    rw [Handle.indexingState_onStore]
    split
    · next hindex =>
      have hinput : other.input ≠ input := by
        intro heq
        subst heq
        exact hother (by rw [hindex])
      rw [hchange _ _ hinput, indexingState, hindex]
    · rfl
  refine Action.obeys_await_bind fun s hcan => ⟨_, .share hcan, ?_⟩
  refine Action.obeys_ensuring hset ?_
  intro r l heq s
  subst heq
  exact ⟨_, .unshare, rfl⟩

section Conformance

open Service

variable {α : Type} [Std.TransOrd K] [BEq V] {config : Config} {indexers : IndexId → Indexer K V}

/-- What concerns neither marks nor the coordination lock leaves a thread at its place. -/
theorem markClass (config : Config) (indexers : IndexId → Indexer K V) (l : MarkPlace) :
    QuietClass (Environment.memory config indexers : Environment _ _ C) Unmarked
      fun {_} a => a.Neutral MarkMove l where
  toActionClass := .ofNeutral fun _ _ => .unmarked
  still _ _ h := h.unmarked
  request s index := .moveRegistry s index _
  oracle := rfl

/-- Preparing an update makes no access, and the update is for the pair it was prepared for. -/
theorem memory_prepare (index : IndexId) (input : InputId) (content : Option FileContent) :
    (Environment.memory config indexers : Environment _ _ C).handle.prepare index input content =
      Action.resume ((StoreHandle.mapped (indexers index) index input content).map
        fun data => ⟨index, input, data⟩) := by
  simp only [Environment.memory, Handle.ofStores, StoreHandle.memory]
  cases StoreHandle.mapped (indexers index) index input content <;> rfl

theorem memory_setIndexed (index : IndexId) (input : InputId) :
    (Environment.memory config indexers : Environment _ _ C).handle.setIndexed index input =
      Handle.onStore index (Action.update (·.setIndexed input)) := rfl

theorem memory_setUnindexed (index : IndexId) (input : InputId) :
    (Environment.memory config indexers : Environment _ _ C).handle.setUnindexed index input =
      Handle.onStore index (Action.update (·.setUnindexed input)) := rfl

theorem memory_apply (update : PreparedUpdate (Mapping K V)) :
    (Environment.memory config indexers : Environment _ _ C).handle.apply update =
      Handle.onStore update.index (Action.access fun m => m.replace update.input update.change) :=
  rfl

theorem memory_indexingState (index : IndexId) (input : InputId) :
    (Environment.memory config indexers : Environment _ _ C).handle.indexingState index input =
      Handle.onStore index (Action.read (·.state input)) := rfl

theorem memory_clear (index : IndexId) :
    (Environment.memory config indexers : Environment _ _ C).handle.clear index =
      Handle.onStore index (Action.update (·.dropData)) >>= fun _ =>
        Handle.onStore index (Action.update (·.dropStates)) := rfl

/-- Applying an update to a pair whose mark is held. -/
theorem obeys_applyUpdate_memory (origin : Origin) (update : PreparedUpdate (Mapping K V)) :
    ((Environment.memory config indexers : Environment _ _ C).applyUpdate origin
      update).program.Obeys MarkMove
        (fun _ l => l = .applied ⟨update.index, update.input⟩)
        (.marked ⟨update.index, update.input⟩) := by
  refine Action.obeys_access_bind fun s => ⟨_, .unmarked (.note s rfl), ?_⟩
  refine Action.obeys_outcome_bind (fun _ l => l = .marked ⟨update.index, update.input⟩) ?_ ?_
  · rw [memory_apply, Handle.onStore_access]
    refine Action.obeys_access fun s => ⟨_, .unmarked ?_, rfl⟩
    refine .of_eq rfl rfl rfl (fun pair => ?_) rfl
    rw [Handle.indexingState_onStore, MemoryIndex.state_replace]
    split
    · next hindex => rw [indexingState, hindex]
    · rfl
  · intro r l heq
    subst heq
    exact Action.obeys_access_bind fun s => ⟨_, .apply, Action.obeys_resume rfl⟩

/-- An operation whose update has been prepared. -/
theorem obeys_carryOut_memory (op : Operation) (data : Mapping K V) :
    ((Environment.memory config indexers : Environment _ _ C).carryOut op
      ⟨op.index, op.input, data⟩).program.Obeys MarkMove
        (fun _ l => l.IsWriter op.mark) (.marked op.mark) := by
  have hP := markClass (C := C) config indexers
  have hrun : ((Environment.memory config indexers : Environment _ _ C).runUpdateUnless .operation
      ⟨op.index, op.input, data⟩ (Environment.memory config indexers).isGated).program.Obeys
        MarkMove (fun r l => l.IsWriter op.mark ∧ ∀ changed, r = .ok (some changed) →
          l = .applied op.mark) (.marked op.mark) := by
    refine obeys_withIndexLock markMove_locks ?_
    refine Action.Neutral.obeys_bind ((hP (.marked op.mark)).calls.mem_isGated op.index)
      (fun gated => ?_) fun _ => ⟨.inl rfl, by simp⟩
    split
    · exact Action.obeys_pure ⟨.inl rfl, by simp⟩
    · exact Action.obeys_map ((obeys_applyUpdate_memory .operation _).mono
        fun _ _ hl => ⟨.inr hl, fun _ _ => hl⟩)
  have hset : ((Environment.memory config indexers : Environment _ _ C).setState op).Neutral
      MarkMove (.applied op.mark) := by
    unfold Environment.setState
    rw [memory_setUnindexed, memory_setIndexed]
    split
    · refine markNeutral_setState fun m other hother => ?_
      rw [MemoryIndex.state_setUnindexed, if_neg (Ne.symm hother)]
    · refine markNeutral_setState fun m other hother => ?_
      rw [MemoryIndex.state_setIndexed, if_neg (Ne.symm hother)]
  refine Action.obeys_bind _ hrun ?_ fun _ _ hl => hl.1
  intro r l hend
  obtain ⟨hwriter, happlied⟩ := hend
  rcases r with _ | changed
  · exact ((hP l).bind ((hP l).mem_log _) fun _ => (hP l).pure _).mono fun _ _ hl => hl ▸ hwriter
  · obtain rfl := happlied changed rfl
    have hQ := hP (.applied op.mark)
    have hstate := hQ.bind hset fun _ => hQ.pure (Outcome.applied changed)
    refine (show Action.Neutral MarkMove (.applied op.mark) _ from ?_).mono fun _ _ hl => .inr hl
    dsimp only
    split
    · split
      · exact hQ.bind (hQ.mem_log _) fun _ => hstate
      · exact hstate
    · exact hQ.pure _

/-- Preparing an update leaves a thread at its place, and the update is what the content was mapped
to. -/
theorem obeys_result_prepare {L : Type}
    {move : L → MemoryState K V C → L → MemoryState K V C → Prop} (index : IndexId)
    (input : InputId) (content : Option FileContent) (l : L) :
    ((Environment.memory config indexers : Environment _ _ C).handle.prepare index input
      content).result.program.Obeys move
        (fun r l' => l' = l ∧ ∀ update, r = .ok (.ok update) →
          update.index = index ∧ update.input = input ∧
            StoreHandle.mapped (indexers index) index input content = .ok update.change) l := by
  rw [memory_prepare]
  cases StoreHandle.mapped (indexers index) index input content with
  | ok data => exact Action.obeys_pure ⟨rfl, fun _ hr => by cases hr; exact ⟨rfl, rfl, rfl⟩⟩
  | error failure =>
    cases failure with
    | error cause => exact Action.obeys_pure ⟨rfl, by simp⟩
    | panic payload => exact Action.obeys_fail ⟨rfl, by simp⟩

/-- So does preparing an update for an operation, where a thread that counts stays at its place. -/
theorem obeys_prepareTimed {L : Type}
    {move : L → MemoryState K V C → L → MemoryState K V C → Prop} {l : L}
    (hcount : ∀ f, (count f : ServiceAction (MemoryIndex K V) C Unit).Neutral move l)
    (op : Operation) :
    ((Environment.memory config indexers : Environment _ _ C).prepareTimed op.index op.input
      op.task.content?).program.Obeys move
        (fun r l' => l' = l ∧ ∀ update, r = .ok (.ok update) →
          update.index = op.index ∧ update.input = op.input ∧
            StoreHandle.mapped (indexers op.index) op.index op.input op.task.content? =
              .ok update.change) l := by
  refine Action.obeys_bind _ (obeys_result_prepare op.index op.input op.task.content? l) ?_ ?_
  · intro prepared l' hend
    obtain ⟨rfl, hprepared⟩ := hend
    refine (hcount _).obeys_bind (fun _ => ?_) fun _ => ⟨rfl, by simp⟩
    refine (hcount _).obeys_bind (fun _ => ?_) fun _ => ⟨rfl, by simp⟩
    exact Action.obeys_pure ⟨rfl, by simpa using hprepared⟩
  · intro failure l' hend
    obtain ⟨rfl, -⟩ := hend
    exact ⟨rfl, by simp⟩

theorem obeys_attempt_memory (op : Operation) :
    ((Environment.memory config indexers : Environment _ _ C).attempt op).program.Obeys MarkMove
      (fun _ l => l.IsWriter op.mark) (.marked op.mark) := by
  have hP := markClass (C := C) config indexers (.marked op.mark)
  refine Action.obeys_bind _ (obeys_prepareTimed hP.calls.count op) ?_ ?_
  · intro r l hend
    obtain ⟨rfl, hupdate⟩ := hend
    rcases r with cause | ⟨index, input, data⟩
    · have hmapping : ∀ failure, (do
          notify ⟨op.input, op.file, op.index, failure⟩
          pure (Outcome.mappingFailed failure) : ServiceAction (MemoryIndex K V) C _).Neutral
            MarkMove (.marked op.mark) := fun failure =>
        hP.bind (hP.calls.mem_notify _) fun _ => hP.pure _
      cases cause with
      | mapping failure => exact (hmapping failure).mono fun _ _ hl => .inl hl
      | _ => exact Action.obeys_fail (.inl rfl)
    · obtain ⟨rfl, rfl, -⟩ := hupdate _ rfl
      exact obeys_carryOut_memory op data
  · intro failure l hend
    obtain ⟨rfl, -⟩ := hend
    exact .inl rfl

/-- An operation leaves its thread outside. -/
theorem markNeutral_execute (op : Operation) :
    ((Environment.memory config indexers : Environment _ _ C).execute op).Neutral MarkMove
      .outside := by
  have hP := markClass (C := C) config indexers
  have hmarked : ((Environment.memory config indexers : Environment _ _ C).executeMarked
      op).program.Obeys MarkMove (fun _ l => l.IsWriter op.mark) (.marked op.mark) := by
    refine Action.obeys_bind (fun _ l => l.IsWriter op.mark)
      (Action.obeys_caught (obeys_attempt_memory op)) ?_ fun _ _ hl => hl
    intro r l hl
    have hrecorded : ∀ outcome, (recorded outcome : ServiceAction (MemoryIndex K V) C _).Neutral
        MarkMove l := fun outcome => (hP l).calls.mem_recorded outcome
    refine Program.Obeys.mono (?_ : Action.Neutral MarkMove l _) fun _ _ heq => heq ▸ hl
    rcases r with cause | outcome
    · exact (hP l).bind ((hP l).calls.mem_requestRebuildOnError cause op.index) fun _ =>
        hrecorded _
    · exact hrecorded outcome
  exact (hP .outside).calls.mem_execute
    (fun _ => Action.obeys_access fun s => ⟨_, .complete rfl, rfl⟩) (markNeutral_withMark hmarked)

/-- What a session does with a file while it holds the mark. -/
theorem obeys_indexMarked_memory (index : IndexId) (input : InputId) (content : FileContent) :
    ((Environment.memory config indexers : Environment _ _ C).indexMarked index input
      content).program.Obeys MarkMove (fun _ l => l.IsWriter ⟨index, input⟩)
        (.marked ⟨index, input⟩) := by
  have hP := markClass (C := C) config indexers
  refine Action.obeys_bind _ (obeys_result_prepare index input (some content) _) ?_ ?_
  · intro r l hend
    obtain ⟨rfl, hupdate⟩ := hend
    rcases r with cause | ⟨i, x, data⟩
    · have hQ := hP (.marked ⟨index, input⟩)
      have hmapping : ∀ failure, (do
          notify ⟨input, some content.file, index, failure⟩
          pure false : ServiceAction (MemoryIndex K V) C _).Neutral
            MarkMove (.marked ⟨index, input⟩) := fun failure =>
        hQ.bind (hQ.calls.mem_notify _) fun _ => hQ.pure _
      cases cause with
      | mapping failure => exact (hmapping failure).mono fun _ _ hl => .inl hl
      | _ => exact Action.obeys_fail (.inl rfl)
    · obtain ⟨rfl, rfl, -⟩ := hupdate _ rfl
      have hset : (withReadLock ((Environment.memory config indexers :
          Environment _ _ C).handle.setIndexed i x)).Neutral MarkMove (.applied ⟨i, x⟩) := by
        rw [memory_setIndexed]
        refine markNeutral_setState fun m other hother => ?_
        rw [MemoryIndex.state_setIndexed, if_neg (Ne.symm hother)]
      refine Action.obeys_bind _
        (obeys_withIndexLock markMove_locks (obeys_applyUpdate_memory .rebuild ⟨i, x, data⟩)) ?_
        fun _ _ hl => .inr hl
      intro changed l heq
      subst heq
      exact ((hP _).bind hset fun _ => (hP _).pure changed).mono fun _ _ hl => .inr hl
  · intro failure l hend
    obtain ⟨rfl, -⟩ := hend
    exact .inl rfl

/-- Putting a file back leaves its thread outside. -/
theorem markNeutral_indexFile (index : IndexId) (input : InputId) (content : FileContent) :
    ((Environment.memory config indexers : Environment _ _ C).indexFile index input
      content).Neutral MarkMove .outside :=
  (markClass config indexers .outside).calls.mem_indexFile
    (fun _ => Action.obeys_access fun _ => ⟨_, .complete rfl, rfl⟩)
    (markNeutral_withMark (obeys_indexMarked_memory index input content))

/-- Looking at an indexing state leaves a thread outside. -/
theorem markNeutral_indexingState (index : IndexId) (input : InputId) :
    ((Environment.memory config indexers : Environment _ _ C).indexingState index input).Neutral
      MarkMove .outside := by
  have hP := markClass (C := C) config indexers
  have hlook : ((Environment.memory config indexers : Environment _ _ C).handle.indexingState index
      input).Neutral MarkMove .looking := by
    rw [memory_indexingState, Action.read, Handle.onStore_access]
    refine Action.obeys_access fun s => ⟨_, .unmarked ?_, rfl⟩
    refine .of_eq rfl rfl rfl (fun pair => ?_) rfl
    rw [Handle.indexingState_onStore]
    split
    · next hindex => rw [indexingState, hindex]
    · rfl
  refine (hP .outside).bind ((hP .outside).calls.registered index) fun registered => ?_
  split
  · refine (hP .outside).map _ ?_
    refine Action.obeys_await_bind fun s hcan => ⟨_, .look hcan, ?_⟩
    refine Action.obeys_ensuring hlook ?_
    intro r l heq s
    subst heq
    exact ⟨_, .unlook, rfl⟩
  · exact (hP .outside).pure _

/-- Clearing an index first drops its data and its indexing states, and then tells so. -/
theorem markNeutral_clearIndex (index : IndexId) :
    ((Environment.memory config indexers : Environment _ _ C).clearIndex index).Neutral
      MarkMove .alone := by
  refine Action.obeys_access_bind fun s => ⟨_, .unmarked (.note s rfl), ?_⟩
  refine Action.obeys_outcome_bind (fun _ l => l = .dropped index) ?_ ?_
  · rw [memory_clear, Action.update, Action.update, Handle.onStore_access, Handle.onStore_access]
    refine Action.obeys_access_bind fun s => ⟨_, .unmarked ?_, ?_⟩
    · refine .of_eq rfl rfl rfl (fun pair => ?_) rfl
      rw [Handle.indexingState_onStore]
      split
      · next hindex => rw [indexingState, hindex]; rfl
      · rfl
    · refine Action.obeys_access fun s => ⟨_, .drop rfl rfl rfl ?_ ?_, rfl⟩
      · intro pair hindex
        rw [Handle.indexingState_onStore, if_pos hindex.symm, MemoryIndex.state_dropStates]
      · intro pair hindex
        rw [Handle.indexingState_onStore, if_neg (Ne.symm hindex)]
  · intro r l heq
    subst heq
    exact Action.obeys_access_bind fun s => ⟨_, .clear, Action.obeys_resume rfl⟩

/-- A rebuild claims its index and clears it while it holds the coordination lock alone. -/
theorem markNeutral_claimAndClear (index : IndexId) :
    ((Environment.memory config indexers : Environment _ _ C).claimAndClear index).Neutral
      MarkMove .outside := by
  have hQ := markClass (C := C) config indexers .outside
  have hstructural : (withStructuralLock
      ((Environment.memory config indexers : Environment _ _ C).clearIndex index)).Neutral MarkMove
        .outside := by
    refine Action.obeys_access_bind fun s => ⟨.outside, .unmarked ?_, ?_⟩
    · exact .of_eq rfl rfl rfl (fun _ => rfl) rfl
    refine Action.obeys_await_bind fun s hcan => ⟨_, .hold hcan, ?_⟩
    refine Action.obeys_ensuring (markNeutral_clearIndex index) ?_
    intro r l heq s
    subst heq
    exact ⟨_, .unhold, rfl⟩
  have hstart := hQ.mem_start (hQ.access fun s => .moveRegistry s index _)
  refine hQ.calls.mem_claimAndClear (obeys_withIndexLock markMove_locks) hstart
    (hQ.access fun s => ?_) hstructural
  exact ⟨rfl, rfl, rfl, fun _ => rfl, [.rebuildBegan index s.runs], by simp; rfl, rfl⟩

/-- A rebuild leaves its thread outside, if putting the files back does. -/
theorem markNeutral_rebuildIndex (index : IndexId)
    {repopulate : ServiceAction (MemoryIndex K V) C Unit}
    (hrepopulate : repopulate.Neutral MarkMove .outside) :
    ((Environment.memory config indexers : Environment _ _ C).rebuildIndex index
      repopulate).Neutral MarkMove .outside := by
  have hQ := markClass (C := C) config indexers .outside
  exact hQ.calls.mem_rebuildIndex (markNeutral_claimAndClear index)
    (hQ.mem_finish (hQ.access fun s => .endRebuild s index))
    (fun _ _ => hQ.update fun s => .note s rfl) hrepopulate

/-- Every command keeps to the protocol of the marks. -/
theorem markNeutral_runAll (commands : List Command) :
    (Command.runAll (Environment.memory config indexers : Environment _ _ C) none
      commands).Neutral MarkMove .outside := by
  have hQ := markClass (C := C) config indexers .outside
  have hcommands : CommandClass (Environment.memory config indexers : Environment _ _ C)
      (fun _ => True) Unmarked fun {_} a => a.Neutral MarkMove .outside := {
    hQ.toActionClass with
    still := hQ.still
    execute := markNeutral_execute
    request := hQ.calls.request
    rebuild := fun index _ => markNeutral_rebuildIndex index
    indexFile := markNeutral_indexFile
    indexingState := markNeutral_indexingState }
  exact hcommands.mem_runAll none commands
    (Command.rebuildsOnlyAll_of_forall (fun _ => trivial) commands)

end Conformance

/-! ## All interleavings -/

/-- Along every interleaving of threads that execute operations on indices in memory, request
rebuilds and rebuild indices, an input that is marked as up to date was applied to after the last
clear of its index, unless that clear met the writer of the last application under way; and in that
case it was not. -/
theorem appliedSinceClear_iff [Std.TransOrd K] [BEq V] (config : Config)
    (indexers : IndexId → Indexer K V) (s : MemoryState K V C) (hs : s.AtRest)
    (hfresh : ∀ pair, s.indexingState pair = .notIndexed) (commands : List (List Command))
    (h : Trace) (q : Pool (MemoryState K V C) (Except Failure Unit))
    (htrace : ((Environment.memory config indexers).threads s commands).Traced h q)
    (pair : WriteMark) (hmarked : q.state.indexingState pair = .upToDate) :
    appliedSinceClear pair h = true ↔ clearedUnderWay pair h = false := by
  have hobeys : ((Environment.memory config indexers).threads s commands).Obeys
      (fun _ => MarkMove) (fun _ _ l => l = .outside) (fun _ => .outside) := by
    intro i t ht
    obtain ⟨list, -, rfl⟩ := List.mem_map.1 (List.mem_of_getElem? ht)
    exact markNeutral_runAll list
  obtain ⟨place, hinv, -⟩ := Pool.Traced.invariant MarkInvariant hobeys
    (markInvariant_nil hs hfresh) (fun _ _ hinv hmove => hinv.step hmove) htrace
  have haccounted := hinv.accounts.upToDate pair hmarked
  constructor
  · intro happlied
    cases hmet : clearedUnderWay pair h with
    | false => rfl
    | true => simp [appliedSinceClear_of_clearedUnderWay hmet] at happlied
  · intro hnot
    rcases haccounted with happlied | hmet
    · exact happlied
    · simp [hnot] at hmet

namespace Sample

/-- One thread updates a file while another one requests a rebuild and carries it out. -/
def updating : List (List Command) :=
  [[.execute (.update sizes (content 3) ⟨1⟩ .synchronous)],
    [.request sizes ⟨"damage"⟩, .rebuild sizes []]]

/-- The file that is updated. -/
def file : WriteMark := ⟨sizes, ⟨1⟩⟩

theorem indexingState_state (pair : WriteMark) : state.indexingState pair = .notIndexed := by
  simp only [ServiceState.indexingState, state, ServiceState.ofStores,
    Std.ExtTreeMap.getElem?_insert]
  split <;> simp [MemoryIndex.state, MemoryIndex.empty, default]

end Sample

/-- A file is updated after a rebuild, and then its mark stands for data that are there. -/
theorem appliedSinceClear_iff_updating :
    ∃ (h : Trace) (q : Pool (MemoryState Nat Nat Unit) (Except Failure Unit)),
      (Sample.environment.threads Sample.state Sample.updating).Traced h q ∧
        q.state.indexingState Sample.file = .upToDate ∧
        appliedSinceClear Sample.file h = true := by
  obtain ⟨x, hx⟩ : ∃ x, (Sample.environment.threads Sample.state Sample.updating).watch
      (List.replicate 40 1 ++ List.replicate 40 0) = x := ⟨_, rfl⟩
  have htrace := Pool.traced_watch (Sample.environment.threads Sample.state Sample.updating)
    (List.replicate 40 1 ++ List.replicate 40 0)
  rw [hx] at htrace
  have hmarked : x.2.state.indexingState Sample.file = .upToDate := by
    rw [← hx]
    decide +kernel
  have hmet : clearedUnderWay Sample.file x.1 = false := by
    rw [← hx]
    decide +kernel
  have hiff := appliedSinceClear_iff .standard _ Sample.state (atRest_ofStores _ _ _ _)
    Sample.indexingState_state Sample.updating x.1 x.2 htrace Sample.file hmarked
  exact ⟨x.1, x.2, htrace, hmarked, hiff.2 hmet⟩

/-- A clear falls between the application of an update and the marking of its file: in the end the
file is marked as up to date although the index holds nothing of it. -/
theorem appliedSinceClear_fails :
    ∃ (h : Trace) (q : Pool (MemoryState Nat Nat Unit) (Except Failure Unit)),
      (Sample.environment.threads Sample.state Sample.updating).Traced h q ∧
        q.state.marks.isMarked Sample.file = false ∧
        q.state.indexingState Sample.file = .upToDate ∧
        appliedSinceClear Sample.file h = false :=
  ⟨_, _, Pool.traced_watch _
    (List.replicate 15 0 ++ List.replicate 40 1 ++ List.replicate 40 0),
    by decide +kernel, by decide +kernel, by decide +kernel⟩

end FileIndexing
