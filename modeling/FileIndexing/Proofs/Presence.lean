import FileIndexing.Proofs.Removal

/-!
# Stored data count as indexed

The data of an index in memory and its indexing states are two maps that change one after the
other.  A writer applies its update under the lock of the index and notes the indexing state later,
and a rebuild drops the data before the indexing states.  In between an input may have data without
being up to date.  This module shows that it never has otherwise.

* `PresencePlace` and `PresenceMove` are the protocol of a thread with regard to marks, data and
  indexing states: what the holder of a mark has still to note is part of its place.
* `PresenceInvariant` says that for every input that has data and is not up to date some thread has
  still to note that it is, also while a rebuild has dropped the data of the index and not yet its
  indexing states.
* `upToDate_of_stored` is the result: an input whose mark nobody holds is up to date if it has data.
-/

namespace FileIndexing

open ServiceState

variable {K V C : Type} [Ord K]

/-! ## The protocol of data and indexing states -/

/-- How far a thread has come as a writer of a pair, or with the coordination lock. -/
inductive PresencePlace where
  | outside
  /-- Shares the coordination lock to look at indexing states. -/
  | looking
  /-- Holds the mark of a pair and perhaps shares the coordination lock.  After a change of the data
  of the pair, an indexing state has still to be noted. -/
  | writing (pair : WriteMark) (owed : Option IndexingState) (shares : Bool)
  /-- Holds the coordination lock alone. -/
  | alone
  /-- Holds the coordination lock alone and has dropped the data of an index, but not its indexing
  states. -/
  | emptied (index : IndexId)

namespace PresencePlace

/-- The place with regard to marks and the coordination lock only. -/
def markPlace : PresencePlace → MarkPlace
  | .outside => .outside
  | .looking => .looking
  | .writing pair _ false => .marked pair
  | .writing pair _ true => .sharing pair
  | .alone => .alone
  | .emptied index => .dropped index

/-- The pair for which a thread has still to note an indexing state, and that state. -/
def owes? : PresencePlace → Option (WriteMark × IndexingState)
  | .writing pair (some state) _ => some (pair, state)
  | _ => none

@[simp] theorem owes?_sharing (pair : WriteMark) (owed : Option IndexingState) :
    (writing pair owed true).owes? = (writing pair owed false).owes? := by
  cases owed <;> rfl

theorem mark?_of_owes? {l : PresencePlace} {pair : WriteMark} {state : IndexingState}
    (h : l.owes? = some (pair, state)) : l.markPlace.mark? = some pair := by
  cases l with
  | writing other owed shares =>
    cases owed <;> cases shares <;> simp_all [owes?, markPlace, MarkPlace.mark?]
  | _ => simp [owes?] at h

end PresencePlace

/-- The later state differs from the earlier one in nothing that concerns marks, data or indexing
states. -/
structure ServiceState.Steady (s t : MemoryState K V C) : Prop where
  marks : t.marks = s.marks
  readers : t.coordination.readers = s.coordination.readers
  writer : t.coordination.writer = s.coordination.writer
  stored : ∀ pair, t.forward? pair = s.forward? pair
  states : ∀ pair, t.indexingState pair = s.indexingState pair

/-- What a thread does by one access, as far as it concerns marks, data and indexing states. -/
inductive PresenceMove :
    PresencePlace → MemoryState K V C → PresencePlace → MemoryState K V C → Prop where
  | steady {l s t} : s.Steady t → PresenceMove l s l t
  | take {s pair} : s.marks.isMarked pair = false →
    PresenceMove .outside s (.writing pair none false) { s with marks := s.marks.take pair }
  | store {s t : MemoryState K V C} {pair : WriteMark} {state : IndexingState} :
    t.marks = s.marks → t.coordination = s.coordination →
    (∀ other, t.indexingState other = s.indexingState other) →
    (∀ other, other ≠ pair → t.forward? other = s.forward? other) →
    (state = .notIndexed → t.forward? pair = none) →
    PresenceMove (.writing pair none false) s (.writing pair (some state) false) t
  | share {s pair owed} : s.coordination.canShare = true →
    PresenceMove (.writing pair owed false) s (.writing pair owed true)
      { s with coordination := s.coordination.share }
  | settle {s t : MemoryState K V C} {pair : WriteMark} {owed : Option IndexingState} :
    t.marks = s.marks → t.coordination = s.coordination →
    (∀ other, t.forward? other = s.forward? other) →
    (∀ other, other ≠ pair → t.indexingState other = s.indexingState other) →
    t.indexingState pair = .upToDate ∨ owed = some .notIndexed →
    PresenceMove (.writing pair owed true) s (.writing pair none true) t
  | unshare {s pair owed} :
    PresenceMove (.writing pair owed true) s (.writing pair owed false)
      { s with coordination := s.coordination.unshare }
  | release {s pair} :
    PresenceMove (.writing pair none false) s .outside { s with marks := s.marks.release pair }
  | look {s} : s.coordination.canShare = true →
    PresenceMove .outside s .looking { s with coordination := s.coordination.share }
  | unlook {s} :
    PresenceMove .looking s .outside { s with coordination := s.coordination.unshare }
  | hold {s} : s.coordination.canHold = true →
    PresenceMove .outside s .alone { s with coordination := s.coordination.hold }
  | empty {s t : MemoryState K V C} {index : IndexId} : t.marks = s.marks →
    t.coordination = s.coordination → (∀ pair, t.indexingState pair = s.indexingState pair) →
    (∀ pair, pair.index = index → t.forward? pair = none) →
    (∀ pair, pair.index ≠ index → t.forward? pair = s.forward? pair) →
    PresenceMove .alone s (.emptied index) t
  | forget {s t : MemoryState K V C} {index : IndexId} : t.marks = s.marks →
    t.coordination = s.coordination → (∀ pair, t.forward? pair = s.forward? pair) →
    (∀ pair, pair.index ≠ index → t.indexingState pair = s.indexingState pair) →
    PresenceMove (.emptied index) s .alone t
  | unhold {s} :
    PresenceMove .alone s .outside { s with coordination := s.coordination.unhold }

/-! ## The invariant -/

/-- Some thread has still to note that a pair is up to date. -/
def Owed (place : Nat → PresencePlace) (pair : WriteMark) : Prop :=
  ∃ t, (place t).owes? = some (pair, .upToDate)

/-- Data that are stored without being up to date are owed the note. -/
structure Presence (s : MemoryState K V C) (place : Nat → PresencePlace) : Prop where
  stored : ∀ pair, s.forward? pair ≠ none → s.indexingState pair = .upToDate ∨ Owed place pair
  removed : ∀ t pair, (place t).owes? = some (pair, .notIndexed) → s.forward? pair = none
  emptied : ∀ t index, place t = .emptied index → ∀ pair, pair.index = index →
    s.forward? pair ≠ none → Owed place pair

/-- How the marks, the coordination lock, the data and the indexing states hang together with the
places of the threads. -/
structure PresenceInvariant (s : MemoryState K V C) (place : Nat → PresencePlace) : Prop where
  marks : MarksHeld s.marks (MarkPlace.mark? ∘ PresencePlace.markPlace ∘ place)
  coordination : Coordinated s (PresencePlace.markPlace ∘ place)
  presence : Presence s place

theorem presenceInvariant_outside {s : MemoryState K V C} (hs : s.AtRest)
    (hstored : ∀ pair, s.forward? pair ≠ none → s.indexingState pair = .upToDate) :
    PresenceInvariant s fun _ => .outside where
  marks := .of_none fun _ => rfl
  coordination := .of_atRest hs
  presence := ⟨fun pair h => .inl (hstored pair h), by simp [PresencePlace.owes?], by simp⟩

section Steps

variable {s s' : MemoryState K V C} {place : Nat → PresencePlace} {t : Nat} {l : PresencePlace}
  {pair : WriteMark}

/-- What is owed stays so while the thread that owes it does not settle it. -/
theorem Owed.update (h : Owed place pair)
    (hl : (place t).owes? = some (pair, .upToDate) → l.owes? = some (pair, .upToDate)) :
    Owed (Function.update place t l) pair := by
  obtain ⟨u, hu⟩ := h
  refine ⟨u, ?_⟩
  rw [Function.update_apply]
  split
  · next hut => exact hl (hut ▸ hu)
  · exact hu

namespace Presence

/-- An access that changes neither data nor indexing states, by a thread that owes the same as
before. -/
theorem of_same (hinv : Presence s place) (hstored : ∀ pair, s'.forward? pair = s.forward? pair)
    (hstates : ∀ pair, s'.indexingState pair = s.indexingState pair)
    (howes : l.owes? = (place t).owes?)
    (hemptied : ∀ index, l = .emptied index → place t = .emptied index) :
    Presence s' (Function.update place t l) where
  stored pair h := by
    rw [hstored] at h
    rw [hstates]
    exact (hinv.stored pair h).imp_right fun howed => howed.update fun h => howes.trans h
  removed u pair h := by
    rw [hstored]
    refine hinv.removed u pair ?_
    grind [Function.update_apply]
  emptied u index h pair hindex hpair := by
    rw [hstored] at hpair
    have hu : place u = .emptied index := by grind [Function.update_apply]
    exact (hinv.emptied u index hu pair hindex hpair).update fun h => howes.trans h

/-- The thread that holds the mark of a pair changes its data and has to note the indexing state
that goes with them. -/
theorem store (hinv : Presence s place)
    (hmarks : MarksHeld s.marks (MarkPlace.mark? ∘ PresencePlace.markPlace ∘ place))
    (hplace : place t = .writing pair none false) {state : IndexingState}
    (hstates : ∀ other, s'.indexingState other = s.indexingState other)
    (hothers : ∀ other, other ≠ pair → s'.forward? other = s.forward? other)
    (hnone : state = .notIndexed → s'.forward? pair = none) :
    Presence s' (Function.update place t (.writing pair (some state) false)) := by
  have hkept : ∀ {other}, Owed place other →
      Owed (Function.update place t (.writing pair (some state) false)) other := fun howed =>
    howed.update fun h => by simp [hplace, PresencePlace.owes?] at h
  have hown : s'.forward? pair ≠ none →
      Owed (Function.update place t (.writing pair (some state) false)) pair := by
    intro h
    refine ⟨t, ?_⟩
    cases state with
    | notIndexed => exact absurd (hnone rfl) h
    | upToDate => simp [PresencePlace.owes?]
  constructor
  · intro other h
    by_cases hother : other = pair
    · subst hother
      exact .inr (hown h)
    · rw [hothers other hother] at h
      rw [hstates]
      exact (hinv.stored other h).imp_right hkept
  · intro u other h
    rw [Function.update_apply] at h
    split at h
    · obtain ⟨rfl, rfl⟩ : pair = other ∧ state = .notIndexed := by
        simpa [PresencePlace.owes?] using h
      exact hnone rfl
    · next hut =>
      -- another thread that owes the pair would hold its mark
      have hne : other ≠ pair := by
        intro heq
        subst heq
        refine hut (hmarks.sole u t other (PresencePlace.mark?_of_owes? h) ?_)
        simp [hplace, PresencePlace.markPlace, MarkPlace.mark?]
      rw [hothers other hne]
      exact hinv.removed u other h
  · intro u index hu other hindex h
    have hu : place u = .emptied index := by grind [Function.update_apply]
    by_cases hother : other = pair
    · subst hother
      exact hown h
    · rw [hothers other hother] at h
      exact hkept (hinv.emptied u index hu other hindex h)

/-- A thread that shares the coordination lock notes the indexing state of its pair. -/
theorem settle (hinv : Presence s place)
    (hcoordination : Coordinated s (PresencePlace.markPlace ∘ place))
    {owed : Option IndexingState} (hplace : place t = .writing pair owed true)
    (hstored : ∀ other, s'.forward? other = s.forward? other)
    (hstates : ∀ other, other ≠ pair → s'.indexingState other = s.indexingState other)
    (hpair : s'.indexingState pair = .upToDate ∨ owed = some .notIndexed) :
    Presence s' (Function.update place t (.writing pair none true)) := by
  constructor
  · intro other h
    rw [hstored] at h
    by_cases hother : other = pair
    · subst hother
      refine .inl (hpair.resolve_right fun howed => h (hinv.removed t other ?_))
      simp [hplace, howed, PresencePlace.owes?]
    · rw [hstates other hother]
      refine (hinv.stored other h).imp_right fun hkept => hkept.update fun ht => ?_
      cases owed <;> simp_all [PresencePlace.owes?]
  · intro u other h
    rw [hstored]
    refine hinv.removed u other ?_
    grind [Function.update_apply, PresencePlace.owes?]
  · intro u index hu
    -- nobody holds the coordination lock alone while it is shared
    have hu : place u = .emptied index := by grind [Function.update_apply]
    have := hcoordination.exclusive u t (by simp [hu, PresencePlace.markPlace, MarkPlace.excludes])
    simp [hplace, PresencePlace.markPlace, MarkPlace.shares] at this

/-- A thread that holds the coordination lock alone drops the data of an index. -/
theorem empty (hinv : Presence s place) (hplace : place t = .alone) {index : IndexId}
    (hstates : ∀ other, s'.indexingState other = s.indexingState other)
    (hemptied : ∀ other : WriteMark, other.index = index → s'.forward? other = none)
    (hothers : ∀ other : WriteMark, other.index ≠ index →
      s'.forward? other = s.forward? other) :
    Presence s' (Function.update place t (.emptied index)) := by
  have hbefore : ∀ {other : WriteMark}, s'.forward? other ≠ none → s.forward? other ≠ none := by
    intro other h
    by_cases hindex : other.index = index
    · exact absurd (hemptied other hindex) h
    · rwa [hothers other hindex] at h
  have hkept : ∀ {other}, Owed place other →
      Owed (Function.update place t (.emptied index)) other := fun howed =>
    howed.update fun h => by simp [hplace, PresencePlace.owes?] at h
  constructor
  · intro other h
    rw [hstates]
    exact (hinv.stored other (hbefore h)).imp_right hkept
  · intro u other h
    have hold := hinv.removed u other (by grind [Function.update_apply, PresencePlace.owes?])
    by_contra h'
    exact hbefore h' hold
  · intro u i hu other hindex h
    rw [Function.update_apply] at hu
    split at hu
    · obtain rfl : index = i := by simpa using hu
      exact absurd (hemptied other hindex) h
    · exact hkept (hinv.emptied u i hu other hindex (hbefore h))

/-- A thread that has dropped the data of an index drops its indexing states. -/
theorem forget (hinv : Presence s place) {index : IndexId} (hplace : place t = .emptied index)
    (hstored : ∀ other, s'.forward? other = s.forward? other)
    (hothers : ∀ other : WriteMark, other.index ≠ index →
      s'.indexingState other = s.indexingState other) :
    Presence s' (Function.update place t .alone) := by
  have hkept : ∀ {other}, Owed place other → Owed (Function.update place t .alone) other :=
    fun howed => howed.update fun h => by simp [hplace, PresencePlace.owes?] at h
  constructor
  · intro other h
    rw [hstored] at h
    by_cases hindex : other.index = index
    · exact .inr (hkept (hinv.emptied t index hplace other hindex h))
    · rw [hothers other hindex]
      exact (hinv.stored other h).imp_right hkept
  · intro u other h
    rw [hstored]
    refine hinv.removed u other ?_
    grind [Function.update_apply, PresencePlace.owes?]
  · intro u i hu other hindex h
    rw [hstored] at h
    have hu : place u = .emptied i := by grind [Function.update_apply]
    exact hkept (hinv.emptied u i hu other hindex h)

end Presence

/-! ### All moves -/

/-- Every move of a thread keeps the invariant. -/
theorem PresenceInvariant.step (hinv : PresenceInvariant s place)
    (hmove : PresenceMove (place t) s l s') :
    PresenceInvariant s' (Function.update place t l) := by
  obtain ⟨hmarks, hcoordination, hpresence⟩ := hinv
  suffices h : MarksHeld s'.marks (MarkPlace.mark? ∘
        Function.update (PresencePlace.markPlace ∘ place) t l.markPlace) ∧
      Coordinated s' (Function.update (PresencePlace.markPlace ∘ place) t l.markPlace) ∧
      Presence s' (Function.update place t l) by
    rw [← Function.comp_update] at h
    exact ⟨h.1, h.2.1, h.2.2⟩
  have hcomp : (PresencePlace.markPlace ∘ place) t = (place t).markPlace := rfl
  generalize hplace : place t = l₀ at hmove hcomp
  cases hmove with
  | steady h =>
    exact ⟨hmarks.of_same h.marks (by rw [hcomp]),
      hcoordination.of_same h.readers h.writer (by rw [hcomp]) (by rw [hcomp]),
      hpresence.of_same h.stored h.states (by rw [hplace]) fun _ hl => hplace.trans hl⟩
  | take hfree =>
    exact ⟨hmarks.take_place hfree rfl,
      hcoordination.of_same rfl rfl (by rw [hcomp]; rfl) (by rw [hcomp]; rfl),
      hpresence.of_same (fun _ => rfl) (fun _ => rfl) (by rw [hplace]; rfl) (by simp)⟩
  | store hm hc hstates hothers hnone =>
    exact ⟨hmarks.of_same hm (by rw [hcomp]; rfl),
      hcoordination.of_same (congrArg _ hc) (congrArg _ hc) (by rw [hcomp]; rfl)
        (by rw [hcomp]; rfl),
      hpresence.store hmarks hplace hstates hothers hnone⟩
  | share hcan =>
    exact ⟨hmarks.of_same rfl (by rw [hcomp]; rfl),
      hcoordination.share hcan rfl rfl rfl (by rw [hcomp]; rfl),
      hpresence.of_same (fun _ => rfl) (fun _ => rfl)
        (by rw [hplace, PresencePlace.owes?_sharing]) (by simp)⟩
  | settle hm hc hstored hstates hpair =>
    exact ⟨hmarks.of_same hm (by rw [hcomp]; rfl),
      hcoordination.of_same (congrArg _ hc) (congrArg _ hc) (by rw [hcomp]; rfl)
        (by rw [hcomp]; rfl),
      hpresence.settle hcoordination hplace hstored hstates hpair⟩
  | unshare =>
    exact ⟨hmarks.of_same rfl (by rw [hcomp]; rfl),
      hcoordination.unshare rfl rfl (by rw [hcomp]; rfl) (by rw [hcomp]; rfl),
      hpresence.of_same (fun _ => rfl) (fun _ => rfl)
        (by rw [hplace, PresencePlace.owes?_sharing]) (by simp)⟩
  | release =>
    exact ⟨hmarks.release_place (by rw [hcomp]; rfl) rfl,
      hcoordination.of_same rfl rfl (by rw [hcomp]; rfl) (by rw [hcomp]; rfl),
      hpresence.of_same (fun _ => rfl) (fun _ => rfl) (by rw [hplace]; rfl) (by simp)⟩
  | look hcan =>
    exact ⟨hmarks.of_same rfl (by rw [hcomp]; rfl),
      hcoordination.share hcan rfl rfl rfl (by rw [hcomp]; rfl),
      hpresence.of_same (fun _ => rfl) (fun _ => rfl) (by rw [hplace]; rfl) (by simp)⟩
  | unlook =>
    exact ⟨hmarks.of_same rfl (by rw [hcomp]; rfl),
      hcoordination.unshare rfl rfl (by rw [hcomp]; rfl) (by rw [hcomp]; rfl),
      hpresence.of_same (fun _ => rfl) (fun _ => rfl) (by rw [hplace]; rfl) (by simp)⟩
  | hold hcan =>
    exact ⟨hmarks.of_same rfl (by rw [hcomp]; rfl), hcoordination.hold hcan rfl rfl,
      hpresence.of_same (fun _ => rfl) (fun _ => rfl) (by rw [hplace]; rfl) (by simp)⟩
  | empty hm hc hstates hemptied hothers =>
    exact ⟨hmarks.of_same hm (by rw [hcomp]; rfl),
      hcoordination.of_same (congrArg _ hc) (congrArg _ hc) (by rw [hcomp]; rfl)
        (by rw [hcomp]; rfl),
      hpresence.empty hplace hstates hemptied hothers⟩
  | forget hm hc hstored hothers =>
    exact ⟨hmarks.of_same hm (by rw [hcomp]; rfl),
      hcoordination.of_same (congrArg _ hc) (congrArg _ hc) (by rw [hcomp]; rfl)
        (by rw [hcomp]; rfl),
      hpresence.forget hplace hstored hothers⟩
  | unhold =>
    exact ⟨hmarks.of_same rfl (by rw [hcomp]; rfl),
      hcoordination.unhold rfl rfl rfl (by rw [hcomp]; rfl),
      hpresence.of_same (fun _ => rfl) (fun _ => rfl) (by rw [hplace]; rfl) (by simp)⟩

end Steps

/-! ## Keeping to the protocol -/

namespace ServiceState

/-- An access that touches neither storage, nor marks, nor the holders of the coordination lock. -/
theorem Steady.of_stores {s t : MemoryState K V C} (hmarks : t.marks = s.marks)
    (hreaders : t.coordination.readers = s.coordination.readers)
    (hwriter : t.coordination.writer = s.coordination.writer) (hstores : t.stores = s.stores) :
    s.Steady t :=
  ⟨hmarks, hreaders, hwriter, fun pair => by rw [forward?, hstores, forward?],
    fun pair => by rw [indexingState, hstores, indexingState]⟩

theorem Steady.refl (s : MemoryState K V C) : s.Steady s := .of_stores rfl rfl rfl rfl

theorem Steady.trans {s t u : MemoryState K V C} (h : s.Steady t) (h' : t.Steady u) :
    s.Steady u where
  marks := h'.marks.trans h.marks
  readers := h'.readers.trans h.readers
  writer := h'.writer.trans h.writer
  stored pair := (h'.stored pair).trans (h.stored pair)
  states pair := (h'.states pair).trans (h.states pair)

theorem Still.steady {s t : MemoryState K V C} (h : s.Still t) : s.Steady t :=
  .of_stores h.marks (congrArg _ h.coordination) (congrArg _ h.coordination) h.stores

theorem Steady.note (s : MemoryState K V C) (event : Event) : s.Steady (s.note event) :=
  .of_stores rfl rfl rfl rfl

theorem Steady.moveRegistry (s : MemoryState K V C) (index : IndexId)
    (registry : RebuildRegistry) : s.Steady (s.moveRegistry index registry) := by
  unfold ServiceState.moveRegistry
  dsimp only
  split <;> exact .of_stores rfl rfl rfl rfl

theorem Steady.endRebuild (s : MemoryState K V C) (index : IndexId) :
    s.Steady (s.endRebuild index) := by
  have hmoved := Steady.moveRegistry s index (s.registry.markFinished index)
  unfold ServiceState.endRebuild
  split
  · exact hmoved
  · exact hmoved.trans (.note _ _)

theorem forward?_onStore (s : MemoryState K V C) (index : IndexId) (store : MemoryIndex K V)
    (pair : WriteMark) :
    forward? { s with stores := s.stores.insert index store } pair =
      if index = pair.index then store.data.forward? pair.input else s.forward? pair := by
  show (storeAt (s.stores.insert index store) pair.index).data.forward? pair.input = _
  rw [storeAt_insert]
  split <;> rfl

end ServiceState

section Conformance

open Service

/-- Noting the indexing state of its pair takes a writer through the coordination lock, and it owes
nothing afterwards. -/
theorem obeys_noteState {index : IndexId} {input : InputId} {owed : Option IndexingState}
    {change : MemoryIndex K V → MemoryIndex K V} (hdata : ∀ m, (change m).data = m.data)
    (hothers : ∀ m other, other ≠ input → (change m).state other = m.state other)
    (hnoted : (∀ m, (change m).state input = .upToDate) ∨ owed = some .notIndexed) :
    (withReadLock (Handle.onStore index (Action.update change) :
      ServiceAction (MemoryIndex K V) C Unit)).program.Obeys PresenceMove
        (fun _ l => l = .writing ⟨index, input⟩ none false)
        (.writing ⟨index, input⟩ owed false) := by
  have hsettle : (Handle.onStore index (Action.update change) :
      ServiceAction (MemoryIndex K V) C Unit).program.Obeys PresenceMove
        (fun _ l => l = .writing ⟨index, input⟩ none true) (.writing ⟨index, input⟩ owed true) := by
    rw [Action.update, Handle.onStore_access]
    refine Action.obeys_access fun s => ⟨_, .settle rfl rfl (fun other => ?_) (fun other hne => ?_)
      (hnoted.imp_left fun h => ?_), rfl⟩
    · rw [forward?_onStore]
      split
      · next hindex => rw [hdata, forward?, storeAt, hindex]
      · rfl
    · rw [Handle.indexingState_onStore]
      split
      · next hindex =>
        have hinput : other.input ≠ input := by
          intro heq
          subst heq
          exact hne (by rw [hindex])
        rw [hothers _ _ hinput, indexingState, hindex]
      · rfl
    · rw [Handle.indexingState_onStore, if_pos rfl]
      exact h _
  refine Action.obeys_await_bind fun s hcan => ⟨_, .share hcan, ?_⟩
  refine Action.obeys_ensuring hsettle ?_
  intro r l heq s
  subst heq
  exact ⟨_, .unshare, rfl⟩

theorem presenceMove_locks (l : PresencePlace) (s : MemoryState K V C) (locks : IndexLocks) :
    PresenceMove l s l { s with locks } := .steady (.of_stores rfl rfl rfl rfl)

/-- An action under a mark leaves its thread outside, if it leaves nothing owed. -/
theorem presenceNeutral_withMark {α : Type} {pair : WriteMark}
    {a : ServiceAction (MemoryIndex K V) C α}
    (ha : a.Neutral PresenceMove (.writing pair none false)) :
    (withMark pair a).Neutral PresenceMove .outside := by
  refine Action.obeys_await_bind fun s hfree => ⟨_, .take (by simpa using hfree), ?_⟩
  refine Action.obeys_ensuring ha ?_
  intro r l heq s
  subst heq
  exact ⟨_, .release, rfl⟩

variable [Std.TransOrd K] [BEq V] {config : Config} {indexers : IndexId → Indexer K V}

/-- The data of an index after it was to replace those of an input. -/
theorem MemoryIndex.forward?_replace (m : MemoryIndex K V) (input other : InputId)
    (data : Mapping K V) :
    (m.replace input data).2.data.forward? other =
      if (m.replace input data).1 = true ∧ input = other then
        if data.isEmpty then none else some data
      else m.data.forward? other := by
  rw [(MemoryIndex.data_replace _ _ _).1, (MemoryIndex.data_replace _ _ _).2]
  cases hholds : m.data.holds input data with
  | true => simp [IndexData.replace_of_holds _ _ _ hholds]
  | false =>
    have hchanged : (m.data.replace input data).1 = true := by simp [IndexData.replace, hholds]
    simp [IndexData.forward?_replace _ _ _ _ hholds, hchanged]

/-- What concerns neither marks, nor data, nor indexing states leaves a thread at its place. -/
theorem presenceClass (config : Config) (indexers : IndexId → Indexer K V) (l : PresencePlace) :
    QuietClass (Environment.memory config indexers : Environment _ _ C) Steady
      fun {_} a => a.Neutral PresenceMove l where
  toActionClass := .ofNeutral fun _ _ => .steady
  still _ _ h := h.steady
  request s index := .moveRegistry s index _
  oracle := rfl

/-- After applying an update its writer owes an indexing state exactly if the data changed. -/
theorem obeys_applyUpdate_presence (origin : Origin) (update : PreparedUpdate (Mapping K V))
    (state : IndexingState) (hstate : state = .notIndexed → update.change.isEmpty = true) :
    ((Environment.memory config indexers : Environment _ _ C).applyUpdate origin
      update).program.Obeys PresenceMove
        (fun r l => ∃ changed, r = .ok changed ∧
          l = .writing ⟨update.index, update.input⟩ (if changed then some state else none) false)
        (.writing ⟨update.index, update.input⟩ none false) := by
  refine Action.obeys_access_bind fun s => ⟨_, .steady (.note s _), ?_⟩
  refine Action.obeys_outcome_bind (fun r l => ∃ changed, r = .ok changed ∧
    l = .writing ⟨update.index, update.input⟩ (if changed then some state else none) false) ?_ ?_
  · rw [memory_apply, Handle.onStore_access]
    refine Action.obeys_access fun s => ?_
    generalize hm : s.stores[update.index]?.getD default = m
    have hstates : ∀ other : WriteMark, ServiceState.indexingState
        { s with stores := s.stores.insert update.index (m.replace update.input update.change).2 }
          other = s.indexingState other := by
      intro other
      rw [Handle.indexingState_onStore, MemoryIndex.state_replace, ← hm]
      split
      · next hindex => rw [indexingState, hindex]
      · rfl
    have hstored : ∀ other : WriteMark, forward?
        { s with stores := s.stores.insert update.index (m.replace update.input update.change).2 }
          other =
        if (m.replace update.input update.change).1 = true ∧
            (⟨update.index, update.input⟩ : WriteMark) = other then
          if update.change.isEmpty then none else some update.change
        else s.forward? other := by
      intro other
      obtain ⟨index, input⟩ := other
      rw [forward?_onStore, MemoryIndex.forward?_replace]
      by_cases hindex : update.index = index
      · subst hindex
        simp [forward?, storeAt, hm]
      · simp [hindex]
    cases hchanged : (m.replace update.input update.change).1 with
    | false =>
      simp only [hchanged, Bool.false_eq_true, false_and, if_false] at hstored
      exact ⟨_, .steady ⟨rfl, rfl, rfl, hstored, hstates⟩, false, rfl, rfl⟩
    | true =>
      simp only [hchanged, true_and] at hstored
      refine ⟨_, .store rfl rfl hstates (fun other hne => ?_) fun hnot => ?_, true, rfl, rfl⟩
      · rw [hstored, if_neg (Ne.symm hne)]
      · rw [hstored, if_pos rfl, if_pos (hstate hnot)]
  · intro r l hend
    exact Action.obeys_access_bind fun s => ⟨_, .steady (.note s _), Action.obeys_resume hend⟩

/-- An operation whose update has been prepared owes nothing in the end. -/
theorem presenceNeutral_carryOut (op : Operation) (data : Mapping K V)
    (hdata : op.settledState = .notIndexed → data.isEmpty = true) :
    ((Environment.memory config indexers : Environment _ _ C).carryOut op
      ⟨op.index, op.input, data⟩).Neutral PresenceMove (.writing op.mark none false) := by
  have hP := presenceClass (C := C) config indexers
  have hrun : ((Environment.memory config indexers : Environment _ _ C).runUpdateUnless .operation
      ⟨op.index, op.input, data⟩ (Environment.memory config indexers).isGated).program.Obeys
        PresenceMove (fun r l => ∃ answer, r = .ok answer ∧
          l = .writing op.mark (if answer = some true then some op.settledState else none) false)
        (.writing op.mark none false) := by
    refine obeys_withIndexLock presenceMove_locks (Environment.obeys_isGated_bind rfl ?_ ?_ ?_)
    · intro _
      refine Action.obeys_map ((obeys_applyUpdate_presence .operation _ _ hdata).mono ?_)
      rintro _ _ ⟨changed, rfl, rfl⟩
      exact ⟨some changed, rfl, by cases changed <;> rfl⟩
    · intro _ s _
      refine ⟨_, .steady (.refl s), Action.obeys_map
        ((obeys_applyUpdate_presence .operation _ _ hdata).mono ?_)⟩
      rintro _ _ ⟨changed, rfl, rfl⟩
      exact ⟨some changed, rfl, by cases changed <;> rfl⟩
    · intro s _
      exact ⟨_, .steady (.refl s), Action.obeys_pure ⟨none, rfl, rfl⟩⟩
  have hset : ((Environment.memory config indexers : Environment _ _ C).setState op).program.Obeys
      PresenceMove (fun _ l => l = .writing op.mark none false)
        (.writing op.mark (some op.settledState) false) := by
    unfold Environment.setState Operation.settledState
    rw [memory_setUnindexed, memory_setIndexed]
    cases op.task
    · refine obeys_noteState (fun m => rfl) (fun m other hne => ?_) (.inr rfl)
      rw [MemoryIndex.state_setUnindexed, if_neg (Ne.symm hne)]
    · refine obeys_noteState (fun m => rfl) (fun m other hne => ?_) (.inl fun m => ?_)
      · rw [MemoryIndex.state_setIndexed, if_neg (Ne.symm hne)]
      · rw [MemoryIndex.state_setIndexed, if_pos rfl]
  have hsettled : ∀ outcome : Outcome, (do
      (Environment.memory config indexers : Environment _ _ C).setState op
      pure outcome : ServiceAction (MemoryIndex K V) C _).program.Obeys PresenceMove
        (fun _ l => l = .writing op.mark none false)
        (.writing op.mark (some op.settledState) false) := fun outcome =>
    Action.obeys_bind _ hset (fun _ _ hl => Action.obeys_pure hl) fun _ _ hl => hl
  refine Action.obeys_bind _ hrun ?_ ?_
  · rintro answer _ ⟨_, hanswer, rfl⟩
    obtain rfl := Except.ok.inj hanswer
    rcases answer with _ | changed
    · exact (hP _).bind ((hP _).mem_log _) fun _ => (hP _).pure _
    cases changed with
    | false => exact (hP _).pure _
    | true =>
      simp only [if_true]
      split
      · exact (Action.answers_update fun s => .steady (.note s _)).obeys_bind (hsettled _)
      · exact hsettled _
  · rintro failure _ ⟨answer, hanswer, -⟩
    cases hanswer

/-- The part of an operation whose failures count as damage owes nothing in the end. -/
theorem presenceNeutral_attempt (op : Operation) :
    ((Environment.memory config indexers : Environment _ _ C).attempt op).Neutral PresenceMove
      (.writing op.mark none false) := by
  have hP := presenceClass (C := C) config indexers (.writing op.mark none false)
  refine Action.obeys_bind _ (obeys_prepareTimed hP.calls.count op) ?_ fun _ _ hend => hend.1
  rintro r _ ⟨rfl, hupdate⟩
  rcases r with cause | ⟨index, input, data⟩
  · cases cause with
    | mapping failure => exact hP.bind (hP.calls.mem_notify _) fun _ => hP.pure _
    | _ => exact hP.raise _
  · obtain ⟨rfl, rfl, hmapped⟩ := hupdate _ rfl
    refine presenceNeutral_carryOut op data fun hremoval => ?_
    -- a removal replaces the data by nothing
    cases htask : op.task with
    | removal =>
      rw [htask] at hmapped
      obtain rfl : ∅ = data := Except.ok.inj hmapped
      exact Std.ExtTreeMap.isEmpty_empty
    | update content => simp [Operation.settledState, htask] at hremoval

/-- An operation leaves its thread outside. -/
theorem presenceNeutral_execute (op : Operation) :
    ((Environment.memory config indexers : Environment _ _ C).execute op).Neutral PresenceMove
      .outside := by
  have hP := presenceClass (C := C) config indexers
  exact (hP _).calls.mem_execute (fun _ => (hP _).update fun s => .note s _)
    (presenceNeutral_withMark ((hP _).calls.mem_executeMarked (presenceNeutral_attempt op)))

/-- Putting a file back leaves its thread outside. -/
theorem presenceNeutral_indexFile (index : IndexId) (input : InputId) (content : FileContent) :
    ((Environment.memory config indexers : Environment _ _ C).indexFile index input
      content).Neutral PresenceMove .outside := by
  have hP := presenceClass (C := C) config indexers
  have hset : ∀ owed, (withReadLock ((Environment.memory config indexers :
      Environment _ _ C).handle.setIndexed index input)).program.Obeys PresenceMove
        (fun _ l => l = .writing ⟨index, input⟩ none false)
        (.writing ⟨index, input⟩ owed false) := by
    intro owed
    rw [memory_setIndexed]
    refine obeys_noteState (fun m => rfl) (fun m other hne => ?_) (.inl fun m => ?_)
    · rw [MemoryIndex.state_setIndexed, if_neg (Ne.symm hne)]
    · rw [MemoryIndex.state_setIndexed, if_pos rfl]
  have hmarked : ((Environment.memory config indexers : Environment _ _ C).indexMarked index input
      content).Neutral PresenceMove (.writing ⟨index, input⟩ none false) := by
    refine Action.obeys_bind _ (obeys_result_prepare index input (some content) _) ?_
      fun _ _ hend => hend.1
    rintro r _ ⟨rfl, hupdate⟩
    rcases r with cause | ⟨index, input, data⟩
    · cases cause with
      | mapping failure => exact (hP _).bind ((hP _).calls.mem_notify _) fun _ => (hP _).pure _
      | _ => exact (hP _).raise _
    · obtain ⟨rfl, rfl, -⟩ := hupdate _ rfl
      refine Action.obeys_bind _ (obeys_withIndexLock presenceMove_locks
        (obeys_applyUpdate_presence .rebuild _ .upToDate (by simp))) ?_ ?_
      · rintro _ _ ⟨changed, -, rfl⟩
        exact Action.obeys_bind _ (hset _) (fun _ _ hl => Action.obeys_pure hl) fun _ _ hl => hl
      · rintro _ _ ⟨changed, hr, -⟩
        cases hr
  exact (hP _).calls.mem_indexFile (fun _ => (hP _).update fun s => .note s _)
    (presenceNeutral_withMark hmarked)

/-- Looking at an indexing state leaves a thread outside. -/
theorem presenceNeutral_indexingState (index : IndexId) (input : InputId) :
    ((Environment.memory config indexers : Environment _ _ C).indexingState index input).Neutral
      PresenceMove .outside := by
  have hP := presenceClass (C := C) config indexers
  have hlook : ((Environment.memory config indexers : Environment _ _ C).handle.indexingState index
      input).Neutral PresenceMove .looking := by
    rw [memory_indexingState, Action.read, Handle.onStore_access]
    refine (hP _).access fun s => ⟨rfl, rfl, rfl, fun pair => ?_, fun pair => ?_⟩
    · rw [forward?_onStore]
      split
      · next hindex => rw [forward?, storeAt, hindex]
      · rfl
    · rw [Handle.indexingState_onStore]
      split
      · next hindex => rw [indexingState, hindex]
      · rfl
  refine (hP _).bind ((hP _).calls.registered index) fun registered => ?_
  split
  · refine (hP _).map _ ?_
    refine Action.obeys_await_bind fun s hcan => ⟨_, .look hcan, ?_⟩
    refine Action.obeys_ensuring hlook ?_
    intro r l heq s
    subst heq
    exact ⟨_, .unlook, rfl⟩
  · exact (hP _).pure _

/-- Clearing an index first drops its data and then its indexing states. -/
theorem presenceNeutral_clearIndex (index : IndexId) :
    ((Environment.memory config indexers : Environment _ _ C).clearIndex index).Neutral PresenceMove
      .alone := by
  have hP := presenceClass (C := C) config indexers .alone
  refine hP.calls.mem_clearIndex (hP.update fun s => .note s _)
    (fun _ => hP.update fun s => .note s _) ?_
  rw [memory_clear, Action.update, Action.update, Handle.onStore_access, Handle.onStore_access]
  refine Action.obeys_access_bind fun s => ⟨.emptied index, ?_, Action.obeys_access fun s =>
    ⟨_, ?_, rfl⟩⟩
  · refine .empty rfl rfl (fun pair => ?_) (fun pair hindex => ?_) fun pair hindex => ?_
    · rw [Handle.indexingState_onStore]
      split
      · next hindex => rw [indexingState, hindex]; rfl
      · rfl
    · rw [forward?_onStore, if_pos hindex.symm]
      simp [MemoryIndex.dropData, IndexData.empty, IndexData.forward?]
    · rw [forward?_onStore, if_neg (Ne.symm hindex)]
  · refine .forget rfl rfl (fun pair => ?_) fun pair hindex => ?_
    · rw [forward?_onStore]
      split
      · next hindex => rw [forward?, storeAt, hindex]; rfl
      · rfl
    · rw [Handle.indexingState_onStore, if_neg (Ne.symm hindex)]

/-- A rebuild leaves its thread outside, if putting the files back does. -/
theorem presenceNeutral_rebuildIndex (index : IndexId)
    {repopulate : ServiceAction (MemoryIndex K V) C Unit}
    (hrepopulate : repopulate.Neutral PresenceMove .outside) :
    ((Environment.memory config indexers : Environment _ _ C).rebuildIndex index
      repopulate).Neutral PresenceMove .outside := by
  have hP := presenceClass (C := C) config indexers .outside
  have hstructural : (withStructuralLock
      ((Environment.memory config indexers : Environment _ _ C).clearIndex index)).Neutral
        PresenceMove .outside := by
    refine Action.obeys_access_bind fun s => ⟨.outside, .steady (.of_stores rfl rfl rfl rfl), ?_⟩
    refine Action.obeys_await_bind fun s hcan => ⟨_, .hold hcan, ?_⟩
    refine Action.obeys_ensuring (presenceNeutral_clearIndex index) ?_
    intro r l heq s
    subst heq
    exact ⟨_, .unhold, rfl⟩
  have hclaim : ((Environment.memory config indexers : Environment _ _ C).claimAndClear
      index).Neutral PresenceMove .outside :=
    hP.calls.mem_claimAndClear (obeys_withIndexLock presenceMove_locks)
      (hP.mem_start (hP.access fun s => .moveRegistry s index _))
      (hP.access fun s => .of_stores rfl rfl rfl rfl) hstructural
  have hfinish := hP.mem_finish (hP.access fun s => .endRebuild s index)
  exact hP.calls.mem_rebuildIndex hclaim hfinish (fun _ _ => hP.update fun s => .note s _) hrepopulate

/-- Every command keeps to the protocol. -/
theorem presenceNeutral_runAll (commands : List Command) :
    (Command.runAll (Environment.memory config indexers : Environment _ _ C) none
      commands).Neutral PresenceMove .outside := by
  have hP := presenceClass (C := C) config indexers .outside
  have hcommands : CommandClass (Environment.memory config indexers : Environment _ _ C)
      (fun _ => True) Steady fun {_} a => a.Neutral PresenceMove .outside := {
    hP.toActionClass with
    still := hP.still
    execute := presenceNeutral_execute
    request := hP.calls.request
    rebuild := fun index _ => presenceNeutral_rebuildIndex index
    indexFile := presenceNeutral_indexFile
    indexingState := presenceNeutral_indexingState }
  exact hcommands.mem_runAll none commands
    (Command.rebuildsOnlyAll_of_forall (fun _ => trivial) commands)

end Conformance

/-! ## All interleavings -/

/-- In every interleaving of threads that execute operations on indices in memory, request rebuilds
and rebuild indices, an input whose mark nobody holds is up to date if data are stored for it, as
long as this was so in the beginning. -/
theorem upToDate_of_stored [Std.TransOrd K] [BEq V] (config : Config)
    (indexers : IndexId → Indexer K V) (s : MemoryState K V C) (hs : s.AtRest)
    (hstored : ∀ pair, s.forward? pair ≠ none → s.indexingState pair = .upToDate)
    (commands : List (List Command)) (q : Pool (MemoryState K V C) (Except Failure Unit))
    (hq : ((Environment.memory config indexers).threads s commands).Reaches q) (pair : WriteMark)
    (hmark : q.state.marks.isMarked pair = false) (data : Mapping K V)
    (hdata : q.state.forward? pair = some data) : q.state.indexingState pair = .upToDate := by
  have hobeys : ((Environment.memory config indexers).threads s commands).Obeys
      (fun _ => PresenceMove) (fun _ _ l => l = .outside) (fun _ => .outside) := by
    intro i t ht
    obtain ⟨list, -, rfl⟩ := List.mem_map.1 (List.mem_of_getElem? ht)
    exact presenceNeutral_runAll list
  obtain ⟨h, htrace⟩ := Pool.traced_of_reaches hq
  obtain ⟨place, hinv, -⟩ := Pool.Traced.invariant (fun _ => PresenceInvariant) hobeys
    (presenceInvariant_outside hs hstored) (fun _ _ hinv hmove => hinv.step hmove) htrace
  rcases hinv.presence.stored pair (by simp [hdata]) with hstate | ⟨t, howes⟩
  · exact hstate
  · have hheld := hinv.marks.taken t pair (PresencePlace.mark?_of_owes? howes)
    simp [hheld] at hmark

namespace Sample

theorem forward?_state (pair : WriteMark) : state.forward? pair = none := by
  rw [ServiceState.forward?, storeAt_state]
  rfl

/-- A file has been updated as far as some schedule says, while a rebuild goes on beside. -/
def updated (schedule : List Nat) : Pool (MemoryState Nat Nat Unit) (Except Failure Unit) :=
  (environment.threads state updating).follow schedule

end Sample

/-- The data of a file that is updated after a rebuild are there, and the file is up to date. -/
theorem upToDate_of_stored_updated :
    ∃ q data, (Sample.environment.threads Sample.state Sample.updating).Reaches q ∧
      q.state.marks.isMarked Sample.file = false ∧ q.state.forward? Sample.file = some data ∧
        q.state.indexingState Sample.file = .upToDate := by
  obtain ⟨q, hq⟩ : ∃ q, Sample.updated (List.replicate 40 1 ++ List.replicate 40 0) = q := ⟨_, rfl⟩
  have hreaches : (Sample.environment.threads Sample.state Sample.updating).Reaches q := by
    rw [← hq]
    exact Pool.reaches_follow _ _
  have hmark : q.state.marks.isMarked Sample.file = false := by
    rw [← hq]
    decide +kernel
  have hsome : (q.state.forward? Sample.file).isSome = true := by
    rw [← hq]
    decide +kernel
  obtain ⟨data, hdata⟩ := Option.isSome_iff_exists.1 hsome
  exact ⟨q, data, hreaches, hmark, hdata, upToDate_of_stored .standard _ Sample.state
    (atRest_ofStores _ _ _ _) (fun pair h => absurd (Sample.forward?_state pair) h) Sample.updating
    q hreaches Sample.file hmark data hdata⟩

/-- Under its mark the file has data before it is up to date. -/
example : ((Sample.updated (List.replicate 15 0)).state.forward? Sample.file).isSome = true ∧
    (Sample.updated (List.replicate 15 0)).state.indexingState Sample.file = .notIndexed := by
  decide +kernel

end FileIndexing
