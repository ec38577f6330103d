import FileIndexing.Proofs.Discretion
import FileIndexing.Proofs.Trace

/-!
# Writers of an index exclude each other

Updates are applied and indices are cleared while the lock of the index is held, and a rebuild is
claimed under the same lock.  This module draws the consequences for all interleavings.

* `workInProgress` reads off the journal what has begun on an index and has not ended.
* `MarksHeld` says that the write marks that some threads hold are taken, each by one of them only.
* `LockPlace` and `LockMove` are the protocol of a thread: it learns the number of the lock, waits,
  holds the lock, perhaps sees that the gate is open, works on storage and gives the lock back.
  `lockNeutral_runAll` says that every list of commands keeps to it.
* `LockInvariant` relates the locks, the journal and the rebuild states to the places of all
  threads, and `LockInvariant.step` says that every move keeps it.
* `storageWork_exclusive` is the result: at most one piece of work on an index is in progress at any
  moment, and none on behalf of an operation while the index is being rebuilt.
-/

namespace FileIndexing

open ServiceState

/-! ## Work in progress -/

/-- A piece of work on the storage of an index. -/
inductive StorageWork where
  | apply (input : InputId) (origin : Origin)
  | clear
  deriving DecidableEq, Repr

/-- What is in progress on an index after one more event. -/
def Event.updateWork (index : IndexId) (event : Event) (work : List StorageWork) :
    List StorageWork :=
  match event with
  | .applyBegan i input origin => if i = index then .apply input origin :: work else work
  | .applyEnded i input origin _ => if i = index then work.erase (.apply input origin) else work
  | .clearBegan i => if i = index then .clear :: work else work
  | .clearEnded i _ => if i = index then work.erase .clear else work
  | _ => work

/-- The work on the storage of an index that has begun according to a journal and has not ended. -/
def workInProgress (index : IndexId) (journal : List Event) : List StorageWork :=
  journal.foldr (Event.updateWork index) []

@[simp] theorem workInProgress_cons (index : IndexId) (event : Event) (journal : List Event) :
    workInProgress index (event :: journal) =
      event.updateWork index (workInProgress index journal) := rfl

theorem workInProgress_append {index : IndexId} {events : List Event} (journal : List Event)
    (h : ∀ event ∈ events, event.isIncidental = true) :
    workInProgress index (events ++ journal) = workInProgress index journal := by
  induction events with
  | nil => rfl
  | cons event rest ih =>
    have hevent : event.isIncidental = true := h event (by simp)
    rw [List.cons_append, workInProgress_cons, ih fun e he => h e (by simp [he])]
    cases event <;> simp_all [Event.isIncidental, Event.isRemark, Event.updateWork]

namespace ServiceState

variable {S C : Type}

@[simp] theorem workInProgress_moveRegistry (s : ServiceState S C) (index other : IndexId)
    (registry : RebuildRegistry) :
    workInProgress index (s.moveRegistry other registry).journal =
      workInProgress index s.journal := by
  rw [journal_moveRegistry]
  split <;> rfl

@[simp] theorem workInProgress_endRebuild (s : ServiceState S C) (index other : IndexId) :
    workInProgress index (s.endRebuild other).journal = workInProgress index s.journal := by
  unfold endRebuild
  split
  · simp
  · rw [journal_note, workInProgress_cons]
    exact workInProgress_moveRegistry s index other _

theorem Discreet.workInProgress {s t : ServiceState S C} (h : s.Discreet t) (index : IndexId) :
    workInProgress index t.journal = workInProgress index s.journal := by
  cases h with
  | quiet events _ _ hincidental hjournal => rw [hjournal, workInProgress_append _ hincidental]
  | request other => simp

/-- A service that no thread is working on.  Locks may have been made and rebuilds may have been
scheduled before. -/
structure AtRest (s : ServiceState S C) : Prop where
  marks : s.marks = .empty
  coordination : ∃ writersFirst, s.coordination = .free writersFirst
  unheld : s.locks.held = []
  numbered : ∀ index lock, s.locks.find? index = some lock → lock < s.locks.made
  apart : ∀ i j lock, s.locks.find? i = some lock → s.locks.find? j = some lock → i = j
  idle : ∀ index, workInProgress index s.journal = []

/-- A service in which nothing has happened is at rest. -/
theorem atRest_ofStores (config : Config) (stores : Std.ExtTreeMap IndexId S)
    (writersFirst : Bool) (client : C) : (ofStores config stores writersFirst client).AtRest where
  marks := rfl
  coordination := ⟨writersFirst, rfl⟩
  unheld := rfl
  numbered := by simp [ofStores, IndexLocks.empty, IndexLocks.find?]
  apart := by simp [ofStores, IndexLocks.empty, IndexLocks.find?]
  idle _ := rfl

end ServiceState

/-! ## Marks -/

/-- Whoever holds a mark is alone with it; `held` says which mark each thread holds. -/
structure MarksHeld (marks : MarkTable) (held : Nat → Option WriteMark) : Prop where
  taken : ∀ t pair, held t = some pair → marks.isMarked pair = true
  sole : ∀ t u pair, held t = some pair → held u = some pair → t = u

namespace MarksHeld

variable {marks : MarkTable} {held : Nat → Option WriteMark} {t : Nat} {pair : WriteMark}

theorem of_none (h : ∀ t, held t = none) : MarksHeld marks held :=
  ⟨by simp [h], by simp [h]⟩

/-- A thread takes a mark that is free. -/
theorem take (hinv : MarksHeld marks held) (hfree : marks.isMarked pair = false) :
    MarksHeld (marks.take pair) (Function.update held t (some pair)) where
  taken u other hu := by
    rw [MarkTable.isMarked_take]
    rw [Function.update_apply] at hu
    split at hu
    · simp_all
    · simp [hinv.taken u other hu]
  sole u v other hu hv := by
    have hnot : ∀ w, held w ≠ some pair := by
      intro w hw
      simp [hinv.taken w pair hw] at hfree
    rw [Function.update_apply] at hu hv
    split at hu <;> split at hv
    · next hut hvt => rw [hut, hvt]
    · simp_all
    · simp_all
    · exact hinv.sole u v other hu hv

/-- A thread gives its mark back, and the others keep theirs. -/
theorem release (hinv : MarksHeld marks held) (hheld : held t = some pair) :
    MarksHeld (marks.release pair) (Function.update held t none) where
  taken u other hu := by
    rw [Function.update_apply] at hu
    split at hu
    · simp at hu
    · next hut =>
      have hne : other ≠ pair := by
        intro heq
        subst heq
        exact hut (hinv.sole u t other hu hheld)
      rw [MarkTable.isMarked_release_of_ne _ hne]
      exact hinv.taken u other hu
  sole u v other hu hv := by
    refine hinv.sole u v other ?_ ?_ <;> grind [Function.update_apply]

end MarksHeld

/-! ## The protocol of the locks -/

/-- How far a thread has come in working on an index under its lock. -/
inductive LockPlace where
  | outside
  /-- Knows the lock and waits for it. -/
  | waiting (index : IndexId) (lock : Nat)
  /-- Holds the lock; perhaps it saw by its last access that the index is consistent. -/
  | holding (index : IndexId) (lock : Nat) (sawOk : Bool)
  | working (index : IndexId) (lock : Nat) (work : StorageWork)

namespace LockPlace

/-- The lock that a thread knows to be that of an index. -/
def knows? : LockPlace → Option (IndexId × Nat)
  | .outside => none
  | .waiting index lock | .holding index lock _ | .working index lock _ => some (index, lock)

/-- The lock that a thread holds. -/
def holds? : LockPlace → Option (IndexId × Nat)
  | .outside | .waiting _ _ => none
  | .holding index lock _ | .working index lock _ => some (index, lock)

/-- What a thread is doing to the storage of an index. -/
def work? : LockPlace → Option (IndexId × StorageWork)
  | .working index _ work => some (index, work)
  | _ => none

/-- The index that a thread saw to be consistent by its last access. -/
def saw? : LockPlace → Option IndexId
  | .holding index _ true => some index
  | _ => none

/-- The index that a thread relies on not being rebuilt. -/
def trusts? (gated : Bool) : LockPlace → Option IndexId
  | .holding index _ true => some index
  | .working index _ (.apply _ .operation) => if gated then some index else none
  | _ => none

theorem exists_holds_of_work {l : LockPlace} {index : IndexId} {work : StorageWork}
    (h : l.work? = some (index, work)) : ∃ lock, l.holds? = some (index, lock) := by
  cases l <;> simp_all [work?, holds?]

theorem exists_holds_of_trusts {gated : Bool} {l : LockPlace} {index : IndexId}
    (h : l.trusts? gated = some index) : ∃ lock, l.holds? = some (index, lock) := by
  unfold trusts? at h
  split at h <;> simp_all [holds?]

theorem exists_holds_of_saw {l : LockPlace} {index : IndexId} (h : l.saw? = some index) :
    ∃ lock, l.holds? = some (index, lock) := by
  unfold saw? at h
  split at h <;> simp_all [holds?]

theorem knows_of_holds {l : LockPlace} {x : IndexId × Nat} (h : l.holds? = some x) :
    l.knows? = some x := by
  cases l <;> simp_all [holds?, knows?]

end LockPlace

variable {S U C : Type}

/-- What a thread does by one access, as far as it concerns the locks of the indices.  In a gated
service an update is applied for an operation only after the gate was seen open, and nothing else
is done in between. -/
inductive LockMove (gated : Bool) :
    LockPlace → ServiceState S C → LockPlace → ServiceState S C → Prop where
  | discreet {l s t} : l.saw? = none → s.Discreet t → LockMove gated l s l t
  | ended {l s index run answer} : l.saw? = none →
    LockMove gated l s l (s.note (.rebuildEnded index run answer))
  | finish {l s} {index : IndexId} : l.saw? = none →
    LockMove gated l s l (s.endRebuild index)
  | find {s index lock} : s.locks.find? index = some lock →
    LockMove gated .outside s (.waiting index lock) s
  | make {s} {index : IndexId} :
    LockMove gated .outside s (.waiting index (s.locks.findOrMake index).1)
      { s with locks := (s.locks.findOrMake index).2 }
  | acquire {s index lock} : s.locks.isFree lock = true →
    LockMove gated (.waiting index lock) s (.holding index lock false)
      { s with locks := s.locks.acquire lock }
  | look {s index lock} : s.registry.state index = .ok →
    LockMove gated (.holding index lock false) s (.holding index lock true) s
  | start {s index lock} :
    LockMove gated (.holding index lock false) s (.holding index lock false)
      (s.moveRegistry index (s.registry.markRunning index))
  | beginApply {s index lock sawOk input origin} :
    (gated = true → origin = .operation → sawOk = true) →
    LockMove gated (.holding index lock sawOk) s (.working index lock (.apply input origin))
      (s.note (.applyBegan index input origin))
  | endApply {s index lock input origin changed} :
    LockMove gated (.working index lock (.apply input origin)) s (.holding index lock false)
      (s.note (.applyEnded index input origin changed))
  | beginClear {s index lock} :
    LockMove gated (.holding index lock false) s (.working index lock .clear)
      (s.note (.clearBegan index))
  | endClear {s index lock cleared} :
    LockMove gated (.working index lock .clear) s (.holding index lock false)
      (s.note (.clearEnded index cleared))
  | release {s index lock sawOk} :
    LockMove gated (.holding index lock sawOk) s .outside
      { s with locks := s.locks.release lock }

/-! ## The invariant -/

/-- How the locks, the journal and the rebuild states hang together with the places of the
threads. -/
structure LockInvariant (gated : Bool) (s : ServiceState S C) (place : Nat → LockPlace) : Prop where
  numbered : ∀ index lock, s.locks.find? index = some lock → lock < s.locks.made
  apart : ∀ i j lock, s.locks.find? i = some lock → s.locks.find? j = some lock → i = j
  known : ∀ t index lock, (place t).knows? = some (index, lock) → s.locks.find? index = some lock
  held : ∀ t index lock, (place t).holds? = some (index, lock) → lock ∈ s.locks.held
  alone : ∀ t u i j lock, (place t).holds? = some (i, lock) → (place u).holds? = some (j, lock) →
    t = u
  working : ∀ t index work, (place t).work? = some (index, work) →
    workInProgress index s.journal = [work]
  idle : ∀ index, (∀ t work, (place t).work? ≠ some (index, work)) →
    workInProgress index s.journal = []
  trusted : ∀ t index, (place t).trusts? gated = some index →
    s.registry.state index ≠ .running

theorem ServiceState.AtRest.lockInvariant {s : ServiceState S C} (h : s.AtRest) (gated : Bool) :
    LockInvariant gated s fun _ => .outside where
  numbered := h.numbered
  apart := h.apart
  known := by simp [LockPlace.knows?]
  held := by simp [LockPlace.holds?]
  alone := by simp [LockPlace.holds?]
  working := by simp [LockPlace.work?]
  idle index _ := h.idle index
  trusted := by simp [LockPlace.trusts?]

namespace LockInvariant

variable {gated : Bool} {s : ServiceState S C} {place : Nat → LockPlace}

/-- Two threads that hold the lock of one index are the same. -/
theorem eq_of_holds (hinv : LockInvariant gated s place) {t u : Nat} {index : IndexId} {m n : Nat}
    (ht : (place t).holds? = some (index, m)) (hu : (place u).holds? = some (index, n)) :
    t = u := by
  have hm := hinv.known t index m (LockPlace.knows_of_holds ht)
  have hn := hinv.known u index n (LockPlace.knows_of_holds hu)
  obtain rfl : m = n := Option.some.inj (hm.symm.trans hn)
  exact hinv.alone t u index index m ht hu

/-- Nobody else works on an index whose lock a thread holds. -/
theorem ne_of_work (hinv : LockInvariant gated s place) {t u lock : Nat} {index i : IndexId}
    {work : StorageWork} (ht : (place t).holds? = some (index, lock)) (hut : u ≠ t)
    (hu : (place u).work? = some (i, work)) : index ≠ i := by
  intro heq
  subst heq
  obtain ⟨n, hholds⟩ := LockPlace.exists_holds_of_work hu
  exact hut (hinv.eq_of_holds hholds ht)

/-- A thread that was not working and moves leaves the indices idle that it finds idle. -/
theorem idle_update (hinv : LockInvariant gated s place) {t : Nat} {l : LockPlace}
    (ht : (place t).work? = none) {index : IndexId}
    (h : ∀ u work, (Function.update place t l u).work? ≠ some (index, work)) :
    workInProgress index s.journal = [] := by
  refine hinv.idle index fun u work hu => h u work ?_
  have hut : u ≠ t := by
    intro heq
    subst heq
    simp [ht] at hu
  rwa [Function.update_of_ne hut]

/-- A thread that moves may go on trusting in what it trusted in before. -/
theorem trusted_update (hinv : LockInvariant gated s place) {t : Nat} {l : LockPlace}
    (hl : ∀ index, l.trusts? gated = some index → s.registry.state index ≠ .running) (u : Nat)
    (index : IndexId) (h : (Function.update place t l u).trusts? gated = some index) :
    s.registry.state index ≠ .running := by
  rw [Function.update_apply] at h
  split at h
  · exact hl index h
  · exact hinv.trusted u index h

/-- An access that leaves the locks and the work alone and claims no index. -/
theorem of_frame (hinv : LockInvariant gated s place) {s' : ServiceState S C}
    (hlocks : s'.locks = s.locks)
    (hwork : ∀ index, workInProgress index s'.journal = workInProgress index s.journal)
    (hstate : ∀ index, s'.registry.state index = .running → s.registry.state index = .running) :
    LockInvariant gated s' place where
  numbered := by simpa only [hlocks] using hinv.numbered
  apart := by simpa only [hlocks] using hinv.apart
  known := by simpa only [hlocks] using hinv.known
  held := by simpa only [hlocks] using hinv.held
  alone := hinv.alone
  working t index work h := by rw [hwork, hinv.working t index work h]
  idle index h := by rw [hwork, hinv.idle index h]
  trusted t index h hrunning := hinv.trusted t index h (hstate index hrunning)

/-- A thread comes to a place where it knows and holds what it did before and works on nothing. -/
theorem of_place (hinv : LockInvariant gated s place) {t : Nat} {l : LockPlace}
    (hknows : ∀ index lock, l.knows? = some (index, lock) → s.locks.find? index = some lock)
    (hholds : l.holds? = (place t).holds?) (hwork : l.work? = (place t).work?)
    (htrusts : ∀ index, l.trusts? gated = some index → s.registry.state index ≠ .running) :
    LockInvariant gated s (Function.update place t l) where
  numbered := hinv.numbered
  apart := hinv.apart
  known u index lock h := by
    rw [Function.update_apply] at h
    split at h
    · exact hknows index lock h
    · exact hinv.known u index lock h
  held u index lock h := by
    have hu : (place u).holds? = some (index, lock) := by grind [Function.update_apply]
    exact hinv.held u index lock hu
  alone u v i j lock hu hv := by
    have hu' : (place u).holds? = some (i, lock) := by grind [Function.update_apply]
    have hv' : (place v).holds? = some (j, lock) := by grind [Function.update_apply]
    exact hinv.alone u v i j lock hu' hv'
  working u index work h := by
    have hu : (place u).work? = some (index, work) := by grind [Function.update_apply]
    exact hinv.working u index work hu
  idle index h := by
    refine hinv.idle index fun u work hu => h u work ?_
    grind [Function.update_apply]
  trusted := hinv.trusted_update htrusts

/-- The lock of an index is made. -/
theorem of_make (hinv : LockInvariant gated s place) (index : IndexId) :
    LockInvariant gated { s with locks := (s.locks.findOrMake index).2 } place := by
  cases hfind : s.locks.find? index with
  | some lock =>
    have hsame : (s.locks.findOrMake index).2 = s.locks := by simp [IndexLocks.findOrMake, hfind]
    exact hinv.of_frame hsame (fun _ => rfl) fun _ h => h
  | none =>
    have hnew : (s.locks.findOrMake index).2.find? index = some s.locks.made := by
      rw [IndexLocks.find?_findOrMake]
      simp [IndexLocks.findOrMake, hfind]
    have hmade : (s.locks.findOrMake index).2.made = s.locks.made + 1 := by
      simp [IndexLocks.findOrMake, hfind]
    have hheld : (s.locks.findOrMake index).2.held = s.locks.held := by
      simp [IndexLocks.findOrMake, hfind]
    have hother : ∀ other, other ≠ index →
        (s.locks.findOrMake index).2.find? other = s.locks.find? other := fun other hne =>
      s.locks.find?_findOrMake_of_ne hne
    exact {
      numbered := by
        intro other lock h
        have := hinv.numbered other lock
        by_cases hne : other = index
        · subst hne
          simp_all
        · simp only [hother other hne] at h
          simp only [hmade]
          have := this h
          omega
      apart := by
        intro i j lock hi hj
        have hlt := hinv.numbered
        have hapart := hinv.apart i j lock
        by_cases hi' : i = index <;> by_cases hj' : j = index <;> grind
      known := by
        intro t other lock h
        have hold := hinv.known t other lock h
        have hne : other ≠ index := by
          intro heq
          subst heq
          simp [hfind] at hold
        simpa only [hother other hne] using hold
      held := by simpa only [hheld] using hinv.held
      alone := hinv.alone
      working := hinv.working
      idle := hinv.idle
      trusted := hinv.trusted }

/-- A waiting thread takes a free lock. -/
theorem of_acquire (hinv : LockInvariant gated s place) {t lock : Nat} {index : IndexId}
    (hplace : place t = .waiting index lock) (hfree : s.locks.isFree lock = true) :
    LockInvariant gated { s with locks := s.locks.acquire lock }
      (Function.update place t (.holding index lock false)) where
  numbered := hinv.numbered
  apart := hinv.apart
  known u i n h := by
    refine hinv.known u i n ?_
    rw [Function.update_apply] at h
    split at h
    · next hu => rw [hu, hplace]; exact h
    · exact h
  held u i n h := by
    rw [Function.update_apply] at h
    split at h
    · obtain ⟨-, rfl⟩ : index = i ∧ lock = n := by simpa [LockPlace.holds?] using h
      exact List.mem_cons_self
    · exact List.mem_cons_of_mem _ (hinv.held u i n h)
  alone u v i j n hu hv := by
    have hnot : ∀ w k, (place w).holds? ≠ some (k, lock) := by
      intro w k hw
      have hmem := hinv.held w k lock hw
      simp [IndexLocks.isFree, hmem] at hfree
    rw [Function.update_apply] at hu hv
    split at hu <;> split at hv
    · next hut hvt => rw [hut, hvt]
    · obtain ⟨-, rfl⟩ : index = i ∧ lock = n := by simpa [LockPlace.holds?] using hu
      exact absurd hv (hnot v j)
    · obtain ⟨-, rfl⟩ : index = j ∧ lock = n := by simpa [LockPlace.holds?] using hv
      exact absurd hu (hnot u i)
    · exact hinv.alone u v i j n hu hv
  working u i work h := by
    refine hinv.working u i work ?_
    rw [Function.update_apply] at h
    split at h
    · simp [LockPlace.work?] at h
    · exact h
  idle i h := hinv.idle_update (by rw [hplace]; rfl) h
  trusted := hinv.trusted_update (by simp [LockPlace.trusts?])

/-- A thread gives its lock back. -/
theorem of_release (hinv : LockInvariant gated s place) {t lock : Nat} {index : IndexId}
    {sawOk : Bool} (hplace : place t = .holding index lock sawOk) :
    LockInvariant gated { s with locks := s.locks.release lock }
      (Function.update place t .outside) where
  numbered := hinv.numbered
  apart := hinv.apart
  known u i n h := by
    rw [Function.update_apply] at h
    split at h
    · simp [LockPlace.knows?] at h
    · exact hinv.known u i n h
  held u i n h := by
    rw [Function.update_apply] at h
    split at h
    · simp [LockPlace.holds?] at h
    · next hut =>
      have hne : n ≠ lock := by
        intro heq
        subst heq
        exact hut (hinv.alone u t i index n h (by rw [hplace]; rfl))
      exact (List.mem_erase_of_ne hne).2 (hinv.held u i n h)
  alone u v i j n hu hv := by
    rw [Function.update_apply] at hu hv
    split at hu
    · simp [LockPlace.holds?] at hu
    · split at hv
      · simp [LockPlace.holds?] at hv
      · exact hinv.alone u v i j n hu hv
  working u i work h := by
    rw [Function.update_apply] at h
    split at h
    · simp [LockPlace.work?] at h
    · exact hinv.working u i work h
  idle i h := hinv.idle_update (by rw [hplace]; rfl) h
  trusted := hinv.trusted_update (by simp [LockPlace.trusts?])

/-- The index of a thread that holds its lock is claimed. -/
theorem of_start (hinv : LockInvariant gated s place) {t lock : Nat} {index : IndexId}
    (hplace : place t = .holding index lock false) :
    LockInvariant gated (s.moveRegistry index (s.registry.markRunning index)) place where
  numbered := by simpa using hinv.numbered
  apart := by simpa using hinv.apart
  known := by simpa using hinv.known
  held := by simpa using hinv.held
  alone := hinv.alone
  working := by simpa using hinv.working
  idle := by simpa using hinv.idle
  trusted u i h := by
    -- whoever trusts in the state of an index holds its lock, and a thread that claims it does not
    have hne : index ≠ i := by
      intro heq
      subst heq
      obtain ⟨n, hu⟩ := LockPlace.exists_holds_of_trusts h
      obtain rfl := hinv.eq_of_holds (t := t) (by rw [hplace]; rfl) hu
      simp [hplace, LockPlace.trusts?] at h
    simpa [RebuildRegistry.state_markRunning, hne] using hinv.trusted u i h

/-- A thread that holds the lock of an index and is not working on it is alone with the index. -/
theorem workInProgress_eq_nil (hinv : LockInvariant gated s place) {t lock : Nat} {index : IndexId}
    {sawOk : Bool} (hplace : place t = .holding index lock sawOk) :
    workInProgress index s.journal = [] := by
  refine hinv.idle index fun u work hu => ?_
  have hut : u ≠ t := by
    intro heq
    subst heq
    simp [hplace, LockPlace.work?] at hu
  exact hinv.ne_of_work (by rw [hplace]; rfl) hut hu rfl

/-- A thread that holds the lock of an index begins to work on it. -/
theorem of_begin (hinv : LockInvariant gated s place) {t lock : Nat} {index : IndexId}
    {sawOk : Bool} {work : StorageWork} {event : Event}
    (hplace : place t = .holding index lock sawOk)
    (hevent : ∀ i list, event.updateWork i list = if index = i then work :: list else list)
    (htrusts : ∀ i, (LockPlace.working index lock work).trusts? gated = some i →
      (place t).trusts? gated = some i) :
    LockInvariant gated (s.note event) (Function.update place t (.working index lock work)) where
  numbered := hinv.numbered
  apart := hinv.apart
  known u i n h := by
    refine hinv.known u i n ?_
    grind [Function.update_apply, LockPlace.knows?]
  held u i n h := by
    refine hinv.held u i n ?_
    grind [Function.update_apply, LockPlace.holds?]
  alone u v i j n hu hv := by
    refine hinv.alone u v i j n ?_ ?_ <;> grind [Function.update_apply, LockPlace.holds?]
  working u i w h := by
    rw [journal_note, workInProgress_cons, hevent]
    rw [Function.update_apply] at h
    split at h
    · obtain ⟨rfl, rfl⟩ : index = i ∧ work = w := by simpa [LockPlace.work?] using h
      simp [hinv.workInProgress_eq_nil hplace]
    · next hut =>
      have hne : index ≠ i := hinv.ne_of_work (by rw [hplace]; rfl) hut h
      simpa [hne] using hinv.working u i w h
  idle i h := by
    have hne : index ≠ i := by
      intro heq
      subst heq
      exact h t work (by simp [LockPlace.work?])
    rw [journal_note, workInProgress_cons, hevent, if_neg hne]
    exact hinv.idle_update (by rw [hplace]; rfl) h
  trusted := hinv.trusted_update fun i h => hinv.trusted t i (htrusts i h)

/-- A thread ends its work on an index. -/
theorem of_end (hinv : LockInvariant gated s place) {t lock : Nat} {index : IndexId}
    {work : StorageWork} {event : Event} (hplace : place t = .working index lock work)
    (hevent : ∀ i list, event.updateWork i list = if index = i then list.erase work else list) :
    LockInvariant gated (s.note event) (Function.update place t (.holding index lock false)) where
  numbered := hinv.numbered
  apart := hinv.apart
  known u i n h := by
    refine hinv.known u i n ?_
    grind [Function.update_apply, LockPlace.knows?]
  held u i n h := by
    refine hinv.held u i n ?_
    grind [Function.update_apply, LockPlace.holds?]
  alone u v i j n hu hv := by
    refine hinv.alone u v i j n ?_ ?_ <;> grind [Function.update_apply, LockPlace.holds?]
  working u i w h := by
    rw [Function.update_apply] at h
    split at h
    · simp [LockPlace.work?] at h
    · next hut =>
      have hne : index ≠ i := hinv.ne_of_work (by rw [hplace]; rfl) hut h
      rw [journal_note, workInProgress_cons, hevent, if_neg hne, hinv.working u i w h]
  idle i h := by
    rw [journal_note, workInProgress_cons, hevent]
    split
    · next hi =>
      subst hi
      simp [hinv.working t index work (by rw [hplace]; rfl)]
    · next hne =>
      refine hinv.idle i fun u w hu => h u w ?_
      rw [Function.update_apply]
      split
      · next hut =>
        have hi : index = i ∧ work = w := by simpa [hut, hplace, LockPlace.work?] using hu
        exact absurd hi.1 hne
      · exact hu
  trusted := hinv.trusted_update (by simp [LockPlace.trusts?])

/-- Every move of a thread keeps the invariant. -/
theorem step (hinv : LockInvariant gated s place) {s' : ServiceState S C} {t : Nat} {l : LockPlace}
    (hmove : LockMove gated (place t) s l s') :
    LockInvariant gated s' (Function.update place t l) := by
  generalize hplace : place t = l₀ at hmove
  cases hmove with
  | discreet _ hdiscreet =>
    rw [← hplace, Function.update_eq_self]
    exact hinv.of_frame hdiscreet.locks_eq hdiscreet.workInProgress
      fun _ => hdiscreet.state_of_running
  | ended _ =>
    rw [← hplace, Function.update_eq_self]
    exact hinv.of_frame rfl (fun _ => rfl) fun _ h => h
  | finish _ =>
    rw [← hplace, Function.update_eq_self]
    refine hinv.of_frame (by simp) (by simp) fun i h => ?_
    rw [registry_endRebuild, RebuildRegistry.state_markFinished] at h
    split at h
    · simp at h
    · exact h
  | find hfind =>
    refine hinv.of_place ?_ (by simp [hplace, LockPlace.holds?]) (by simp [hplace, LockPlace.work?])
      (by simp [LockPlace.trusts?])
    intro i n h
    obtain ⟨rfl, rfl⟩ := by simpa [LockPlace.knows?] using h
    exact hfind
  | make =>
    refine (hinv.of_make _).of_place ?_ (by simp [hplace, LockPlace.holds?])
      (by simp [hplace, LockPlace.work?]) (by simp [LockPlace.trusts?])
    intro i n h
    obtain ⟨rfl, rfl⟩ := by simpa [LockPlace.knows?] using h
    exact s.locks.find?_findOrMake _
  | acquire hfree => exact hinv.of_acquire hplace hfree
  | look hok =>
    refine hinv.of_place ?_ (by simp [hplace, LockPlace.holds?]) (by simp [hplace, LockPlace.work?])
      ?_
    · intro i n h
      exact hinv.known t i n (by rw [hplace]; exact h)
    · intro i h
      obtain rfl := by simpa [LockPlace.trusts?] using h
      simp [hok]
  | start =>
    rw [← hplace, Function.update_eq_self]
    exact hinv.of_start hplace
  | beginApply hsaw =>
    refine hinv.of_begin hplace (fun i list => rfl) ?_
    intro i h
    simp only [LockPlace.trusts?] at h
    split at h <;> simp_all [LockPlace.trusts?]
  | endApply => exact hinv.of_end hplace fun i list => rfl
  | beginClear => exact hinv.of_begin hplace (fun i list => rfl) (by simp [LockPlace.trusts?])
  | endClear => exact hinv.of_end hplace fun i list => rfl
  | release => exact hinv.of_release hplace

end LockInvariant

/-! ## Keeping to the protocol -/

section Conformance

open Service

variable {α : Type} {gated : Bool} {env : Environment S U C}

/-- Whatever is discreet leaves a thread at its place. -/
theorem lockClass (horacle : env.oracle = .registry) (hhandle : env.handle.IsDiscreet)
    (gated : Bool) {l : LockPlace} (hl : l.saw? = none) :
    ServiceClass env Discreet fun {_} a => a.Neutral (LockMove gated) l :=
  .of_discreet (.ofNeutral fun _ _ => .discreet hl) (fun _ _ h => h) horacle hhandle

/-- A thread is outside again after it has worked under the lock of an index. -/
theorem lockNeutral_withIndexLock {index : IndexId} {a : ServiceAction S C α}
    (ha : ∀ lock, a.program.Obeys (LockMove gated)
      (fun _ l => ∃ sawOk, l = .holding index lock sawOk) (.holding index lock false)) :
    (withIndexLock index a).Neutral (LockMove gated) .outside := by
  have hfound : ∀ lock, (do
      Action.await (fun s : ServiceState S C => s.locks.isFree lock)
        fun s => { s with locks := s.locks.acquire lock }
      a.ensuring (.update fun s => { s with locks := s.locks.release lock })).program.Obeys
        (LockMove gated) (fun _ l => l = LockPlace.outside) (.waiting index lock) := by
    intro lock
    refine Action.obeys_await_bind fun s hfree => ⟨_, .acquire hfree, ?_⟩
    refine Action.obeys_ensuring (ha lock) ?_
    intro r l hend s
    obtain ⟨sawOk, rfl⟩ := hend
    exact ⟨_, .release, rfl⟩
  have hfind : (findLock index : ServiceAction S C Nat).program.Obeys (LockMove gated)
      (fun r l => ∃ lock, r = .ok lock ∧ l = .waiting index lock) .outside := by
    refine Action.obeys_access_bind fun s => ?_
    dsimp only
    cases hfind : s.locks.find? index with
    | some lock => exact ⟨_, .find hfind, Action.obeys_pure ⟨lock, rfl, rfl⟩⟩
    | none =>
      exact ⟨_, .discreet rfl (Still.refl s).discreet,
        Action.obeys_access fun s => ⟨_, .make, _, rfl, rfl⟩⟩
  refine Action.obeys_bind_ok _ hfind ?_
  rintro lock _ rfl
  exact hfound lock

/-- Applying an update takes a thread that may do so through its work and back. -/
theorem obeys_applyUpdate (hhandle : env.handle.IsDiscreet) {origin : Origin}
    (update : PreparedUpdate U) {lock : Nat} {sawOk : Bool}
    (hsaw : gated = true → origin = .operation → sawOk = true) :
    (env.applyUpdate origin update).program.Obeys (LockMove gated)
      (fun _ l => l = .holding update.index lock false) (.holding update.index lock sawOk) := by
  refine Action.obeys_access_bind fun s => ⟨_, .beginApply hsaw, ?_⟩
  refine Action.obeys_outcome_bind
    (fun _ l => l = .working update.index lock (.apply update.input origin))
    ((hhandle.apply update).obeys (fun _ _ => .discreet rfl) fun _ => rfl) ?_
  intro r l heq
  subst heq
  exact Action.obeys_access_bind fun s => ⟨_, .endApply, Action.obeys_resume rfl⟩

/-- An operation applies its update only if it sees the gate open under the lock. -/
theorem lockNeutral_runUpdateUnless (horacle : env.oracle = .registry)
    (hhandle : env.handle.IsDiscreet) (update : PreparedUpdate U) :
    (env.runUpdateUnless .operation update env.isGated).Neutral
      (LockMove !env.config.testMode) .outside := by
  refine lockNeutral_withIndexLock fun lock => ?_
  have happly : ∀ sawOk, ((!env.config.testMode) = true → sawOk = true) →
      (some <$> env.applyUpdate .operation update).program.Obeys (LockMove !env.config.testMode)
        (fun _ l => ∃ sawOk, l = .holding update.index lock sawOk)
        (.holding update.index lock sawOk) := fun sawOk hsaw =>
    Action.obeys_map ((obeys_applyUpdate hhandle update fun hgated _ => hsaw hgated).mono
      fun _ _ hl => ⟨false, hl⟩)
  refine Environment.obeys_isGated_bind horacle ?_ ?_ ?_
  · intro htest
    exact happly false (by simp [htest])
  · intro _ s hok
    exact ⟨.holding update.index lock true, .look hok, happly true fun _ => rfl⟩
  · intro s _
    exact ⟨.holding update.index lock false, .discreet rfl (Still.refl s).discreet,
      Action.obeys_pure ⟨false, rfl⟩⟩

/-- A rebuild claims its index and clears it under the lock. -/
theorem lockNeutral_claimAndClear (horacle : env.oracle = .registry)
    (hhandle : env.handle.IsDiscreet) (index : IndexId) :
    (env.claimAndClear index).Neutral (LockMove gated) .outside := by
  refine lockNeutral_withIndexLock fun lock => ?_
  have hP := lockClass horacle hhandle gated (l := .holding index lock false) rfl
  have hclear : (env.clearIndex index).Neutral (LockMove gated) (.holding index lock false) := by
    refine Action.obeys_access_bind fun s => ⟨_, .beginClear, ?_⟩
    refine Action.obeys_outcome_bind (fun _ l => l = .working index lock .clear)
      ((hhandle.clear index).obeys (fun _ _ => .discreet rfl) fun _ => rfl) ?_
    intro r l heq
    subst heq
    exact Action.obeys_access_bind fun s => ⟨_, .endClear, Action.obeys_resume rfl⟩
  have hstart : (env.oracle.start index).Neutral (LockMove gated) (.holding index lock false) :=
    hP.mem_start (Action.obeys_access fun s => ⟨_, .start, rfl⟩)
  refine Program.Obeys.mono (hP.bind hstart fun started => ?_) fun _ _ hl => ⟨false, hl⟩
  split
  · refine hP.bind (hP.access fun s => ?_) fun run => hP.bind (hP.outcome ?_) fun _ => hP.pure _
    · exact .quiet [.rebuildBegan index s.runs] rfl (fun _ => rfl) (by simp; rfl) rfl
    · exact hP.mem_withStructuralLock hclear
  · exact hP.pure none

/-- A rebuild leaves its thread outside, if putting the files back does. -/
theorem lockNeutral_rebuildIndex (horacle : env.oracle = .registry)
    (hhandle : env.handle.IsDiscreet) (index : IndexId) {repopulate : ServiceAction S C Unit}
    (hrepopulate : repopulate.Neutral (LockMove gated) .outside) :
    (env.rebuildIndex index repopulate).Neutral (LockMove gated) .outside := by
  have hP := lockClass horacle hhandle gated (l := .outside) rfl
  have hfinish : (env.oracle.finish index).Neutral (LockMove gated) .outside :=
    hP.mem_finish (Action.obeys_access fun s => ⟨_, .finish rfl, rfl⟩)
  exact hP.calls.mem_rebuildIndex (lockNeutral_claimAndClear horacle hhandle index) hfinish
    (fun run answer => Action.obeys_access fun s => ⟨_, .ended rfl, rfl⟩) hrepopulate

/-- An operation leaves its thread outside. -/
theorem lockNeutral_execute (horacle : env.oracle = .registry) (hhandle : env.handle.IsDiscreet)
    (op : Operation) : (env.execute op).Neutral (LockMove !env.config.testMode) .outside :=
  (lockClass horacle hhandle (!env.config.testMode) (l := .outside) rfl).work.mem_execute
    (lockNeutral_runUpdateUnless horacle hhandle) op

/-- Every command keeps to the protocol of the locks. -/
theorem lockNeutral_runAll (horacle : env.oracle = .registry) (hhandle : env.handle.IsDiscreet)
    (commands : List Command) :
    (Command.runAll env none commands).Neutral (LockMove !env.config.testMode) .outside := by
  have hP := lockClass horacle hhandle (!env.config.testMode) (l := .outside) rfl
  have hcommands : CommandClass env (fun _ => True) Discreet
      fun {_} a => a.Neutral (LockMove !env.config.testMode) .outside := {
    hP.toActionClass with
    still := fun _ _ h => h.discreet
    execute := lockNeutral_execute horacle hhandle
    request := hP.calls.request
    rebuild := fun index _ => lockNeutral_rebuildIndex horacle hhandle index
    indexFile := hP.work.mem_indexFile fun update => lockNeutral_withIndexLock fun lock =>
      (obeys_applyUpdate hhandle update (by simp)).mono fun _ _ hl => ⟨false, hl⟩
    indexingState := hP.work.mem_indexingState }
  exact hcommands.mem_runAll none commands
    (Command.rebuildsOnlyAll_of_forall (fun _ => trivial) commands)

end Conformance

/-! ## All interleavings -/

/-- At most one piece of work on an index is in progress where the invariant holds. -/
theorem LockInvariant.length_workInProgress_le {gated : Bool} {s : ServiceState S C}
    {place : Nat → LockPlace} (hinv : LockInvariant gated s place) (index : IndexId) :
    (workInProgress index s.journal).length ≤ 1 := by
  by_cases hwork : ∃ t work, (place t).work? = some (index, work)
  · obtain ⟨t, work, ht⟩ := hwork
    simp [hinv.working t index work ht]
  · have hidle := hinv.idle index fun t work ht => hwork ⟨t, work, ht⟩
    simp [hidle]

/-- No operation is being applied to an index that is being rebuilt where the invariant holds. -/
theorem LockInvariant.apply_notMem_workInProgress {s : ServiceState S C} {place : Nat → LockPlace}
    (hinv : LockInvariant true s place) {index : IndexId}
    (hrunning : s.registry.state index = .running) (input : InputId) :
    .apply input .operation ∉ workInProgress index s.journal := by
  intro hmem
  by_cases hwork : ∃ t work, (place t).work? = some (index, work)
  · obtain ⟨t, work, ht⟩ := hwork
    rw [hinv.working t index work ht, List.mem_singleton] at hmem
    subst hmem
    refine hinv.trusted t index ?_ hrunning
    cases hplace : place t <;> simp_all [LockPlace.work?, LockPlace.trusts?]
  · have hidle := hinv.idle index fun t work ht => hwork ⟨t, work, ht⟩
    simp [hidle] at hmem

/-- Threads that keep to the protocol, from a service at rest, always keep the invariant. -/
theorem exists_lockInvariant {α : Type} {gated : Bool} {p q : Pool (ServiceState S C) α} {h : Trace}
    (hp : ∀ t ∈ p.threads, t.Obeys (LockMove gated) (fun _ l => l = .outside) .outside)
    (hs : p.state.AtRest) (htrace : p.Traced h q) :
    ∃ place, LockInvariant gated q.state place := by
  obtain ⟨place, hinv, -⟩ := Pool.Traced.invariant (fun _ => LockInvariant gated)
    (fun i t ht => hp t (List.mem_of_getElem? ht)) (hs.lockInvariant gated)
    (fun _ _ hinv hmove => hinv.step hmove) htrace
  exact ⟨place, hinv⟩

/-- In every interleaving of threads that execute operations, request rebuilds and rebuild indices,
at most one application of an update to an index or clearing of it is in progress at any moment,
and no application on behalf of an operation is in progress while the index is being rebuilt. -/
theorem storageWork_exclusive (env : Environment S U C) (horacle : env.oracle = .registry)
    (hhandle : env.handle.IsDiscreet) (htest : env.config.testMode = false)
    (s : ServiceState S C) (hs : s.AtRest) (commands : List (List Command))
    (q : Pool (ServiceState S C) (Except Failure Unit))
    (hq : (env.threads s commands).Reaches q) (index : IndexId) :
    (workInProgress index q.state.journal).length ≤ 1 ∧
      (q.state.registry.state index = .running → ∀ input,
        .apply input .operation ∉ workInProgress index q.state.journal) := by
  obtain ⟨h, htrace⟩ := Pool.traced_of_reaches hq
  have hthreads : ∀ t ∈ (env.threads s commands).threads,
      t.Obeys (LockMove !env.config.testMode) (fun _ l => l = .outside) .outside := by
    intro t ht
    obtain ⟨list, -, rfl⟩ := List.mem_map.1 ht
    exact lockNeutral_runAll horacle hhandle list
  obtain ⟨place, hinv⟩ := exists_lockInvariant hthreads hs htrace
  rw [htest] at hinv
  exact ⟨hinv.length_workInProgress_le index, hinv.apply_notMem_workInProgress⟩

/-- A thread is applying an update when another one asks for a rebuild of the index. -/
def Sample.overlapped : Pool (ServiceState (MemoryIndex Nat Nat) Unit) (Except Failure Unit) :=
  (Sample.environment.threads Sample.state
    [[.execute (.update Sample.sizes (Sample.content 3) ⟨1⟩ .synchronous)],
      [.request Sample.sizes ⟨"damage"⟩, .rebuild Sample.sizes []]]).follow
    (List.replicate 12 0 ++ List.replicate 20 1)

theorem storageWork_exclusive_overlapped :
    workInProgress Sample.sizes Sample.overlapped.state.journal = [.apply ⟨1⟩ .operation] ∧
    (workInProgress Sample.sizes Sample.overlapped.state.journal).length ≤ 1 ∧
      (Sample.overlapped.state.registry.state Sample.sizes = .running → ∀ input,
        .apply input .operation ∉ workInProgress Sample.sizes Sample.overlapped.state.journal) := by
  refine ⟨by decide +kernel, ?_⟩
  exact storageWork_exclusive Sample.environment rfl (Handle.isDiscreet_ofStores _) rfl
    Sample.state (atRest_ofStores _ _ _ _) _ Sample.overlapped (Pool.reaches_follow _ _) _

end FileIndexing
