import FileIndexing.Proofs.Writer
import Mathlib.Data.List.Nodup
import Mathlib.Data.List.Perm.Basic

/-!
# Operations take effect one after the other

Operations that run beside each other on indices in memory take effect in the order in which their
applications end, as if they had been executed one after the other.

* `Trace.appliers` is this order, and `performed` is what the operations come to in it.
* `WriterInvariant` relates the shared state, the trace and the places of all operations.  `Roster`
  is about the marks and what each operation knows of the start, `Turns` about who is applying,
  `Ledger` about the outcomes, and `Agreement` about the storage, which may differ from that of
  `performed` only where an operation is half done.  `WriterInvariant.step` says that every move
  keeps all of them.
* `execute_linearizable` is the result: executed alone in this order the operations have the same
  outcomes and come to the same storage.
-/

namespace FileIndexing

open ServiceState

/-! ## The order of the applications -/

/-- The threads that applied an update, in the order in which their applications ended. -/
def Trace.appliers (h : Trace) : List Nat :=
  ((h.filter fun x => x.2.applied?.isSome).map (·.1)).reverse

theorem Trace.appliers_cons {event : Event} (hevent : event.applied?.isSome = true) (t : Nat)
    (h : Trace) : Trace.appliers ((t, event) :: h) = h.appliers ++ [t] := by
  simp [Trace.appliers, hevent]

variable {K V C : Type} [Ord K]

namespace ServiceState.Unworked

variable {s t : MemoryState K V C}

theorem appliers_extend (hquiet : s.Unworked t) (h : Trace) (i : Nat) :
    (h.extend i s t).appliers = h.appliers := by
  obtain ⟨events, hevents, hjournal⟩ := hquiet
  rw [Trace.extend_of_journal events hjournal]
  have hnone : ∀ event ∈ events, event.applied?.isSome = false := by
    intro event hmem
    have := hevents event hmem
    cases event <;> simp_all [Event.isWork, Event.applied?]
  have hfilter : (events.map fun event => (i, event)).filter
      (fun x => x.2.applied?.isSome) = [] := by
    simp only [List.filter_eq_nil_iff, List.mem_map]
    intro _ hend
    obtain ⟨event, hmem, rfl⟩ := hend
    simp [hnone event hmem]
  unfold Trace.appliers
  rw [List.filter_append, hfilter, List.nil_append]

theorem workInProgress_eq (hquiet : s.Unworked t) (index : IndexId) :
    workInProgress index t.journal = workInProgress index s.journal := by
  obtain ⟨events, hevents, hjournal⟩ := hquiet
  rw [hjournal]
  clear hjournal
  induction events with
  | nil => rfl
  | cons event rest ih =>
    rw [List.cons_append, workInProgress_cons, ih fun e he => hevents e (by simp [he])]
    have hevent := hevents event (by simp)
    cases event <;> simp_all [Event.isWork, Event.updateWork]

end ServiceState.Unworked

theorem appliers_extend_put (h : Trace) (i : Nat) (s : MemoryState K V C) (index : IndexId)
    (m : MemoryIndex K V) : (h.extend i s (s.put index m)).appliers = h.appliers :=
  (Unworked.of_eq rfl).appliers_extend h i

/-! ## The invariant -/

section Invariant

variable [Std.TransOrd K] [BEq V]

/-- What an operation at a place knows about itself for the whole time, given the state in which
all operations began. -/
def WriterPlace.Fits (indexers : IndexId → Indexer K V) (start : MemoryState K V C)
    (op : Operation) : WriterPlace → Prop
  | .waiting | .spoilt _ => True
  | .admitted | .marked => start.stores.contains op.index = true
  | .telling failure listeners =>
    start.stores.contains op.index = true ∧
      op.mapped indexers = .error (.error (.mapping failure)) ∧ listeners = start.listeners
  | .begun | .replaced _ | .applied _ | .settled =>
    start.stores.contains op.index = true ∧ ∃ data, op.mapped indexers = .ok data
  | .left outcome =>
    (start.stores.contains op.index = true → op.IsHarmless indexers start.listeners) ∧
      ((∃ changed, outcome = .applied changed) ∨
        ∀ stores : Stores K V, (∀ index, stores.contains index = start.stores.contains index) →
          op.perform indexers stores = (outcome, stores))

/-- The mark that each of some operations holds. -/
def heldMark? (op : Nat → Operation) (place : Nat → WriterPlace) (t : Nat) : Option WriteMark :=
  if (place t).isHolding then some (op t).mark else none

/-- What the shared state and each operation for itself have to do with the start. -/
structure Roster (indexers : IndexId → Indexer K V) (op : Nat → Operation)
    (start : MemoryState K V C) (count : Nat) (s : MemoryState K V C) (place : Nat → WriterPlace) :
    Prop where
  marks : MarksHeld s.marks (heldMark? op place)
  listeners : s.listeners = start.listeners
  registered : ∀ index, s.stores.contains index = start.stores.contains index
  states : ∀ index, s.registry.state index = .ok → start.registry.state index = .ok
  fits : ∀ t, (place t).Fits indexers start (op t)
  spoilt : ∀ t holding, place t = .spoilt holding → s.registry.state (op t).index ≠ .ok
  absent : ∀ t, count ≤ t → place t = .waiting

/-- At most one operation is applying an update to an index. -/
structure Turns (op : Nat → Operation) (s : MemoryState K V C) (place : Nat → WriterPlace) :
    Prop where
  applying : ∀ t, (place t).isApplying = true → workInProgress (op t).index s.journal ≠ []
  sole : ∀ t u, (place t).isApplying = true → (place u).isApplying = true →
    (op t).index = (op u).index → t = u

/-- The outcomes and the storage after the operations that have been applied, had they been
executed one after the other. -/
def performed (indexers : IndexId → Indexer K V) (op : Nat → Operation) (stores : Stores K V)
    (h : Trace) : List Outcome × Stores K V :=
  performAll indexers (h.appliers.map op) stores

/-- The operations that have been applied have the outcomes that they would have had then. -/
structure Ledger (indexers : IndexId → Indexer K V) (op : Nat → Operation) (stores : Stores K V)
    (h : Trace) (place : Nat → WriterPlace) : Prop where
  appliers : ∀ t, t ∈ h.appliers ↔ (place t).hasApplied = true
  nodup : h.appliers.Nodup
  outcomes : (performed indexers op stores h).1.map some =
    h.appliers.map fun t => (place t).outcome?

/-- The storage is what it would be then, except that an operation may have replaced data before
the end of its application and may still have to note the indexing state of its input. -/
structure Agreement (indexers : IndexId → Indexer K V) (op : Nat → Operation)
    (stores : Stores K V) (h : Trace) (s : MemoryState K V C) (place : Nat → WriterPlace) :
    Prop where
  data : ∀ index, (∀ t changed, place t = .replaced changed → (op t).index ≠ index) →
    (storeAt s.stores index).data = (storeAt (performed indexers op stores h).2 index).data
  replaced : ∀ t changed data, place t = .replaced changed → (op t).mapped indexers = .ok data →
    ∀ r, (storeAt (performed indexers op stores h).2 (op t).index).data.replace (op t).input data =
      r → changed = r.1 ∧ (storeAt s.stores (op t).index).data = r.2
  settled : ∀ index input, (∀ t, place t = .applied true → (op t).mark ≠ ⟨index, input⟩) →
    (storeAt s.stores index).state input =
      (storeAt (performed indexers op stores h).2 index).state input
  unsettled : ∀ t, place t = .applied true →
    (storeAt (performed indexers op stores h).2 (op t).index).state (op t).input =
      (op t).settledState

variable {indexers : IndexId → Indexer K V} {op : Nat → Operation} {start s s' : MemoryState K V C}
  {count : Nat} {place : Nat → WriterPlace} {t : Nat} {l : WriterPlace}

/-! ### Marks, and what stays as it was -/

theorem heldMark?_update (op : Nat → Operation) (place : Nat → WriterPlace) (t : Nat)
    (l : WriterPlace) :
    heldMark? op (Function.update place t l) =
      Function.update (heldMark? op place) t (if l.isHolding then some (op t).mark else none) := by
  funext u
  by_cases hut : u = t
  · subst hut
    simp [heldMark?]
  · simp [heldMark?, hut]

omit [Std.TransOrd K] [BEq V] in
theorem MarksHeld.of_holding (hinv : MarksHeld s.marks (heldMark? op place))
    (hmarks : s'.marks = s.marks) (hl : l.isHolding = (place t).isHolding) :
    MarksHeld s'.marks (heldMark? op (Function.update place t l)) := by
  have hheld : Function.update (heldMark? op place) t
      (if (place t).isHolding then some (op t).mark else none) = heldMark? op place :=
    Function.update_eq_self t _
  rwa [heldMark?_update, hl, hheld, hmarks]

omit [Std.TransOrd K] [BEq V] in
theorem MarksHeld.release_mark (hinv : MarksHeld s.marks (heldMark? op place))
    (hplace : (place t).isHolding = true) (hl : l.isHolding = false) :
    MarksHeld (s.marks.release (op t).mark) (heldMark? op (Function.update place t l)) := by
  have hheld : heldMark? op place t = some (op t).mark := by simp [heldMark?, hplace]
  simpa [heldMark?_update, hl] using hinv.release hheld

theorem WriterPlace.Concludes.isHolding {l : WriterPlace} {outcome : Outcome}
    (h : l.Concludes outcome) : l.isHolding = true := by
  cases h <;> rfl

/-- An operation that concludes knows its outcome for sure. -/
theorem WriterPlace.Concludes.fits {op : Operation} {l : WriterPlace} {outcome : Outcome}
    (h : l.Concludes outcome) (hfits : l.Fits indexers start op) :
    WriterPlace.Fits indexers start op (.left outcome) := by
  cases h with
  | unchanged => exact ⟨fun _ => .inl hfits.2, .inl ⟨false, rfl⟩⟩
  | changed => exact ⟨fun _ => .inl hfits.2, .inl ⟨true, rfl⟩⟩
  | refused hquiet =>
    obtain ⟨hregistered, hmapped, rfl⟩ := hfits
    refine ⟨fun _ => .inr ⟨⟨_, hmapped⟩, hquiet⟩, .inr fun stores hstores => ?_⟩
    rw [Operation.perform, if_pos ((hstores _).trans hregistered), hmapped]

/-- The state and the place of one operation change, with regard to the start. -/
theorem Roster.of_move (hinv : Roster indexers op start count s place) (ht : t < count)
    (hmarks : MarksHeld s'.marks (heldMark? op (Function.update place t l)))
    (hlisteners : s'.listeners = s.listeners)
    (hregistered : ∀ index, s'.stores.contains index = s.stores.contains index)
    (hstates : ∀ index, s'.registry.state index = .ok → s.registry.state index = .ok)
    (hfits : l.Fits indexers start (op t))
    (hspoilt : ∀ holding, l = .spoilt holding → s'.registry.state (op t).index ≠ .ok) :
    Roster indexers op start count s' (Function.update place t l) where
  marks := hmarks
  listeners := hlisteners.trans hinv.listeners
  registered index := (hregistered index).trans (hinv.registered index)
  states index hok := hinv.states index (hstates index hok)
  fits u := by
    by_cases hut : u = t
    · subst hut
      simpa using hfits
    · simpa [hut] using hinv.fits u
  spoilt u holding hu := by
    by_cases hut : u = t
    · subst hut
      exact hspoilt holding (by simpa using hu)
    · intro hok
      exact hinv.spoilt u holding (by simpa [hut] using hu) (hstates _ hok)
  absent u hu := by
    have hut : u ≠ t := by omega
    simpa [hut] using hinv.absent u hu

omit [Std.TransOrd K] [BEq V] in
theorem contains_put {index : IndexId} (hregistered : s.stores.contains index = true)
    (m : MemoryIndex K V) (other : IndexId) :
    (s.put index m).stores.contains other = s.stores.contains other := by
  by_cases hindex : index = other
  · rw [← hindex, hregistered]
    simp
  · simp [hindex]

/-- Every move keeps the roster. -/
theorem Roster.step (hinv : Roster indexers op start count s place) (ht : t < count)
    (hmove : WriterMove indexers (op t) (place t) s l s') :
    Roster indexers op start count s' (Function.update place t l) := by
  have hfits := hinv.fits t
  have hspoilt := hinv.spoilt t
  generalize hplace : place t = l₀ at hmove hfits hspoilt
  cases hmove with
  | backstage hsame =>
    refine hinv.of_move ht (hinv.marks.of_holding hsame.marks (by rw [hplace])) hsame.listeners
      (fun index => by rw [hsame.stores]) hsame.states hfits ?_
    intro holding hl hok
    exact hspoilt holding hl (hsame.states _ hok)
  | skip hclosed =>
    exact hinv.of_move ht (hinv.marks.of_holding rfl (by rw [hplace]; rfl)) rfl (fun _ => rfl)
      (fun _ hok => hok) trivial fun _ _ => hclosed
  | miss hmissing =>
    have hmissing' : start.stores.contains (op t).index = false := by
      rw [← hinv.registered, hmissing]
    refine hinv.of_move ht (hinv.marks.of_holding rfl (by rw [hplace]; rfl)) rfl (fun _ => rfl)
      (fun _ hok => hok) ⟨by simp [hmissing'], .inr fun stores hstores => ?_⟩ (by simp)
    exact if_neg (by rw [hstores, hmissing']; simp)
  | enter hregistered =>
    have hregistered' : start.stores.contains (op t).index = true := by
      rw [← hinv.registered, hregistered]
    exact hinv.of_move ht (hinv.marks.of_holding rfl (by rw [hplace]; rfl)) rfl (fun _ => rfl)
      (fun _ hok => hok) hregistered' (by simp)
  | take hfree =>
    refine hinv.of_move ht ?_ rfl (fun _ => rfl) (fun _ hok => hok) hfits (by simp)
    rw [heldMark?_update]
    exact hinv.marks.take hfree
  | tell hmapped =>
    exact hinv.of_move ht (hinv.marks.of_holding rfl (by rw [hplace]; rfl)) rfl (fun _ => rfl)
      (fun _ hok => hok) ⟨hfits, hmapped, hinv.listeners⟩ (by simp)
  | drop hclosed =>
    exact hinv.of_move ht (hinv.marks.of_holding rfl (by rw [hplace]; rfl)) rfl (fun _ => rfl)
      (fun _ hok => hok) trivial fun _ _ => hclosed
  | fault hholding happlying houtcome =>
    have hsame := Backstage.request s (op t).index
    refine hinv.of_move ht (hinv.marks.of_holding hsame.marks (by rw [hplace, hholding]; rfl))
      hsame.listeners (fun index => by rw [hsame.stores]) hsame.states trivial fun _ _ => ?_
    simp [RebuildRegistry.state_markRequired]
  | begin hdata =>
    exact hinv.of_move ht (hinv.marks.of_holding rfl (by rw [hplace]; rfl)) rfl (fun _ => rfl)
      (fun _ hok => hok) ⟨hfits, _, hdata⟩ (by simp)
  | replace hdata hm =>
    have hregistered : s.stores.contains (op t).index = true := by
      rw [hinv.registered, hfits.1]
    exact hinv.of_move ht (hinv.marks.of_holding rfl (by rw [hplace]; rfl)) rfl
      (contains_put hregistered _) (fun _ hok => hok) hfits (by simp)
  | finish =>
    exact hinv.of_move ht (hinv.marks.of_holding rfl (by rw [hplace]; rfl)) rfl (fun _ => rfl)
      (fun _ hok => hok) hfits (by simp)
  | settle =>
    have hregistered : s.stores.contains (op t).index = true := by
      rw [hinv.registered, hfits.1]
    exact hinv.of_move ht (hinv.marks.of_holding rfl (by rw [hplace]; rfl)) rfl
      (contains_put hregistered _) (fun _ hok => hok) hfits (by simp)
  | leave hconcludes =>
    refine hinv.of_move ht (hinv.marks.release_mark ?_ rfl) rfl (fun _ => rfl)
      (fun _ hok => hok) (hconcludes.fits hfits) (by simp)
    rw [hplace]
    exact hconcludes.isHolding
  | release =>
    exact hinv.of_move ht (hinv.marks.release_mark (by rw [hplace]; rfl) rfl) rfl (fun _ => rfl)
      (fun _ hok => hok) trivial fun _ _ => hspoilt true rfl

/-! ### Turns -/

omit [Std.TransOrd K] [BEq V] in
/-- No application begins or ends. -/
theorem Turns.of_unworked (hinv : Turns op s place) (hquiet : s.Unworked s')
    (hl : l.isApplying = true → (place t).isApplying = true) :
    Turns op s' (Function.update place t l) := by
  have happlying : ∀ u, (Function.update place t l u).isApplying = true →
      (place u).isApplying = true := by
    intro u hu
    grind [Function.update_apply]
  exact ⟨fun u hu => by rw [hquiet.workInProgress_eq]; exact hinv.applying u (happlying u hu),
    fun u v hu hv => hinv.sole u v (happlying u hu) (happlying v hv)⟩

omit [Std.TransOrd K] [BEq V] in
/-- An operation begins to apply its update; nothing else is in progress on its index then. -/
theorem Turns.begin (hinv : Turns op s place)
    (hexclusive : (workInProgress (op t).index
      (s.note (.applyBegan (op t).index (op t).input .operation)).journal).length ≤ 1) :
    Turns op (s.note (.applyBegan (op t).index (op t).input .operation))
      (Function.update place t .begun) := by
  have hidle : workInProgress (op t).index s.journal = [] := by
    simpa [Event.updateWork] using hexclusive
  have hother : ∀ u, (place u).isApplying = true → (op u).index ≠ (op t).index := by
    intro u hu hindex
    exact hinv.applying u hu (by rw [hindex, hidle])
  refine ⟨fun u hu => ?_, fun u v hu hv hindex => ?_⟩
  · by_cases hut : u = t
    · simp [hut, Event.updateWork]
    · have hu' : (place u).isApplying = true := by simpa [hut] using hu
      simpa [Event.updateWork, Ne.symm (hother u hu')] using hinv.applying u hu'
  · rw [Function.update_apply] at hu hv
    split at hu <;> split at hv
    · next hut hvt => rw [hut, hvt]
    · next hut _ => exact absurd (hut ▸ hindex.symm) (hother v hv)
    · next _ hvt => exact absurd (hvt ▸ hindex) (hother u hu)
    · exact hinv.sole u v hu hv hindex

omit [Std.TransOrd K] [BEq V] in
/-- An operation ends its application, which leaves those to other indices in progress. -/
theorem Turns.finish (hinv : Turns op s place) {changed : Bool}
    (hplace : place t = .replaced changed) (event : Event)
    (hevent : event = .applyEnded (op t).index (op t).input .operation (some changed)) :
    Turns op (s.note event) (Function.update place t (.applied changed)) := by
  have happlying : ∀ u, (Function.update place t (.applied changed) u).isApplying = true →
      u ≠ t ∧ (place u).isApplying = true := by
    intro u hu
    grind [Function.update_apply, WriterPlace.isApplying]
  refine ⟨fun u hu => ?_, fun u v hu hv => hinv.sole u v (happlying u hu).2 (happlying v hv).2⟩
  obtain ⟨hut, hu'⟩ := happlying u hu
  have hother : (op t).index ≠ (op u).index := by
    intro hindex
    exact hut (hinv.sole u t hu' (by rw [hplace]; rfl) hindex.symm)
  simpa [hevent, Event.updateWork, hother] using hinv.applying u hu'

/-- Every move keeps the turns, if no two pieces of work on an index are in progress after it. -/
theorem Turns.step (hinv : Turns op s place)
    (hexclusive : ∀ index, (workInProgress index s'.journal).length ≤ 1)
    (hmove : WriterMove indexers (op t) (place t) s l s') :
    Turns op s' (Function.update place t l) := by
  generalize hplace : place t = l₀ at hmove
  cases hmove with
  | backstage hsame => exact hinv.of_unworked hsame.unworked (by simp [hplace])
  | begin => exact hinv.begin (hexclusive _)
  | finish => exact hinv.finish hplace _ rfl
  | fault =>
    exact hinv.of_unworked (Backstage.request s (op t).index).unworked
      (by simp [WriterPlace.isApplying])
  | replace => exact hinv.of_unworked (.of_eq rfl) (by simp [WriterPlace.isApplying, hplace])
  | _ => exact hinv.of_unworked (.of_eq rfl) (by simp [WriterPlace.isApplying])

/-! ### Outcomes -/

variable {stores : Stores K V} {h h' : Trace}

theorem performed_of_appliers (happliers : h'.appliers = h.appliers) :
    performed indexers op stores h' = performed indexers op stores h := by
  unfold performed
  rw [happliers]

theorem performed_of_finish (happliers : h'.appliers = h.appliers ++ [t]) :
    performed indexers op stores h' = ((performed indexers op stores h).1 ++
        [((op t).perform indexers (performed indexers op stores h).2).1],
      ((op t).perform indexers (performed indexers op stores h).2).2) := by
  unfold performed
  rw [happliers, List.map_append, performAll_append]
  rfl

/-- No application ends. -/
theorem Ledger.of_same (hinv : Ledger indexers op stores h place)
    (happliers : h'.appliers = h.appliers)
    (houtcome : l.outcome? = (place t).outcome? ∨
      l.hasApplied = false ∧ (place t).hasApplied = false) :
    Ledger indexers op stores h' (Function.update place t l) where
  appliers u := by
    have happlied : l.hasApplied = (place t).hasApplied := by
      rcases houtcome with houtcome | ⟨hl, ht⟩
      · unfold WriterPlace.hasApplied
        rw [houtcome]
      · rw [hl, ht]
    rw [happliers, hinv.appliers]
    by_cases hut : u = t
    · subst hut
      simp [happlied]
    · simp [hut]
  nodup := happliers ▸ hinv.nodup
  outcomes := by
    rw [performed_of_appliers happliers, happliers, hinv.outcomes]
    refine List.map_congr_left fun u hu => ?_
    by_cases hut : u = t
    · subst hut
      have happlied := (hinv.appliers u).1 hu
      rcases houtcome with houtcome | ⟨-, ht⟩
      · simp [houtcome]
      · simp [ht] at happlied
    · simp [hut]

/-- An application ends, with the outcome that it would have. -/
theorem Ledger.finish (hinv : Ledger indexers op stores h place) {changed : Bool}
    (hplace : place t = .replaced changed) (happliers : h'.appliers = h.appliers ++ [t])
    (houtcome : ((op t).perform indexers (performed indexers op stores h).2).1 =
      .applied changed) :
    Ledger indexers op stores h' (Function.update place t (.applied changed)) := by
  have hnot : t ∉ h.appliers := by
    rw [hinv.appliers, hplace]
    simp [WriterPlace.hasApplied, WriterPlace.outcome?]
  constructor
  · intro u
    rw [happliers, List.mem_append, List.mem_singleton, hinv.appliers]
    by_cases hut : u = t
    · subst hut
      simp [WriterPlace.hasApplied, WriterPlace.outcome?]
    · simp [hut]
  · rw [happliers]
    refine hinv.nodup.append (List.nodup_singleton t) ?_
    simpa using hnot
  · rw [performed_of_finish happliers, houtcome, happliers, List.map_append, List.map_append,
      hinv.outcomes]
    congr 1
    · refine List.map_congr_left fun u hu => ?_
      have hut : u ≠ t := by
        intro heq
        subst heq
        exact hnot hu
      simp [hut]
    · simp [WriterPlace.outcome?]

/-! ### Agreement -/

theorem update_eq_iff {l' : WriterPlace} (h : l = l' ↔ place t = l') (u : Nat) :
    Function.update place t l u = l' ↔ place u = l' := by
  by_cases hut : u = t
  · subst hut
    simpa using h
  · simp [hut]

/-- No data and no indexing states change, and no application ends. -/
theorem Agreement.of_same (hinv : Agreement indexers op stores h s place)
    (hstores : s'.stores = s.stores) (happliers : h'.appliers = h.appliers)
    (hreplaced : ∀ changed, l = .replaced changed ↔ place t = .replaced changed)
    (hunsettled : l = .applied true ↔ place t = .applied true) :
    Agreement indexers op stores h' s' (Function.update place t l) := by
  have hreplaced' := fun u changed => update_eq_iff (hreplaced changed) u
  have hunsettled' := fun u => update_eq_iff hunsettled u
  constructor
  · simp only [hreplaced', hstores, performed_of_appliers happliers]
    exact hinv.data
  · simp only [hreplaced', hstores, performed_of_appliers happliers]
    exact hinv.replaced
  · simp only [hunsettled', hstores, performed_of_appliers happliers]
    exact hinv.settled
  · simp only [hunsettled', performed_of_appliers happliers]
    exact hinv.unsettled

/-- An operation that need not note an indexing state leaves that to the others. -/
theorem Agreement.unsettled_update (hinv : Agreement indexers op stores h s place)
    (happliers : h'.appliers = h.appliers) (hl : l ≠ .applied true) (u : Nat)
    (hu : Function.update place t l u = .applied true) :
    (storeAt (performed indexers op stores h').2 (op u).index).state (op u).input =
      (op u).settledState := by
  have hut : u ≠ t := by
    intro heq
    subst heq
    exact hl (by simpa using hu)
  rw [performed_of_appliers happliers]
  exact hinv.unsettled u (by rwa [Function.update_of_ne hut] at hu)

/-- An operation that is applying its update replaces the data of its input. -/
theorem Agreement.replace (hinv : Agreement indexers op stores h s place)
    (hturns : Turns op s place) (hplace : place t = .begun) {data : Mapping K V}
    (hdata : (op t).mapped indexers = .ok data) {m : MemoryIndex K V}
    (hm : storeAt s.stores (op t).index = m) (happliers : h'.appliers = h.appliers) :
    Agreement indexers op stores h' (s.put (op t).index (m.replace (op t).input data).2)
      (Function.update place t (.replaced (m.replace (op t).input data).1)) := by
  have hne : ∀ u l, place u = l → l ≠ .begun → u ≠ t := by
    intro u _ heq hl heq1
    subst heq
    subst heq1
    exact hl hplace
  have hother : ∀ u changed, place u = .replaced changed → (op t).index ≠ (op u).index := by
    intro u changed hu hindex
    refine hne u _ hu (by simp) (hturns.sole u t ?_ ?_ hindex.symm)
    · rw [hu]; rfl
    · rw [hplace]; rfl
  have hagree : m.data = (storeAt (performed indexers op stores h).2 (op t).index).data := by
    rw [← hm]
    exact hinv.data _ fun u changed hu hindex => hother u changed hu hindex.symm
  constructor
  · intro index hidle
    have hindex : (op t).index ≠ index :=
      hidle t (m.replace (op t).input data).1 (Function.update_self ..)
    rw [stores_put, storeAt_insert, if_neg hindex, performed_of_appliers happliers]
    refine hinv.data index fun u changed hu => hidle u changed ?_
    rw [Function.update_of_ne (hne u _ hu (by simp)), hu]
  · intro u changed data' hu hdata' r hr
    rw [performed_of_appliers happliers] at hr
    by_cases hut : u = t
    · subst hut
      obtain rfl : data = data' := by simpa [hdata] using hdata'
      obtain rfl : (m.replace (op u).input data).1 = changed := by simpa using hu
      rw [stores_put, storeAt_insert, if_pos rfl, ← hr, ← hagree]
      exact MemoryIndex.data_replace m _ _
    · rw [Function.update_of_ne hut] at hu
      rw [stores_put, storeAt_insert, if_neg (hother u changed hu)]
      exact hinv.replaced u changed data' hu hdata' r hr
  · intro index input hsettled
    have hstate : (storeAt (s.put (op t).index (m.replace (op t).input data).2).stores
        index).state input = (storeAt s.stores index).state input := by
      rw [stores_put, storeAt_insert]
      split
      · next hindex => rw [MemoryIndex.state_replace, ← hm, hindex]
      · rfl
    rw [hstate, performed_of_appliers happliers]
    refine hinv.settled index input fun u hu => hsettled u ?_
    rw [Function.update_of_ne (hne u _ hu (by simp)), hu]
  · exact hinv.unsettled_update happliers (by simp)

/-- An application ends; the operation may have to note the indexing state of its input now. -/
theorem Agreement.finish (hinv : Agreement indexers op stores h s place)
    (hturns : Turns op s place) (hmarks : MarksHeld s.marks (heldMark? op place)) {changed : Bool}
    (hplace : place t = .replaced changed) {data : Mapping K V}
    (hdata : (op t).mapped indexers = .ok data) (hstores : s'.stores = s.stores)
    (hperformed : (performed indexers op stores h').2 =
      (performed indexers op stores h).2.insert (op t).index
        ((op t).effect data (storeAt (performed indexers op stores h).2 (op t).index)).2)
    (hchanged : ((op t).effect data
      (storeAt (performed indexers op stores h).2 (op t).index)).1 = changed) :
    Agreement indexers op stores h' s' (Function.update place t (.applied changed)) := by
  obtain ⟨spec, hspec⟩ : ∃ spec, (performed indexers op stores h).2 = spec := ⟨_, rfl⟩
  rw [hspec] at hperformed hchanged
  have hother : ∀ u changed, u ≠ t → place u = .replaced changed →
      (op t).index ≠ (op u).index := by
    intro u changed hut hu hindex
    refine hut (hturns.sole u t ?_ ?_ hindex.symm)
    · rw [hu]; rfl
    · rw [hplace]; rfl
  have hreplaced := hinv.replaced t changed data hplace hdata _ rfl
  rw [hspec] at hreplaced
  constructor
  · intro index hidle
    rw [hstores, hperformed, storeAt_insert]
    split
    · next hindex =>
      rw [Operation.data_effect, ← hindex, hreplaced.2]
      exact (MemoryIndex.data_replace _ _ _).2.symm
    · next hindex =>
      rw [← hspec]
      refine hinv.data index fun u other hu => ?_
      by_cases hut : u = t
      · rwa [hut]
      · exact hidle u other (by rw [Function.update_of_ne hut, hu])
  · intro u other data' hu hdata' r hr
    have hut : u ≠ t := by
      intro heq
      subst heq
      simp at hu
    rw [Function.update_of_ne hut] at hu
    rw [hperformed, storeAt_insert, if_neg (hother u other hut hu), ← hspec] at hr
    rw [hstores]
    exact hinv.replaced u other data' hu hdata' r hr
  · intro index input hsettled
    have hold : (storeAt s.stores index).state input = (storeAt spec index).state input := by
      rw [← hspec]
      refine hinv.settled index input fun u hu => hsettled u ?_
      rw [Function.update_of_ne ?_, hu]
      intro heq
      subst heq
      simp [hplace] at hu
    rw [hstores, hperformed, storeAt_insert, hold]
    split
    · next hindex =>
      rw [Operation.state_effect, hchanged, if_neg ?_, hindex]
      intro hend
      obtain ⟨rfl, hinput⟩ := hend
      exact hsettled t (Function.update_self ..) (by rw [Operation.mark, hindex, hinput])
    · rfl
  · intro u hu
    rw [hperformed, storeAt_insert]
    by_cases hut : u = t
    · subst hut
      obtain rfl : changed = true := by simpa using hu
      rw [if_pos rfl, Operation.state_effect, if_pos ⟨hchanged, rfl⟩]
    · rw [Function.update_of_ne hut] at hu
      have hold := hinv.unsettled u hu
      rw [hspec] at hold
      split
      · next hindex =>
        rw [Operation.state_effect, if_neg ?_, hindex, hold]
        -- both would hold the mark of one pair
        intro hend
        obtain ⟨-, hinput⟩ := hend
        refine hut (hmarks.sole u t (op t).mark ?_ ?_)
        · simp [heldMark?, hu, WriterPlace.isHolding, Operation.mark, hindex, hinput]
        · simp [heldMark?, hplace, WriterPlace.isHolding]
      · exact hold

/-- An operation whose update changed the data notes the indexing state of its input. -/
theorem Agreement.settle (hinv : Agreement indexers op stores h s place)
    (hplace : place t = .applied true) (happliers : h'.appliers = h.appliers) :
    Agreement indexers op stores h'
      (s.put (op t).index ((op t).settle (storeAt s.stores (op t).index)))
      (Function.update place t .settled) := by
  have hdata : ∀ index, (storeAt (s.put (op t).index
      ((op t).settle (storeAt s.stores (op t).index))).stores index).data =
        (storeAt s.stores index).data := by
    intro index
    rw [stores_put, storeAt_insert]
    split
    · next hindex => rw [Operation.data_settle, hindex]
    · rfl
  have hreplaced : ∀ u changed, Function.update place t .settled u = .replaced changed ↔
      place u = .replaced changed := fun u _ => update_eq_iff (by simp [hplace]) u
  constructor
  · simp only [hreplaced, hdata, performed_of_appliers happliers]
    exact hinv.data
  · simp only [hreplaced, hdata, performed_of_appliers happliers]
    exact hinv.replaced
  · intro index input hsettled
    have hold := hinv.unsettled t hplace
    rw [stores_put, storeAt_insert, performed_of_appliers happliers]
    by_cases hmark : (op t).mark = ⟨index, input⟩
    · obtain ⟨rfl, rfl⟩ := WriteMark.mk.inj hmark
      rw [if_pos rfl, Operation.state_settle, if_pos rfl, hold]
    · have hsame := hinv.settled index input fun u hu => by
        by_cases hut : u = t
        · rwa [hut]
        · exact hsettled u (by rw [Function.update_of_ne hut, hu])
      split
      · next hindex =>
        rw [Operation.state_settle, if_neg ?_, hindex, hsame]
        intro heq
        subst heq
        exact hmark (by rw [Operation.mark, hindex])
      · exact hsame
  · exact hinv.unsettled_update happliers (by simp)

/-! ### All moves -/

/-- How the shared state, the trace and the places of the operations hang together. -/
structure WriterInvariant (indexers : IndexId → Indexer K V) (op : Nat → Operation)
    (start : MemoryState K V C) (count : Nat) (h : Trace) (s : MemoryState K V C)
    (place : Nat → WriterPlace) : Prop where
  roster : Roster indexers op start count s place
  turns : Turns op s place
  ledger : Ledger indexers op start.stores h place
  agreement : Agreement indexers op start.stores h s place

/-- An operation that ends its application has the outcome and the effect that it would have. -/
theorem WriterInvariant.finish (hinv : WriterInvariant indexers op start count h s place)
    {changed : Bool} (hplace : place t = .replaced changed)
    (happliers : h'.appliers = h.appliers ++ [t]) (hstores : s'.stores = s.stores) :
    Ledger indexers op start.stores h' (Function.update place t (.applied changed)) ∧
      Agreement indexers op start.stores h' s' (Function.update place t (.applied changed)) := by
  have hfits := hinv.roster.fits t
  rw [hplace] at hfits
  obtain ⟨hregistered, data, hdata⟩ := hfits
  have hperform := Operation.perform_of_mapped
    ((contains_performAll indexers (h.appliers.map op) start.stores _).trans hregistered) hdata
  have hchanged : ((op t).effect data
      (storeAt (performed indexers op start.stores h).2 (op t).index)).1 = changed := by
    rw [Operation.effect_fst, (MemoryIndex.data_replace _ _ _).1]
    exact (hinv.agreement.replaced t changed data hplace hdata _ rfl).1.symm
  refine ⟨hinv.ledger.finish hplace happliers ?_,
    hinv.agreement.finish hinv.turns hinv.roster.marks hplace hdata hstores ?_ hchanged⟩
  · rw [performed, hperform]
    exact congrArg Outcome.applied hchanged
  · rw [performed_of_finish happliers, performed, hperform]

/-- Every move keeps the outcomes and the storage in agreement with the operations applied. -/
theorem WriterInvariant.step (hinv : WriterInvariant indexers op start count h s place)
    (ht : t < count) (hexclusive : ∀ index, (workInProgress index s'.journal).length ≤ 1)
    (hmove : WriterMove indexers (op t) (place t) s l s') :
    WriterInvariant indexers op start count (h.extend t s s') s' (Function.update place t l) := by
  suffices hrest : Ledger indexers op start.stores (h.extend t s s') (Function.update place t l) ∧
      Agreement indexers op start.stores (h.extend t s s') s' (Function.update place t l) from
    ⟨hinv.roster.step ht hmove, hinv.turns.step hexclusive hmove, hrest.1, hrest.2⟩
  have hsame : s.Unworked s' → s'.stores = s.stores →
      (l.outcome? = (place t).outcome? ∨ l.hasApplied = false ∧ (place t).hasApplied = false) →
      (∀ changed, l = .replaced changed ↔ place t = .replaced changed) →
      (l = .applied true ↔ place t = .applied true) →
      Ledger indexers op start.stores (h.extend t s s') (Function.update place t l) ∧
        Agreement indexers op start.stores (h.extend t s s') s' (Function.update place t l) := by
    intro hquiet hstores houtcome hreplaced hunsettled
    have happliers := hquiet.appliers_extend h t
    exact ⟨hinv.ledger.of_same happliers houtcome,
      hinv.agreement.of_same hstores happliers hreplaced hunsettled⟩
  generalize hplace : place t = l₀ at hmove hsame
  cases hmove with
  | backstage hquiet =>
    exact hsame hquiet.unworked hquiet.stores (.inl rfl) (fun _ => .rfl) .rfl
  | miss => exact hsame (.of_eq rfl) rfl (.inr ⟨rfl, rfl⟩) (by simp) (by simp)
  | fault hholding happlying houtcome =>
    have hquiet := Backstage.request s (op t).index
    refine hsame hquiet.unworked hquiet.stores (.inl houtcome.symm) (fun changed => ?_) ?_
    · refine ⟨by simp, ?_⟩
      intro heq
      subst heq
      simp [WriterPlace.isApplying] at happlying
    · refine ⟨by simp, ?_⟩
      intro heq
      subst heq
      simp [WriterPlace.outcome?] at houtcome
  | begin =>
    have happliers : (h.extend t s (s.note (.applyBegan (op t).index (op t).input
        .operation))).appliers = h.appliers := by
      rw [Trace.extend_note]
      rfl
    exact ⟨hinv.ledger.of_same happliers (by simp [hplace, WriterPlace.outcome?]),
      hinv.agreement.of_same rfl happliers (by simp [hplace]) (by simp [hplace])⟩
  | replace hdata hm =>
    have happliers := appliers_extend_put h t s
    exact ⟨hinv.ledger.of_same (happliers _ _) (by simp [hplace, WriterPlace.outcome?]),
      hinv.agreement.replace hinv.turns hplace hdata hm (happliers _ _)⟩
  | finish =>
    refine hinv.finish hplace ?_ rfl
    rw [Trace.extend_note, Trace.appliers_cons rfl]
  | settle =>
    have happliers := appliers_extend_put h t s
    exact ⟨hinv.ledger.of_same (happliers _ _) (.inl (by rw [hplace]; rfl)),
      hinv.agreement.settle hplace (happliers _ _)⟩
  | leave hconcludes =>
    cases hconcludes with
    | refused hquiet => exact hsame (.of_eq rfl) rfl (.inr ⟨rfl, rfl⟩) (by simp) (by simp)
    | _ => exact hsame (.of_eq rfl) rfl (.inl rfl) (by simp) (by simp)
  | _ => exact hsame (.of_eq rfl) rfl (.inl rfl) (by simp) (by simp)

end Invariant

/-! ## All interleavings -/

/-- Threads that share a service, each of which executes one operation. -/
def Environment.executions {S U : Type} (env : Environment S U C) (s : ServiceState S C)
    (ops : List Operation) : Pool (ServiceState S C) (Except Failure Outcome) :=
  ⟨s, ops.map fun op => (env.execute op).program⟩

/-- The result of the thread at a place, if it is done. -/
def Pool.result? {σ α : Type} (q : Pool σ α) (i : Nat) : Option α :=
  q.threads[i]?.bind Program.result?

instance : Inhabited Operation := ⟨.removal default none none default .synchronous⟩

/-- The operation of the thread at a place. -/
def operationAt (ops : List Operation) (i : Nat) : Operation := ops[i]?.getD default

theorem getElem?_operationAt {ops : List Operation} {i : Nat} (hi : i < ops.length) :
    ops[i]? = some (operationAt ops i) := by
  rw [operationAt, List.getElem?_eq_getElem hi, Option.getD_some]

section Interleavings

variable [Std.TransOrd K] [BEq V] {config : Config} {indexers : IndexId → Indexer K V}
  {s : MemoryState K V C} {ops : List Operation} {h : Trace}
  {q : Pool (MemoryState K V C) (Except Failure Outcome)} {place : Nat → WriterPlace}

theorem writerInvariant_nil (indexers : IndexId → Indexer K V) (op : Nat → Operation)
    (s : MemoryState K V C) (count : Nat) :
    WriterInvariant indexers op s count [] s fun _ => .waiting where
  roster := ⟨.of_none fun _ => rfl, rfl, fun _ => rfl, fun _ hok => hok, fun _ => trivial,
    by simp, fun _ _ => rfl⟩
  turns := ⟨by simp [WriterPlace.isApplying], by simp [WriterPlace.isApplying]⟩
  ledger := ⟨by simp [Trace.appliers, WriterPlace.hasApplied, WriterPlace.outcome?], .nil, rfl⟩
  agreement := ⟨fun _ _ => rfl, by simp, fun _ _ _ => rfl, by simp⟩

/-- Operations that run beside each other always keep the invariant. -/
theorem exists_writerInvariant (hs : s.AtRest)
    (htrace : ((Environment.memory config indexers).executions s ops).Traced h q) :
    ∃ place, WriterInvariant indexers (operationAt ops) s ops.length h q.state place ∧
      q.Obeys (fun i => WriterMove indexers (operationAt ops i))
        (fun _ => WriterPlace.Over) place := by
  have hobeys : ((Environment.memory config indexers : Environment _ _ C).executions s ops).Obeys
      (fun i => WriterMove indexers (operationAt ops i))
      (fun _ => WriterPlace.Over) (fun _ => .waiting) := by
    intro i t ht
    rw [Environment.executions, List.getElem?_map, Option.map_eq_some_iff] at ht
    obtain ⟨op, hop, rfl⟩ := ht
    have hat : operationAt ops i = op := by rw [operationAt, hop, Option.getD_some]
    show ((Environment.memory config indexers).execute op).program.Obeys
      (WriterMove indexers (operationAt ops i)) WriterPlace.Over .waiting
    rw [hat]
    exact writerObeys_execute config indexers op
  have hlocked : ∀ t ∈ ((Environment.memory config indexers : Environment _ _ C).executions s
      ops).threads, t.Obeys (LockMove !config.testMode) (fun _ l => l = .outside) .outside := by
    intro t ht
    obtain ⟨op, -, rfl⟩ := List.mem_map.1 ht
    have horacle : (Environment.memory config indexers : Environment _ _ C).oracle = .registry :=
      rfl
    exact lockNeutral_execute horacle (Handle.isDiscreet_ofStores _) op
  refine Pool.Traced.invariant _ hobeys (writerInvariant_nil ..) ?_ htrace
  intro h q r i place l htrace hstep hinv hmove
  have hcount : i < ops.length := by
    have := hstep.lt_length_threads
    rw [htrace.length_threads] at this
    simpa [Environment.executions] using this
  -- that appliers of one index take turns is not kept by the moves of a writer but by the locks
  obtain ⟨_, hlock⟩ := exists_lockInvariant hlocked hs (htrace.step hstep)
  exact hinv.step hcount hlock.length_workInProgress_le hmove

/-- Where all operations are done, and their indices are consistent, each has left with the outcome
that its thread ended with. -/
theorem exists_left (hinv : WriterInvariant indexers (operationAt ops) s ops.length h q.state place)
    (hobeys : q.Obeys (fun i => WriterMove indexers (operationAt ops i))
      (fun _ => WriterPlace.Over) place)
    (hlength : q.threads.length = ops.length) (hdone : q.isDone = true)
    (hok : ∀ op ∈ ops, q.state.registry.state op.index = .ok) {i : Nat} (hi : i < ops.length) :
    ∃ outcome, q.result? i = some (.ok outcome) ∧ place i = .left outcome := by
  have hget : q.threads[i]? = some q.threads[i] := List.getElem?_eq_getElem (by omega)
  have hresult : q.threads[i].result?.isSome = true :=
    List.all_eq_true.1 hdone _ (List.getElem_mem _)
  have hthread := hobeys i _ hget
  cases hprogram : q.threads[i] with
  | step ready act next => simp [hprogram, Program.result?] at hresult
  | done r =>
    rw [hprogram] at hget hthread
    have hclosed : q.result? i = some r := by rw [Pool.result?, hget]; rfl
    rcases hthread with hspoilt | ⟨outcome, rfl, hleft⟩
    · have hmem : operationAt ops i ∈ ops := List.mem_of_getElem? (getElem?_operationAt hi)
      exact absurd (hok _ hmem) (hinv.roster.spoilt i false hspoilt)
    · exact ⟨outcome, hclosed, hleft⟩

omit [Std.TransOrd K] [BEq V] in
/-- An index in memory is its data and its indexing states. -/
theorem MemoryIndex.ext_state {m m' : MemoryIndex K V} (hdata : m.data = m'.data)
    (hstate : ∀ input, m.state input = m'.state input) : m = m' := by
  have hindexed : m.indexed = m'.indexed := by
    refine Std.ExtTreeMap.ext_getElem? fun input => ?_
    have hcontains : m.indexed.contains input = m'.indexed.contains input := by
      have hinput := hstate input
      unfold MemoryIndex.state at hinput
      cases hm : m.indexed.contains input <;> cases hm' : m'.indexed.contains input <;>
        simp only [hm, hm'] at hinput ⊢ <;> cases hinput
    simp only [Std.ExtTreeMap.contains_eq_isSome_getElem?] at hcontains
    cases hm : m.indexed[input]? <;> cases hm' : m'.indexed[input]? <;> simp_all
  cases m
  cases m'
  simp_all

/-- Where no operation is under way, the storage is what it would be after the operations that have
been applied. -/
theorem WriterInvariant.stores_eq {op : Nat → Operation} {start : MemoryState K V C} {count : Nat}
    (hinv : WriterInvariant indexers op start count h s place)
    (hidle : ∀ t, place t = .waiting ∨ ∃ outcome, place t = .left outcome) :
    s.stores = (performed indexers op start.stores h).2 := by
  refine Std.ExtTreeMap.ext_getElem? fun index => ?_
  have hcontains : s.stores.contains index =
      (performed indexers op start.stores h).2.contains index := by
    rw [hinv.roster.registered, performed, contains_performAll]
  have hstore : storeAt s.stores index =
      storeAt (performed indexers op start.stores h).2 index := by
    refine MemoryIndex.ext_state ?_ fun input => ?_
    · refine hinv.agreement.data index fun t changed ht => ?_
      rcases hidle t with hwaiting | ⟨outcome, hleft⟩ <;> simp_all
    · refine hinv.agreement.settled index input fun t ht => ?_
      rcases hidle t with hwaiting | ⟨outcome, hleft⟩ <;> simp_all
  simp only [Std.ExtTreeMap.contains_eq_isSome_getElem?] at hcontains
  unfold storeAt at hstore
  cases hbefore : s.stores[index]? <;>
    cases hafter : (performed indexers op start.stores h).2[index]? <;> simp_all

/-- Operations that change nothing may be put anywhere between others. -/
theorem performAll_weave {op : Nat → Operation} {start : Stores K V} {outcome : Nat → Outcome}
    (order appliers : List Nat)
    (hothers : ∀ t ∈ order, t ∉ appliers → ∀ stores : Stores K V,
      (∀ index, stores.contains index = start.contains index) →
        (op t).perform indexers stores = (outcome t, stores))
    {stores : Stores K V} (hstores : ∀ index, stores.contains index = start.contains index)
    (houtcomes : (performAll indexers ((order.filter (· ∈ appliers)).map op) stores).1 =
      (order.filter (· ∈ appliers)).map outcome) :
    performAll indexers (order.map op) stores = (order.map outcome,
      (performAll indexers ((order.filter (· ∈ appliers)).map op) stores).2) := by
  induction order generalizing stores with
  | nil => rfl
  | cons t rest ih =>
    have hrest : ∀ u ∈ rest, u ∉ appliers → ∀ stores : Stores K V,
        (∀ index, stores.contains index = start.contains index) →
          (op u).perform indexers stores = (outcome u, stores) :=
      fun u hu => hothers u (by simp [hu])
    by_cases ht : t ∈ appliers
    · simp only [List.filter_cons, ht, decide_true, if_true, List.map_cons, performAll,
        List.cons.injEq] at houtcomes ⊢
      rw [ih hrest (fun index => by rw [Operation.contains_perform, hstores]) houtcomes.2,
        houtcomes.1]
    · have hperform := hothers t (by simp) ht stores hstores
      simp only [List.filter_cons, ht, decide_false, Bool.false_eq_true, if_false, List.map_cons,
        performAll, hperform] at houtcomes ⊢
      rw [ih hrest hstores houtcomes]

/-- The operations that have been applied are those that have left with that outcome. -/
theorem WriterInvariant.mem_appliers {op : Nat → Operation} {start : MemoryState K V C}
    {count : Nat} (hinv : WriterInvariant indexers op start count h s place) {i : Nat}
    {outcome : Outcome} (hleft : place i = .left outcome) :
    i ∈ h.appliers ↔ ∃ changed, outcome = .applied changed := by
  rw [hinv.ledger.appliers, hleft]
  cases outcome <;> simp [WriterPlace.hasApplied, WriterPlace.outcome?]

/-- A removal from a registered index that has left has been applied. -/
theorem WriterInvariant.mem_appliers_of_removal {op : Nat → Operation} {start : MemoryState K V C}
    {count : Nat} (hinv : WriterInvariant indexers op start count h s place) {i : Nat}
    {outcome : Outcome} (hleft : place i = .left outcome) (hremoval : (op i).task = .removal)
    (hregistered : start.stores.contains (op i).index = true) : i ∈ h.appliers := by
  rw [hinv.mem_appliers hleft]
  have hfits := hinv.roster.fits i
  rw [hleft] at hfits
  rcases hfits.2 with happlied | hpasses
  · exact happlied
  · have hperform := (Operation.perform_removal indexers hremoval hregistered).1
    rw [hpasses _ fun _ => rfl] at hperform
    exact ⟨_, hperform⟩

/-- Only operations have been applied. -/
theorem WriterInvariant.lt_of_mem_appliers {op : Nat → Operation} {start : MemoryState K V C}
    {count : Nat} (hinv : WriterInvariant indexers op start count h s place) {i : Nat}
    (hi : i ∈ h.appliers) : i < count := by
  by_contra hcount
  have happlied := (hinv.ledger.appliers i).1 hi
  rw [hinv.roster.absent i (by omega)] at happlied
  simp [WriterPlace.hasApplied, WriterPlace.outcome?] at happlied

/-- Performed in the order of their applications, the operations that have been applied have the
outcomes with which they left. -/
theorem WriterInvariant.outcomes_eq {op : Nat → Operation} {start : MemoryState K V C}
    {count : Nat} (hinv : WriterInvariant indexers op start count h s place)
    {outcome : Nat → Outcome} (hleft : ∀ i < count, place i = .left (outcome i)) :
    (performed indexers op start.stores h).1 = h.appliers.map outcome := by
  have hsome : (performed indexers op start.stores h).1.map some =
      (h.appliers.map outcome).map some := by
    rw [hinv.ledger.outcomes, List.map_map]
    refine List.map_congr_left fun i hi => ?_
    rw [hleft i (hinv.lt_of_mem_appliers hi)]
    rfl
  exact List.map_injective_iff.2 (Option.some_injective _) hsome

/-- Executed alone in an order that fits the order of their applications, the operations have the
outcomes with which they left, and come to the same storage. -/
theorem WriterInvariant.collect_ends {start : MemoryState K V C}
    (hinv : WriterInvariant indexers (operationAt ops) start ops.length h s place)
    (hstart : start.AtRest) (hok : ∀ op ∈ ops, s.registry.state op.index = .ok)
    {outcome : Nat → Outcome} (hleft : ∀ i < ops.length, place i = .left (outcome i))
    {order : List Nat} (hperm : order.Perm (List.range ops.length))
    (horder : order.filter (· ∈ h.appliers) = h.appliers) :
    (Action.collect (Environment.memory config indexers : Environment _ _ C).execute
      (order.filterMap (ops[·]?))).Ends start fun r t =>
        r = .ok (order.map outcome) ∧ t.stores = s.stores := by
  have hlt : ∀ i ∈ order, i < ops.length := fun i hi => List.mem_range.1 (hperm.mem_iff.1 hi)
  have hops : order.filterMap (ops[·]?) = order.map (operationAt ops) := by
    rw [← List.filterMap_eq_map]
    exact List.filterMap_congr fun i hi => getElem?_operationAt (hlt i hi)
  have hmem : ∀ op ∈ order.map (operationAt ops), op ∈ ops := by
    intro op hop
    obtain ⟨i, hi, rfl⟩ := List.mem_map.1 hop
    exact List.mem_of_getElem? (getElem?_operationAt (hlt i hi))
  have hidle : ∀ t, place t = .waiting ∨ ∃ outcome, place t = .left outcome := by
    intro t
    by_cases ht : t < ops.length
    · exact .inr ⟨_, hleft t ht⟩
    · exact .inl (hinv.roster.absent t (by omega))
  have hothers : ∀ t ∈ order, t ∉ h.appliers → ∀ stores : Stores K V,
      (∀ index, stores.contains index = start.stores.contains index) →
        (operationAt ops t).perform indexers stores = (outcome t, stores) := by
    intro t ht hnot
    have hfits := hinv.roster.fits t
    rw [hleft t (hlt t ht)] at hfits
    rcases hfits.2 with happlied | hpasses
    · exact absurd ((hinv.mem_appliers (hleft t (hlt t ht))).2 happlied) hnot
    · exact hpasses
  have hweave := performAll_weave order h.appliers hothers (fun _ => rfl)
    (by rw [horder]; exact hinv.outcomes_eq hleft)
  rw [horder] at hweave
  rw [hops]
  refine (collect_execute_ends _ hstart.isUnlocked hstart.marks ?_ ?_).mono ?_
  · intro op hop
    exact hinv.roster.states _ (hok op (hmem op hop))
  · intro op hop
    obtain ⟨t, ht, rfl⟩ := List.mem_map.1 hop
    have hfits := hinv.roster.fits t
    rw [hleft t (hlt t ht)] at hfits
    exact hfits.1
  · intro r t hend
    obtain ⟨hr, hstores⟩ := hend
    rw [hweave] at hr hstores
    exact ⟨hr, by rw [hstores, hinv.stores_eq hidle]; rfl⟩

/-- If all operations remove one stored pair, exactly one of them changes the data. -/
theorem WriterInvariant.existsUnique_removal {start : MemoryState K V C}
    (hinv : WriterInvariant indexers (operationAt ops) start ops.length h s place)
    {outcome : Nat → Outcome} (hleft : ∀ i < ops.length, place i = .left (outcome i))
    {pair : WriteMark} {data : Mapping K V}
    (hstored : (storeAt start.stores pair.index).data.forward? pair.input = some data)
    (hdata : data.isEmpty = false) (hops : ops ≠ [])
    (hremovals : ∀ op ∈ ops, op.mark = pair ∧ op.task = .removal) :
    ∃! i, i < ops.length ∧ outcome i = .applied true := by
  have hregistered : start.stores.contains pair.index = true := by
    by_contra hmissing
    have hnone : start.stores[pair.index]? = none := by simpa using hmissing
    rw [storeAt, hnone] at hstored
    simp [default, MemoryIndex.empty, IndexData.empty, IndexData.forward?] at hstored
  have hat : ∀ i < ops.length, (operationAt ops i).mark = pair ∧
      (operationAt ops i).task = .removal := fun i hi =>
    hremovals _ (List.mem_of_getElem? (getElem?_operationAt hi))
  have hall : ∀ i < ops.length, i ∈ h.appliers := by
    intro i hi
    obtain ⟨rfl, hremoval⟩ := hat i hi
    exact hinv.mem_appliers_of_removal (hleft i hi) hremoval hregistered
  have houtcomes := hinv.outcomes_eq hleft
  cases happliers : h.appliers with
  | nil =>
    have hmem := hall 0 (List.length_pos_iff.2 hops)
    simp [happliers] at hmem
  | cons a rest =>
    have hlt : ∀ i ∈ a :: rest, i < ops.length := fun i hi =>
      hinv.lt_of_mem_appliers (by rwa [happliers])
    obtain ⟨rfl, hremoval⟩ := hat a (hlt a (by simp))
    obtain ⟨hfirst, hleft'⟩ := Operation.perform_removal indexers hremoval hregistered
    have hremovals' : ∀ op ∈ rest.map (operationAt ops),
        op.mark = (operationAt ops a).mark ∧ op.task = .removal := by
      intro op hop
      obtain ⟨i, hi, rfl⟩ := List.mem_map.1 hop
      exact hat i (hlt i (by simp [hi]))
    have hothers := performAll_removals indexers hremovals'
      ((Operation.contains_perform ..).trans hregistered) hleft'
    rw [performed, happliers, List.map_cons, performAll, List.map_cons, hfirst, hothers,
      List.cons.injEq] at houtcomes
    rw [List.map_map, List.map_inj_left] at houtcomes
    refine ⟨a, ⟨hlt a (by simp), ?_⟩, fun i hi => ?_⟩
    · have hholds := IndexData.holds_empty_of_forward? hstored hdata
      rw [← houtcomes.1]
      exact congrArg (fun holds => Outcome.applied !holds) hholds
    · have hmem := hall i hi.1
      rw [happliers, List.mem_cons] at hmem
      rcases hmem with rfl | hrest
      · rfl
      · have hunchanged := houtcomes.2 i hrest
        rw [hi.2] at hunchanged
        simp at hunchanged

/-- Operations that run beside each other on indices in memory, all of which are consistent in the
end, take effect one after the other, in the order in which their applications ended.  Executed
alone in an order that fits this one, they have the same outcomes and come to the same storage, and
of removals of one stored pair exactly one changes storage. -/
theorem execute_linearizable (config : Config) (indexers : IndexId → Indexer K V)
    (s : MemoryState K V C) (hs : s.AtRest) (ops : List Operation) (h : Trace)
    (q : Pool (MemoryState K V C) (Except Failure Outcome))
    (htrace : ((Environment.memory config indexers).executions s ops).Traced h q)
    (hdone : q.isDone = true) (hok : ∀ op ∈ ops, q.state.registry.state op.index = .ok) :
    h.appliers.Nodup ∧
      (∀ i, i ∈ h.appliers ↔ ∃ changed, q.result? i = some (.ok (.applied changed))) ∧
      (∀ order : List Nat, order.Perm (List.range ops.length) →
        order.filter (· ∈ h.appliers) = h.appliers →
          (Action.collect (Environment.memory config indexers).execute
            (order.filterMap (ops[·]?))).Ends s fun r t =>
              (∃ outcomes, r = .ok outcomes ∧
                order.map q.result? = outcomes.map fun outcome => some (.ok outcome)) ∧
              t.stores = q.state.stores) ∧
      (∀ pair data, (storeAt s.stores pair.index).data.forward? pair.input = some data →
        data.isEmpty = false → ops ≠ [] →
          (∀ op ∈ ops, op.mark = pair ∧ op.task = .removal) →
            ∃! i, q.result? i = some (.ok (.applied true))) := by
  obtain ⟨place, hinv, hobeys⟩ := exists_writerInvariant hs htrace
  have hlength : q.threads.length = ops.length := by
    rw [htrace.length_threads, Environment.executions, List.length_map]
  have hleft := fun i (hi : i < ops.length) => exists_left hinv hobeys hlength hdone hok hi
  have : Nonempty Outcome := ⟨.gated⟩
  choose! outcome hresult hplace using hleft
  have hnone : ∀ i, ¬ i < ops.length → q.result? i = none := by
    intro i hi
    rw [Pool.result?, List.getElem?_eq_none (by omega), Option.bind_none]
  refine ⟨hinv.ledger.nodup, fun i => ?_, fun order hperm horder => ?_, ?_⟩
  · by_cases hi : i < ops.length
    · rw [hinv.mem_appliers (hplace i hi), hresult i hi]
      simp
    · rw [hnone i hi]
      refine iff_of_false (fun hmem => hi (hinv.lt_of_mem_appliers hmem)) (by simp)
  · refine (hinv.collect_ends hs hok hplace hperm horder).mono ?_
    intro r t hend
    obtain ⟨hr, hstores⟩ := hend
    refine ⟨⟨_, hr, ?_⟩, hstores⟩
    rw [List.map_map]
    exact List.map_congr_left fun i hi =>
      hresult i (List.mem_range.1 (hperm.mem_iff.1 hi))
  · intro pair data hstored hdata hops hremovals
    obtain ⟨i, ⟨hi, houtcome⟩, hunique⟩ :=
      hinv.existsUnique_removal hplace hstored hdata hops hremovals
    refine ⟨i, by simp [hresult i hi, houtcome], fun j hj => ?_⟩
    have hj' : j < ops.length := by
      by_contra hcount
      simp [hnone j hcount] at hj
    refine hunique j ⟨hj', ?_⟩
    simpa [hresult j hj'] using hj

end Interleavings

namespace Sample

/-- The service with a file of size three in its index. -/
def stocked : ServiceState (MemoryIndex Nat Nat) Unit :=
  .ofStores .standard (Std.ExtTreeMap.empty.insert sizes
    (MemoryIndex.empty.replace ⟨1⟩ (Std.ExtTreeMap.empty.insert 3 1)).2) true ()

/-- Two removals of the file. -/
def removals : List Operation :=
  List.replicate 2 (.removal sizes none none ⟨1⟩ .synchronous)

/-- The first removal begins, but the second one gets the mark. -/
def overtaking : List Nat :=
  List.replicate 3 0 ++ List.replicate 8 1 ++ List.replicate 40 0 ++ List.replicate 40 1 ++
    List.replicate 40 0

end Sample

/-- Of two removals of one file, the one that began later takes effect first and changes storage.
Executed one after the other in this order, they come to the same storage. -/
theorem execute_linearizable_removals :
    ∃ (h : Trace) (q : Pool (MemoryState Nat Nat Unit) (Except Failure Outcome)),
      (Sample.environment.executions Sample.stocked Sample.removals).Traced h q ∧
        h.appliers = [1, 0] ∧ (∃! i, q.result? i = some (.ok (.applied true))) ∧
        (Action.collect Sample.environment.execute Sample.removals).Ends Sample.stocked
          fun _ t => t.stores = q.state.stores := by
  obtain ⟨x, hx⟩ : ∃ x, (Sample.environment.executions Sample.stocked Sample.removals).watch
      Sample.overtaking = x := ⟨_, rfl⟩
  have htrace := Pool.traced_watch (Sample.environment.executions Sample.stocked Sample.removals)
    Sample.overtaking
  rw [hx] at htrace
  have hdone : x.2.isDone = true := by
    rw [← hx]
    decide +kernel
  have happliers : x.1.appliers = [1, 0] := by
    rw [← hx]
    decide +kernel
  have hsizes : x.2.state.registry.state Sample.sizes = .ok := by
    rw [← hx]
    decide +kernel
  have hok : ∀ op ∈ Sample.removals, x.2.state.registry.state op.index = .ok := by
    intro op hop
    rw [List.eq_of_mem_replicate hop]
    exact hsizes
  obtain ⟨-, -, horders, hremoval⟩ := execute_linearizable .standard _ Sample.stocked
    (atRest_ofStores _ _ _ _) Sample.removals x.1 x.2 htrace hdone hok
  refine ⟨x.1, x.2, htrace, happliers, ?_, ?_⟩
  · refine hremoval ⟨Sample.sizes, ⟨1⟩⟩ (Std.ExtTreeMap.empty.insert 3 1) ?_ (by simp)
      (by simp [Sample.removals]) ?_
    · have hstore : storeAt Sample.stocked.stores Sample.sizes =
          (MemoryIndex.empty.replace ⟨1⟩ (Std.ExtTreeMap.empty.insert 3 1)).2 := by
        rw [Sample.stocked, ServiceState.ofStores, storeAt_insert, if_pos rfl]
      rw [hstore]
      simp [MemoryIndex.data_replace, IndexData.forward?_replace, IndexData.holds,
        MemoryIndex.empty, IndexData.empty]
    · intro op hop
      rw [List.eq_of_mem_replicate hop]
      exact ⟨rfl, rfl⟩
  · refine (horders [1, 0] (by decide) (by rw [happliers]; rfl)).mono ?_
    intro r t hend
    obtain ⟨-, hstores⟩ := hend
    exact hstores

end FileIndexing
