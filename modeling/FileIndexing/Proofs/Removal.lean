import FileIndexing.Proofs.Alone

/-!
# What a removal leaves behind

A removal that comes to its end without failing should leave nothing of its input in the index.
Whether it sets the indexing state of the input depends on whether storage changed, and so on what
was done to the input before.  This module says in which indexing state a removal leaves its input,
for all services whose indices are kept in memory and that have been used by one thread.

* `ServiceState.Keeps` is what every command of a thread keeps: the marks and locks are given back,
  and no input is stored without any keys.  `keeps_runAll` is the walk through the commands.
* `removal_unindexes` is the result: nothing is left of the input, and it counts as not indexed
  unless it counted as indexed without being stored before.
-/

namespace FileIndexing

open ServiceState Service FileIndexing.Action

variable {K V C : Type} [Ord K]

/-! ## What commands keep -/

namespace ServiceState

/-- The data stored for a pair. -/
def forward? (s : MemoryState K V C) (pair : WriteMark) : Option (Mapping K V) :=
  (storeAt s.stores pair.index).data.forward? pair.input

/-- No input is stored without any keys. -/
def IsFilled (s : MemoryState K V C) : Prop :=
  ∀ pair data, s.forward? pair = some data → data.isEmpty = false

/-- The later state has the marks and locks of the earlier one, and stores no input without keys if
the earlier one does not. -/
structure Keeps (s t : MemoryState K V C) : Prop where
  marks : t.marks = s.marks
  held : t.locks.held = s.locks.held
  coordination : t.coordination = s.coordination
  filled : s.IsFilled → t.IsFilled

variable {s t u : MemoryState K V C}

theorem Keeps.refl (s : MemoryState K V C) : s.Keeps s := ⟨rfl, rfl, rfl, id⟩

theorem Keeps.trans (h : s.Keeps t) (h' : t.Keeps u) : s.Keeps u where
  marks := h'.marks.trans h.marks
  held := h'.held.trans h.held
  coordination := h'.coordination.trans h.coordination
  filled := h'.filled ∘ h.filled

theorem Keeps.of_eq (hmarks : t.marks = s.marks) (hlocks : t.locks = s.locks)
    (hcoordination : t.coordination = s.coordination) (hstores : t.stores = s.stores) :
    s.Keeps t := by
  refine ⟨hmarks, by rw [hlocks], hcoordination, fun hfilled pair data hstored => ?_⟩
  rw [forward?, hstores] at hstored
  exact hfilled pair data hstored

theorem Keeps.moveRegistry (s : MemoryState K V C) (index : IndexId)
    (registry : RebuildRegistry) : s.Keeps (s.moveRegistry index registry) := by
  unfold ServiceState.moveRegistry
  dsimp only
  split <;> exact .of_eq rfl rfl rfl rfl

/-- Storage that stores no input without keys may be put in the place of an index. -/
theorem Keeps.put (s : MemoryState K V C) (index : IndexId) {m : MemoryIndex K V}
    (hm : s.IsFilled → ∀ input data, m.data.forward? input = some data → data.isEmpty = false) :
    s.Keeps (s.put index m) := by
  refine ⟨rfl, rfl, rfl, fun hfilled pair data hstored => ?_⟩
  rw [forward?, stores_put, storeAt_insert] at hstored
  split at hstored
  · exact hm hfilled pair.input data hstored
  · exact hfilled pair data hstored

end ServiceState

section Walk

/-- An action that gives back what it takes and stores no input without keys, however it ends. -/
def Action.Tidy {α : Type} (a : ServiceAction (MemoryIndex K V) C α) : Prop :=
  ∀ s, a.Leaves s fun _ t => s.Keeps t

theorem tidyClass : ActionClass (Keeps (K := K) (V := V) (C := C)) fun {_} a => a.Tidy :=
  .ofLeaves .refl fun _ _ _ => .trans

theorem tidy_note (event : Event) : (note event : ServiceAction (MemoryIndex K V) C Unit).Tidy :=
  tidyClass.update fun _ => .of_eq rfl rfl rfl rfl

theorem tidy_onStore {α : Type} (index : IndexId) {f : MemoryIndex K V → α × MemoryIndex K V}
    (hf : ∀ m : MemoryIndex K V,
      (∀ input data, m.data.forward? input = some data → data.isEmpty = false) →
      ∀ input data, (f m).2.data.forward? input = some data → data.isEmpty = false) :
    (Handle.onStore index (access f) : ServiceAction (MemoryIndex K V) C α).Tidy := by
  rw [Handle.onStore_access]
  exact tidyClass.access fun s => Keeps.put s index fun hfilled =>
    hf _ fun input data => hfilled ⟨index, input⟩ data

theorem tidy_withMark (mark : WriteMark) {α : Type} {a : ServiceAction (MemoryIndex K V) C α}
    (ha : a.Tidy) : (withMark mark a).Tidy := by
  intro s
  refine leaves_await_bind fun _ => leaves_ensuring ((ha _).mono fun r t h => ?_)
  have hmarks : t.marks = s.marks.take mark := h.marks
  exact ⟨by simp [hmarks], h.held, h.coordination, h.filled⟩

theorem tidy_withReadLock {α : Type} {a : ServiceAction (MemoryIndex K V) C α}
    (ha : a.Tidy) : (withReadLock a).Tidy := by
  intro s
  refine leaves_await_bind fun _ => leaves_ensuring ((ha _).mono fun r t h => ?_)
  have hshared : t.coordination = s.coordination.share := h.coordination
  exact ⟨h.marks, h.held, by simp [hshared, Coordination.share, Coordination.unshare], h.filled⟩

theorem tidy_withStructuralLock {α : Type} {a : ServiceAction (MemoryIndex K V) C α}
    (ha : a.Tidy) : (withStructuralLock a).Tidy := by
  intro s
  refine leaves_access_bind (leaves_await_bind fun hcan =>
    leaves_ensuring ((ha _).mono fun r t h => ?_))
  have hheld : t.coordination = s.coordination.queue.hold := h.coordination
  have hfree : s.coordination.writer = false := by
    simp [Coordination.canHold, Coordination.queue] at hcan
    exact hcan.1
  refine ⟨h.marks, h.held, ?_, h.filled⟩
  simp [hheld, Coordination.queue, Coordination.hold, Coordination.unhold, ← hfree]

theorem tidy_withIndexLock (index : IndexId) {α : Type}
    {a : ServiceAction (MemoryIndex K V) C α} (ha : a.Tidy) : (withIndexLock index a).Tidy := by
  intro s
  refine leaves_withIndexLock fun lock locks hheld _ => (ha _).mono fun r t h => ?_
  have htaken : t.locks.held = lock :: locks.held := h.held
  exact ⟨h.marks, by simp [IndexLocks.release, htaken, hheld], h.coordination, h.filled⟩

variable [Std.TransOrd K] [BEq V] {config : Config} {indexers : IndexId → Indexer K V}

theorem workTidy (config : Config) (indexers : IndexId → Indexer K V) :
    WorkClass (Environment.memory config indexers : Environment _ _ C) Keeps
      fun {_} a => a.Tidy where
  toActionClass := tidyClass
  still s t h := .of_eq h.marks h.locks h.coordination h.stores
  request s index := Keeps.moveRegistry s index _
  oracle := rfl
  note _ := tidy_note _
  withMark mark _ _ := tidy_withMark mark
  withReadLock := tidy_withReadLock
  prepare index input content := by
    rw [memory_prepare]
    exact tidyClass.resume _
  setIndexed index input := by
    rw [memory_setIndexed]
    exact tidy_onStore index fun m hm => hm
  setUnindexed index input := by
    rw [memory_setUnindexed]
    exact tidy_onStore index fun m hm => hm
  indexingState index input := by
    rw [memory_indexingState]
    exact tidy_onStore index fun m hm => hm

/-- Applying an update stores no input without keys. -/
theorem tidy_applyUpdate (origin : Origin) (update : PreparedUpdate (Mapping K V)) :
    ((Environment.memory config indexers : Environment _ _ C).applyUpdate origin update).Tidy := by
  have hP := workTidy (C := C) config indexers
  have happly : ((Environment.memory config indexers : Environment _ _ C).handle.apply
      update).Tidy := by
    rw [memory_apply]
    refine tidy_onStore update.index fun m hm input data hstored => ?_
    rw [(MemoryIndex.data_replace _ _ _).2] at hstored
    cases hholds : m.data.holds update.input update.change with
    | true =>
      rw [IndexData.replace_of_holds _ _ _ hholds] at hstored
      exact hm input data hstored
    | false =>
      rw [IndexData.forward?_replace _ _ _ _ hholds] at hstored
      split at hstored
      · split at hstored
        · cases hstored
        · next hdata =>
          obtain rfl := Option.some.inj hstored
          simpa using hdata
      · exact hm input data hstored
  exact hP.calls.mem_applyUpdate (tidy_note _) (fun _ => tidy_note _) happly

/-- A rebuild keeps what the putting back of files keeps. -/
theorem tidy_rebuildIndex (index : IndexId) {repopulate : ServiceAction (MemoryIndex K V) C Unit}
    (hrepopulate : repopulate.Tidy) :
    ((Environment.memory config indexers : Environment _ _ C).rebuildIndex index
      repopulate).Tidy := by
  have hP := workTidy (C := C) config indexers
  have hdrop : ((Environment.memory config indexers : Environment _ _ C).handle.clear
      index).Tidy := by
    rw [memory_clear]
    refine hP.bind (tidy_onStore index fun m _ input data hstored => ?_) fun _ =>
      tidy_onStore index fun m hm => hm
    simp [MemoryIndex.dropData, IndexData.empty, IndexData.forward?] at hstored
  have hend : ∀ s : MemoryState K V C, s.Keeps (s.endRebuild index) := by
    intro s
    have hmoved := Keeps.moveRegistry s index (s.registry.markFinished index)
    unfold endRebuild
    split
    · exact hmoved
    · exact hmoved.trans (.of_eq rfl rfl rfl rfl)
  have hstart := hP.mem_start (hP.access fun s => Keeps.moveRegistry s index _)
  have hclear := hP.calls.mem_clearIndex (tidy_note _) (fun _ => tidy_note _) hdrop
  have hclaim := hP.calls.mem_claimAndClear (tidy_withIndexLock index) hstart
    (hP.access fun s => .of_eq rfl rfl rfl rfl) (tidy_withStructuralLock hclear)
  exact hP.calls.mem_rebuildIndex hclaim (hP.mem_finish (hP.access hend))
    (fun _ _ => tidy_note _) hrepopulate

/-- Commands give back the marks and locks that they take, and store no input without keys. -/
theorem keeps_runAll (commands : List Command) :
    (Command.runAll (Environment.memory config indexers : Environment _ _ C) none
      commands).Tidy := by
  have hP := workTidy (C := C) config indexers
  have hclass : CommandClass (Environment.memory config indexers : Environment _ _ C)
      (fun _ => True) Keeps fun {_} a => a.Tidy := {
    hP.toActionClass with
    still := hP.still
    execute := hP.mem_execute fun update =>
      hP.calls.mem_runUpdateUnless (tidy_withIndexLock update.index)
        (tidy_applyUpdate .operation update)
    request := hP.calls.request
    rebuild := fun index _ => tidy_rebuildIndex index
    indexFile := hP.mem_indexFile fun update =>
      tidy_withIndexLock update.index (tidy_applyUpdate .rebuild update)
    indexingState := hP.mem_indexingState }
  exact hclass.mem_runAll none commands
    (Command.rebuildsOnlyAll_of_forall (fun _ => trivial) commands)

end Walk

/-! ## Removals -/

section Removals

variable [Std.TransOrd K] [BEq V]

/-- The data of an index hold nothing for an input exactly if nothing is stored for it, as long as
nothing is stored without keys. -/
theorem IndexData.holds_empty_iff {d : IndexData K V} {input : InputId}
    (hd : ∀ data, d.forward? input = some data → data.isEmpty = false) :
    d.holds input ∅ = true ↔ d.forward? input = none := by
  cases hstored : d.forward? input with
  | none =>
    unfold IndexData.forward? at hstored
    simp [IndexData.holds, hstored]
  | some data => simp [IndexData.holds_empty_of_forward? hstored (hd data hstored)]

/-- What a removal does to an index that stores no input without keys. -/
theorem Operation.effect_removal {op : Operation} (hop : op.task = .removal) {m : MemoryIndex K V}
    (hm : ∀ data, m.data.forward? op.input = some data → data.isEmpty = false) :
    (op.effect ∅ m).2.data.forward? op.input = none ∧
      (op.effect ∅ m).2.state op.input =
        if m.state op.input = .upToDate ∧ m.data.forward? op.input = none then .upToDate
        else .notIndexed := by
  rw [Operation.data_effect, Operation.state_effect, Operation.effect_fst,
    (MemoryIndex.data_replace _ _ _).1, (MemoryIndex.data_replace _ _ _).2]
  cases hholds : m.data.holds op.input ∅ with
  | true =>
    have hnone := (IndexData.holds_empty_iff hm).1 hholds
    rw [IndexData.replace_of_holds _ _ _ hholds]
    refine ⟨hnone, ?_⟩
    cases hstate : m.state op.input <;> simp [hnone]
  | false =>
    have hsome : m.data.forward? op.input ≠ none := fun hnone => by
      simp [(IndexData.holds_empty_iff hm).2 hnone] at hholds
    refine ⟨by simp [IndexData.forward?_replace _ _ _ _ hholds], ?_⟩
    simp [IndexData.replace, hholds, hsome, Operation.settledState, hop]

/-- In a service whose indices are kept in memory and that one thread has used in any way, a removal
that comes to its end without failing leaves nothing of its input.  The input counts as not indexed
then, unless it counted as indexed although nothing of it was stored. -/
theorem removal_unindexes (config : Config) (indexers : IndexId → Indexer K V)
    (s₀ : MemoryState K V C) (hrest : s₀.AtRest)
    (hempty : ∀ index, storeAt s₀.stores index = .empty)
    (commands : List Command) (r : Except Failure Unit) (s : MemoryState K V C)
    (hreached : (Command.runAll (Environment.memory config indexers) none commands).run s₀ =
      some (r, s))
    (op : Operation) (hop : op.task = .removal) :
    ∃ outcome t, ((Environment.memory config indexers).execute op).run s = some (.ok outcome, t) ∧
      (outcome.isSuccess = true →
        t.forward? op.mark = none ∧ t.marks.isMarked op.mark = false ∧
          t.indexingState op.mark =
            if s.indexingState op.mark = .upToDate ∧ s.forward? op.mark = none then .upToDate
            else .notIndexed) := by
  have hkeeps := keeps_runAll commands s₀ r s hreached
  have hunlocked := hrest.isUnlocked
  have hfilled : s.IsFilled := hkeeps.filled fun pair data hstored => by
    simp [ServiceState.forward?, hempty, MemoryIndex.empty, IndexData.empty,
      IndexData.forward?] at hstored
  have hmarks : s.marks.isMarked op.mark = false := by
    rw [hkeeps.marks, hrest.marks]
    exact MarkTable.isMarked_empty _
  cases hgates : (Environment.memory config indexers : Environment _ _ C).gates s.registry
      op.index with
  | true =>
    obtain ⟨t, hrun, -⟩ := execute_yields_gated (x := s.scene) rfl hgates s rfl
    exact ⟨.gated, t, hrun, by simp [Outcome.isSuccess]⟩
  | false =>
    have hmapped : op.mapped indexers = .ok ∅ := by rw [Operation.mapped, hop]; rfl
    obtain ⟨deeds, hyields⟩ := execute_yields_perform (x := s.scene)
      (hkeeps.held.trans hunlocked.held)
      ((congrArg Coordination.canShare hkeeps.coordination).trans hunlocked.shareable) hmarks hgates
      fun _ => .inl ⟨∅, hmapped⟩
    obtain ⟨t, hrun, ht⟩ := hyields s rfl
    have hstores : t.stores = (op.perform indexers s.stores).2 := congrArg (·.world.stores) ht
    have hreleased : t.marks = s.marks := congrArg Scene.marks ht
    refine ⟨_, t, hrun, fun hsuccess => ?_⟩
    cases hregistered : s.stores.contains op.index with
    | false =>
      have hperform : op.perform indexers s.stores = (.unknownIndex, s.stores) :=
        if_neg (by simp [hregistered])
      have hsuccess : (op.perform indexers s.stores).1.isSuccess = true := hsuccess
      simp [hperform, Outcome.isSuccess] at hsuccess
    | true =>
      rw [Operation.perform_of_mapped hregistered hmapped] at hstores
      obtain ⟨hnone, hstate⟩ := Operation.effect_removal hop (m := storeAt s.stores op.index)
        fun data => hfilled op.mark data
      have hstore : storeAt t.stores op.index = (op.effect ∅ (storeAt s.stores op.index)).2 := by
        rw [hstores, storeAt_insert, if_pos rfl]
      refine ⟨?_, by rw [hreleased, hmarks], ?_⟩
      · show (storeAt t.stores op.index).data.forward? op.input = none
        rw [hstore, hnone]
      · show (storeAt t.stores op.index).state op.input = _
        rw [hstore, hstate]
        rfl

end Removals

namespace Sample

/-- A service that indexes files by their sizes, except for empty ones. -/
def weighing : Environment (MemoryIndex Nat Nat) (Mapping Nat Nat) Unit :=
  .memory .standard fun _ content =>
    .ok (if content.size = 0 then ∅ else Std.ExtTreeMap.empty.insert content.size 1)

/-- Updates a file to have some size. -/
def resized (size : Nat) : Command := .execute (.update sizes (content size) ⟨1⟩ .synchronous)

/-- The removal of that file. -/
def forgotten : Operation := .removal sizes none none ⟨1⟩ .synchronous

theorem storeAt_state (index : IndexId) : storeAt state.stores index = .empty := by
  by_cases h : sizes = index <;>
    simp [storeAt, state, ServiceState.ofStores, h, default]

end Sample

/-- A file is updated and removed. -/
theorem removal_unindexes_stored :
    ∃ r s outcome t,
      (Command.runAll Sample.weighing none [Sample.resized 3]).run Sample.state = some (r, s) ∧
        (Sample.weighing.execute Sample.forgotten).run s = some (.ok outcome, t) ∧
        outcome.isSuccess = true ∧ t.forward? Sample.forgotten.mark = none ∧
        t.indexingState Sample.forgotten.mark = .notIndexed := by
  have hrun : ((Command.runAll Sample.weighing none [Sample.resized 3]).run Sample.state).bind
      (fun x => ((Sample.weighing.execute Sample.forgotten).run x.2).map fun y =>
        (x.2.forward? Sample.forgotten.mark |>.isSome, y.1.toOption.map (·.isSuccess))) =
      some (true, some true) := by decide +kernel
  obtain ⟨⟨r, s⟩, hreached, hrest⟩ := Option.bind_eq_some_iff.1 hrun
  obtain ⟨outcome, t, hexecute, hleft⟩ := removal_unindexes .standard _ Sample.state
    (atRest_ofStores _ _ _ _) Sample.storeAt_state [Sample.resized 3] r s hreached Sample.forgotten
    rfl
  have hends : (Sample.weighing.execute Sample.forgotten).run s = some (.ok outcome, t) := hexecute
  rw [hends] at hrest
  obtain ⟨hstored, hsuccess⟩ := Prod.mk.inj (Option.some.inj hrest)
  have hsuccess : outcome.isSuccess = true := Option.some.inj hsuccess
  obtain ⟨hnone, -, hstate⟩ := hleft hsuccess
  refine ⟨r, s, outcome, t, hreached, hends, hsuccess, hnone, hstate.trans (if_neg ?_)⟩
  rintro ⟨-, habsent⟩
  simp [habsent] at hstored

/-- A file is updated, emptied and removed.  The removal succeeds, and yet the file counts as
indexed. -/
theorem removal_leaves_indexed :
    ∃ r s outcome t,
      (Command.runAll Sample.weighing none [Sample.resized 3, Sample.resized 0]).run Sample.state =
          some (r, s) ∧
        (Sample.weighing.execute Sample.forgotten).run s = some (.ok outcome, t) ∧
        outcome.isSuccess = true ∧ t.indexingState Sample.forgotten.mark = .upToDate := by
  have hrun : ((Command.runAll Sample.weighing none [Sample.resized 3, Sample.resized 0]).run
      Sample.state).bind (fun x => ((Sample.weighing.execute Sample.forgotten).run x.2).map fun y =>
        (y.1.toOption.map (·.isSuccess), y.2.indexingState Sample.forgotten.mark)) =
      some (some true, .upToDate) := by decide +kernel
  obtain ⟨⟨r, s⟩, hreached, hrest⟩ := Option.bind_eq_some_iff.1 hrun
  obtain ⟨⟨failure | outcome, t⟩, hexecute, hend⟩ := Option.map_eq_some_iff.1 hrest
  all_goals obtain ⟨hsuccess, hstate⟩ := Prod.mk.inj hend
  · cases hsuccess
  · exact ⟨r, s, outcome, t, hreached, hexecute, Option.some.inj hsuccess, hstate⟩

end FileIndexing
