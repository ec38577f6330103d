import FileIndexing.Proofs.Presence
import FileIndexing.Proofs.Refilling

/-!
# What an update leaves behind

An update notes that its input is up to date only if storage changed, while a file that is put back
during a rebuild is noted in any case.  Whether the two leave the same indexing state depends on
what the content is mapped to and on what was done to the input before.  This module says in which
indexing state an update leaves its input, for all services whose indices are kept in memory and
that have been used by one thread.

* `ServiceState.Covers` says that whatever is stored counts as indexed.  `covers_runAll` reads it
  off the protocol of data and indexing states, which a single thread keeps to like any other.
* `Operation.effect_update` says what an update does to the indexing state of its input.
* `update_indexes` is the result: the input is up to date, unless the content is mapped to no keys
  and the input neither had data nor counted as indexed before.
-/

namespace FileIndexing

open ServiceState FileIndexing.Action

variable {K V C : Type} [Ord K]

/-! ## What is stored counts as indexed -/

/-- Every input that has data is up to date. -/
def ServiceState.Covers (s : MemoryState K V C) : Prop :=
  ∀ pair, s.forward? pair ≠ none → s.indexingState pair = .upToDate

section Sequential

variable [Std.TransOrd K] [BEq V]

/-- One thread that carries out commands leaves no data of an input that is not up to date. -/
theorem covers_runAll (config : Config) (indexers : IndexId → Indexer K V) {s : MemoryState K V C}
    (hs : s.AtRest) (hcovers : s.Covers) (commands : List Command) :
    (Command.runAll (Environment.memory config indexers : Environment _ _ C) none commands).Leaves s
      fun _ t => t.Covers := by
  have hstart : PresenceInvariant s (Function.update (fun _ => .outside) 0 .outside) := by
    rw [Function.update_eq_self]
    exact presenceInvariant_outside hs hcovers
  have hstep : ∀ (l : PresencePlace) (u : MemoryState K V C) (l' : PresencePlace)
      (v : MemoryState K V C), PresenceInvariant u (Function.update (fun _ => .outside) 0 l) →
      PresenceMove l u l' v → PresenceInvariant v (Function.update (fun _ => .outside) 0 l') := by
    intro l u l' v hinv hmove
    have hplace : Function.update (fun _ : Nat => PresencePlace.outside) 0 l 0 = l :=
      Function.update_self ..
    rw [← hplace] at hmove
    simpa using hinv.step hmove
  refine (leaves_of_obeys (fun l u => PresenceInvariant u (Function.update (fun _ => .outside) 0 l))
    hstep (presenceNeutral_runAll commands) hstart).mono ?_
  -- the only thread is outside again and owes no note
  rintro _ t ⟨_, rfl, hinv⟩ pair hstored
  rcases hinv.presence.stored pair hstored with hstate | ⟨u, howes⟩
  · exact hstate
  · simp [PresencePlace.owes?] at howes

/-! ## Updates -/

/-- What an update does to the indexing state of its input, in an index in which whatever is stored
for that input counts as indexed. -/
theorem Operation.effect_update {op : Operation} {content : FileContent}
    (hop : op.task = .update content) (data : Mapping K V) {m : MemoryIndex K V}
    (hm : m.data.forward? op.input ≠ none → m.state op.input = .upToDate) :
    (op.effect data m).2.state op.input =
      if data.isEmpty ∧ m.data.forward? op.input = none ∧ m.state op.input = .notIndexed then
        .notIndexed
      else .upToDate := by
  rw [Operation.state_effect, Operation.effect_fst, (MemoryIndex.data_replace _ _ _).1,
    Operation.settledState, hop]
  cases hholds : m.data.holds op.input data with
  | false =>
    -- data that are to change are not none at all
    have hsome : ¬(data.isEmpty ∧ m.data.forward? op.input = none) := by
      rintro ⟨hdata, hnone⟩
      unfold IndexData.forward? at hnone
      simp [IndexData.holds, hnone, hdata] at hholds
    have hchanged : (m.data.replace op.input data).1 = true := by simp [IndexData.replace, hholds]
    rw [if_pos ⟨hchanged, rfl⟩, if_neg fun h => hsome ⟨h.1, h.2.1⟩]
  | true =>
    rw [IndexData.replace_of_holds _ _ _ hholds, if_neg (by simp)]
    cases hstored : m.data.forward? op.input with
    | some old => rw [hm (by simp [hstored]), if_neg (by simp)]
    | none =>
      have hdata : data.isEmpty = true := by
        unfold IndexData.forward? at hstored
        simpa [IndexData.holds, hstored] using hholds
      cases m.state op.input <;> simp [hdata]

/-- An operation whose content can be mapped comes to its end when it is executed alone, and has its
effect if it succeeds. -/
theorem execute_effects (config : Config) {indexers : IndexId → Indexer K V}
    {s : MemoryState K V C} (hs : s.IsUnlocked) {op : Operation}
    (hmark : s.marks.isMarked op.mark = false) {data : Mapping K V}
    (hmapped : op.mapped indexers = .ok data) :
    ∃ outcome t,
      ((Environment.memory config indexers : Environment _ _ C).execute op).run s =
        some (.ok outcome, t) ∧
      (outcome.isSuccess = true →
        storeAt t.stores op.index = (op.effect data (storeAt s.stores op.index)).2) := by
  cases hgates : (Environment.memory config indexers : Environment _ _ C).gates s.registry
      op.index with
  | true =>
    obtain ⟨t, hrun, -⟩ := execute_yields_gated (x := s.scene) rfl hgates s rfl
    exact ⟨.gated, t, hrun, by simp [Outcome.isSuccess]⟩
  | false =>
    obtain ⟨deeds, hyields⟩ := execute_yields_perform (x := s.scene) hs.held hs.shareable hmark
      hgates fun _ => .inl ⟨data, hmapped⟩
    obtain ⟨t, hrun, ht⟩ := hyields s rfl
    have hstores : t.stores = (op.perform indexers s.stores).2 := congrArg (·.world.stores) ht
    refine ⟨(op.perform indexers s.stores).1, t, hrun, fun hsuccess => ?_⟩
    cases hregistered : s.stores.contains op.index with
    | false =>
      have hperform : op.perform indexers s.stores = (.unknownIndex, s.stores) :=
        if_neg (by simp [hregistered])
      simp [hperform, Outcome.isSuccess] at hsuccess
    | true =>
      rw [hstores, Operation.perform_of_mapped hregistered hmapped, storeAt_insert, if_pos rfl]

/-- A file that can be mapped is up to date once it has been put back. -/
theorem indexFile_upToDate (config : Config) {indexers : IndexId → Indexer K V} {index : IndexId}
    {input : InputId} {content : FileContent} {data : Mapping K V}
    (hdata : indexers index content = .ok data) {s : MemoryState K V C} (hs : s.IsUnlocked)
    (hmark : s.marks.isMarked ⟨index, input⟩ = false) :
    ∃ changed t,
      ((Environment.memory config indexers : Environment _ _ C).indexFile index input content).run
        s = some (.ok changed, t) ∧ t.indexingState ⟨index, input⟩ = .upToDate := by
  obtain ⟨stores, deeds, hyields, hstore⟩ := indexFile_yields_putBack config (input, content)
    (x := s.scene) hs.held hs.shareable hmark (.inl ⟨data, hdata⟩)
  obtain ⟨t, hrun, ht⟩ := hyields s rfl
  have hstores : t.stores = stores := congrArg (·.world.stores) ht
  refine ⟨_, t, hrun, ?_⟩
  show (storeAt t.stores index).state input = .upToDate
  rw [hstores, hstore, MemoryIndex.state_putBack]
  exact .inl ⟨rfl, data, hdata⟩

/-- In a service whose indices are kept in memory and that one thread has used in any way, an update
with content that can be mapped comes to its end.  If it does not fail, its input is up to date
then, unless the content is mapped to no keys and the input had no data and was not up to date
before.  Putting the same content back during a rebuild, in whatever state it finds the service,
leaves the input up to date in any case. -/
theorem update_indexes (config : Config) (indexers : IndexId → Indexer K V)
    (s₀ : MemoryState K V C) (hrest : s₀.AtRest)
    (hempty : ∀ index, storeAt s₀.stores index = .empty)
    (commands : List Command) (r : Except Failure Unit) (s : MemoryState K V C)
    (hreached : (Command.runAll (Environment.memory config indexers) none commands).run s₀ =
      some (r, s))
    (op : Operation) (content : FileContent) (hop : op.task = .update content)
    (data : Mapping K V) (hdata : indexers op.index content = .ok data) :
    (∃ outcome t, ((Environment.memory config indexers).execute op).run s = some (.ok outcome, t) ∧
      (outcome.isSuccess = true →
        t.indexingState op.mark =
          if data.isEmpty ∧ s.forward? op.mark = none ∧ s.indexingState op.mark = .notIndexed then
            .notIndexed
          else .upToDate)) ∧
    ∀ u : MemoryState K V C, u.IsUnlocked → u.marks.isMarked op.mark = false →
      ∃ changed v,
        ((Environment.memory config indexers).indexFile op.index op.input content).run u =
          some (.ok changed, v) ∧ v.indexingState op.mark = .upToDate := by
  have hkeeps := keeps_runAll commands s₀ r s hreached
  have hcovers : s.Covers := covers_runAll config indexers hrest (fun pair hstored => by
    simp [forward?, hempty, MemoryIndex.empty, IndexData.empty, IndexData.forward?] at hstored)
    commands r s hreached
  have hunlocked : s.IsUnlocked :=
    ⟨hkeeps.held.trans hrest.unheld,
      (congrArg Coordination.canShare hkeeps.coordination).trans hrest.isUnlocked.shareable⟩
  have hmark : s.marks.isMarked op.mark = false := by
    rw [hkeeps.marks, hrest.marks]
    exact MarkTable.isMarked_empty _
  have hmapped : op.mapped indexers = .ok data := by
    rw [Operation.mapped, hop]
    simp [Task.content?, StoreHandle.mapped, hdata]
  obtain ⟨outcome, t, hrun, heffect⟩ := execute_effects config hunlocked hmark hmapped
  refine ⟨⟨outcome, t, hrun, fun hsuccess => ?_⟩, fun u hu hfree => indexFile_upToDate config hdata
    hu hfree⟩
  show (storeAt t.stores op.index).state op.input = _
  rw [heffect hsuccess]
  exact Operation.effect_update hop data (hcovers op.mark)

end Sequential

namespace Sample

/-- The update of the file when it has some size. -/
def renewed (size : Nat) : Operation := .update sizes (content size) ⟨1⟩ .synchronous

end Sample

/-- A file is updated, emptied and updated again. -/
theorem update_indexes_emptied :
    ∃ r s outcome t,
      (Command.runAll Sample.weighing none [Sample.resized 3, Sample.resized 0]).run Sample.state =
          some (r, s) ∧
        (Sample.weighing.execute (Sample.renewed 4)).run s = some (.ok outcome, t) ∧
        outcome.isSuccess = true ∧ t.indexingState Sample.file = .upToDate := by
  have hrun : ((Command.runAll Sample.weighing none [Sample.resized 3, Sample.resized 0]).run
      Sample.state).bind (fun x => ((Sample.weighing.execute (Sample.renewed 4)).run x.2).map
        fun y => (x.2.indexingState Sample.file, y.1.toOption.map (·.isSuccess))) =
      some (.upToDate, some true) := by decide +kernel
  obtain ⟨⟨r, s⟩, hreached, hrest⟩ := Option.bind_eq_some_iff.1 hrun
  obtain ⟨⟨outcome, t, hexecute, hleft⟩, -⟩ := update_indexes .standard _ Sample.state
    (atRest_ofStores _ _ _ _) Sample.storeAt_state [Sample.resized 3, Sample.resized 0] r s hreached
    (Sample.renewed 4) (Sample.content 4) rfl _ rfl
  have hends : (Sample.weighing.execute (Sample.renewed 4)).run s = some (.ok outcome, t) :=
    hexecute
  rw [hends] at hrest
  obtain ⟨hstate, hsuccess⟩ := Prod.mk.inj (Option.some.inj hrest)
  have hsuccess : outcome.isSuccess = true := Option.some.inj hsuccess
  have hstate : s.indexingState (Sample.renewed 4).mark = .upToDate := hstate
  refine ⟨r, s, outcome, t, hreached, hends, hsuccess, (hleft hsuccess).trans (if_neg ?_)⟩
  simp [hstate]

/-- An empty file is updated that the service has never seen.  The update succeeds, and yet the file
does not count as indexed, as it does when it is put back. -/
theorem update_leaves_unindexed :
    ∃ outcome t changed u,
      (Command.runAll Sample.weighing none []).run Sample.state = some (.ok (), Sample.state) ∧
        (Sample.weighing.execute (Sample.renewed 0)).run Sample.state = some (.ok outcome, t) ∧
        outcome.isSuccess = true ∧ t.indexingState Sample.file = .notIndexed ∧
        (Sample.weighing.indexFile Sample.sizes ⟨1⟩ (Sample.content 0)).run Sample.state =
          some (.ok changed, u) ∧
        u.indexingState Sample.file = .upToDate := by
  have hrun : ((Sample.weighing.execute (Sample.renewed 0)).run Sample.state).map
      (fun x => (x.1.toOption.map (·.isSuccess), x.2.indexingState Sample.file)) =
        some (some true, .notIndexed) := by decide +kernel
  have hback : ((Sample.weighing.indexFile Sample.sizes ⟨1⟩ (Sample.content 0)).run
      Sample.state).map (fun x => (x.1.isOk, x.2.indexingState Sample.file)) =
        some (true, .upToDate) := by decide +kernel
  obtain ⟨⟨failure | outcome, t⟩, hexecute, hend⟩ := Option.map_eq_some_iff.1 hrun
  all_goals obtain ⟨hsuccess, hstate⟩ := Prod.mk.inj hend
  · cases hsuccess
  · obtain ⟨⟨failure | changed, u⟩, hindex, hend⟩ := Option.map_eq_some_iff.1 hback
    all_goals obtain ⟨hok, hnoted⟩ := Prod.mk.inj hend
    · cases hok
    · exact ⟨outcome, t, changed, u, rfl, hexecute, Option.some.inj hsuccess, hstate, hindex,
        hnoted⟩

end FileIndexing
