import FileIndexing.Proofs.Freshness
import FileIndexing.Proofs.Translation

/-!
# Operations executed alone

What an operation on an index in memory comes to when nothing happens beside it.

* `Operation.effect` is what it does to its index, and `Operation.perform` what it does to the
  storage of a service and what outcome it has.
* `Behaviour.memory` is what the phases of the handle do, and `performs_memory` says that they do.
* `execute_yields_perform` says that executing an operation alone performs it, and
  `collect_execute_yields` that executing operations one after the other performs them in this
  order.
-/

namespace FileIndexing

open ServiceState

variable {K V C : Type} [Ord K]

/-! ## What an operation comes to -/

/-- The storage of the indices of a service. -/
abbrev Stores (K V : Type) [Ord K] := Std.ExtTreeMap IndexId (MemoryIndex K V)

/-- The storage of one index. -/
def storeAt (stores : Stores K V) (index : IndexId) : MemoryIndex K V :=
  stores[index]?.getD default

theorem storeAt_insert (stores : Stores K V) (index other : IndexId) (m : MemoryIndex K V) :
    storeAt (stores.insert index m) other = if index = other then m else storeAt stores other := by
  by_cases h : index = other
  · simp [storeAt, h]
  · simp [storeAt, Std.ExtTreeMap.getElem?_insert, h]

/-- Puts other storage in place of what there is. -/
def ServiceState.withStores (s : MemoryState K V C) (stores : Stores K V) : MemoryState K V C :=
  { s with stores }

/-- Puts the storage of an index in place of what there is. -/
def ServiceState.put (s : MemoryState K V C) (index : IndexId) (m : MemoryIndex K V) :
    MemoryState K V C :=
  s.withStores (s.stores.insert index m)

@[simp] theorem ServiceState.stores_put (s : MemoryState K V C) (index : IndexId)
    (m : MemoryIndex K V) : (s.put index m).stores = s.stores.insert index m := rfl

/-- Of two storages put in the place of an index only the later one is left. -/
theorem insert_insert (stores : Stores K V) (index : IndexId) (m m' : MemoryIndex K V) :
    (stores.insert index m).insert index m' = stores.insert index m' := by
  refine Std.ExtTreeMap.ext_getElem? fun other => ?_
  simp only [Std.ExtTreeMap.getElem?_insert]
  split <;> rfl

namespace Operation

/-- The data that an operation is to put into its index, if its content can be mapped. -/
def mapped (indexers : IndexId → Indexer K V) (op : Operation) : Except Failure (Mapping K V) :=
  StoreHandle.mapped (indexers op.index) op.index op.input op.task.content?

/-- Notes in an index that it is up to date for the input of an operation, or that it is not. -/
def settle (op : Operation) (m : MemoryIndex K V) : MemoryIndex K V :=
  match op.task with
  | .removal => m.setUnindexed op.input
  | .update _ => m.setIndexed op.input

/-- The indexing state of its input after an operation that changed the data. -/
def settledState (op : Operation) : IndexingState :=
  match op.task with
  | .removal => .notIndexed
  | .update _ => .upToDate

@[simp] theorem data_settle (op : Operation) (m : MemoryIndex K V) :
    (op.settle m).data = m.data := by
  unfold settle
  split <;> rfl

theorem state_settle (op : Operation) (m : MemoryIndex K V) (input : InputId) :
    (op.settle m).state input = if op.input = input then op.settledState else m.state input := by
  unfold settle settledState
  split
  · exact MemoryIndex.state_setUnindexed m op.input input
  · exact MemoryIndex.state_setIndexed m op.input input

variable [Std.TransOrd K] [BEq V]

/-- What an operation does to its index, and whether that changes the data. -/
def effect (op : Operation) (data : Mapping K V) (m : MemoryIndex K V) : Bool × MemoryIndex K V :=
  let r := m.replace op.input data
  (r.1, if r.1 then op.settle r.2 else r.2)

theorem effect_fst (op : Operation) (data : Mapping K V) (m : MemoryIndex K V) :
    (op.effect data m).1 = (m.replace op.input data).1 := rfl

theorem data_effect (op : Operation) (data : Mapping K V) (m : MemoryIndex K V) :
    (op.effect data m).2.data = (m.replace op.input data).2.data := by
  show (if (m.replace op.input data).1 then op.settle (m.replace op.input data).2
    else (m.replace op.input data).2).data = _
  split
  · rw [data_settle]
  · rfl

theorem state_effect (op : Operation) (data : Mapping K V) (m : MemoryIndex K V)
    (input : InputId) :
    (op.effect data m).2.state input =
      if (op.effect data m).1 = true ∧ op.input = input then op.settledState
      else m.state input := by
  show (if (m.replace op.input data).1 then op.settle (m.replace op.input data).2
    else (m.replace op.input data).2).state input =
      if (m.replace op.input data).1 = true ∧ op.input = input then op.settledState
      else m.state input
  split
  · simp_all [state_settle]
  · simp_all

/-- What an operation does to the storage of a service, and its outcome. -/
def perform (indexers : IndexId → Indexer K V) (op : Operation) (stores : Stores K V) :
    Outcome × Stores K V :=
  if stores.contains op.index then
    match op.mapped indexers with
    | .ok data =>
      let r := op.effect data (storeAt stores op.index)
      (.applied r.1, stores.insert op.index r.2)
    | .error (.error (.mapping failure)) => (.mappingFailed failure, stores)
    | .error failure => (.storageCorrupted failure.toError, stores)
  else (.unknownIndex, stores)

theorem perform_of_mapped {indexers : IndexId → Indexer K V} {op : Operation}
    {stores : Stores K V} {data : Mapping K V} (hregistered : stores.contains op.index = true)
    (hmapped : op.mapped indexers = .ok data) :
    op.perform indexers stores = (.applied (op.effect data (storeAt stores op.index)).1,
      stores.insert op.index (op.effect data (storeAt stores op.index)).2) := by
  unfold perform
  rw [if_pos hregistered, hmapped]

/-- No operation registers an index. -/
theorem contains_perform (indexers : IndexId → Indexer K V) (op : Operation) (stores : Stores K V)
    (index : IndexId) :
    (op.perform indexers stores).2.contains index = stores.contains index := by
  unfold perform
  split
  · next hregistered =>
    split
    · by_cases hindex : op.index = index
      · rw [← hindex, hregistered]
        simp
      · simp [hindex]
    · rfl
    · rfl
  · rfl

/-- An operation whose content can be mapped, or is refused with no listener panicking at that. -/
def IsHarmless (indexers : IndexId → Indexer K V) (listeners : List Listener) (op : Operation) :
    Prop :=
  (∃ data, op.mapped indexers = .ok data) ∨
    (∃ failure, op.mapped indexers = .error (.error (.mapping failure))) ∧
      ∀ tag, Listener.recording tag true ∉ listeners

end Operation

/-- What operations do to the storage of a service one after the other, and their outcomes. -/
def performAll [Std.TransOrd K] [BEq V] (indexers : IndexId → Indexer K V) :
    List Operation → Stores K V → List Outcome × Stores K V
  | [], stores => ([], stores)
  | op :: rest, stores =>
    let r := op.perform indexers stores
    let q := performAll indexers rest r.2
    (r.1 :: q.1, q.2)

/-- Whether data are replaced and by what depends on the data alone. -/
theorem MemoryIndex.data_replace [Std.TransOrd K] [BEq V] (m : MemoryIndex K V) (input : InputId)
    (data : Mapping K V) :
    (m.replace input data).1 = (m.data.replace input data).1 ∧
      (m.replace input data).2.data = (m.data.replace input data).2 := ⟨rfl, rfl⟩

section Sequences

variable [Std.TransOrd K] [BEq V] (indexers : IndexId → Indexer K V)

theorem performAll_append (ops ops' : List Operation) (stores : Stores K V) :
    performAll indexers (ops ++ ops') stores =
      ((performAll indexers ops stores).1 ++
          (performAll indexers ops' (performAll indexers ops stores).2).1,
        (performAll indexers ops' (performAll indexers ops stores).2).2) := by
  induction ops generalizing stores with
  | nil => rfl
  | cons op rest ih => simp [performAll, ih]

theorem contains_performAll (ops : List Operation) (stores : Stores K V) (index : IndexId) :
    (performAll indexers ops stores).2.contains index = stores.contains index := by
  induction ops generalizing stores with
  | nil => rfl
  | cons op rest ih => rw [performAll, ih, Operation.contains_perform]

/-- Keys and values are told from none at all by their number. -/
theorem beq_empty_of_isEmpty {data : Mapping K V} (hdata : data.isEmpty = false) :
    (data == ∅) = false := by
  obtain ⟨m⟩ := data
  revert hdata
  refine Std.ExtDTreeMap.inductionOn m fun m => ?_
  intro hdata
  have hsize : m.inner.size ≠ 0 := by
    have hm : m.isEmpty = false := hdata
    rw [Std.DTreeMap.isEmpty_eq_size_eq_zero] at hm
    exact ne_of_beq_false hm
  have hbeq : Std.DTreeMap.Internal.Impl.Const.beq m.inner .leaf = false := by
    rw [Std.DTreeMap.Internal.Impl.Const.beq, if_pos]
    exact hsize
  exact hbeq

theorem IndexData.holds_empty_of_forward? {d : IndexData K V} {input : InputId}
    {data : Mapping K V} (hstored : d.forward? input = some data) (hdata : data.isEmpty = false) :
    d.holds input ∅ = false := by
  unfold IndexData.forward? at hstored
  unfold IndexData.holds
  rw [hstored]
  exact beq_empty_of_isEmpty hdata

theorem IndexData.holds_replace_empty (d : IndexData K V) (input : InputId) :
    (d.replace input ∅).2.holds input ∅ = true := by
  cases hholds : d.holds input ∅ with
  | true => rwa [d.replace_of_holds input ∅ hholds]
  | false =>
    have hforward : (d.replace input ∅).2.forward[input]? = none := by
      simpa [IndexData.forward?] using d.forward?_replace input input ∅ hholds
    simp [IndexData.holds, hforward]

/-- A removal changes the data if there are any, and leaves none. -/
theorem Operation.perform_removal {op : Operation} (hop : op.task = .removal)
    {stores : Stores K V} (hregistered : stores.contains op.index = true) :
    (op.perform indexers stores).1 =
        .applied (!(storeAt stores op.index).data.holds op.input ∅) ∧
      (storeAt (op.perform indexers stores).2 op.index).data.holds op.input ∅ = true := by
  have hmapped : op.mapped indexers = .ok ∅ := by rw [Operation.mapped, hop]; rfl
  rw [Operation.perform_of_mapped hregistered hmapped]
  refine ⟨?_, ?_⟩
  · rw [Operation.effect_fst, (MemoryIndex.data_replace _ _ _).1, IndexData.replace]
    split <;> simp_all
  · rw [storeAt_insert, if_pos rfl, Operation.data_effect, (MemoryIndex.data_replace _ _ _).2]
    exact IndexData.holds_replace_empty _ _

/-- Of removals of one pair only the first can change the data. -/
theorem performAll_removals {pair : WriteMark} {ops : List Operation}
    (hops : ∀ op ∈ ops, op.mark = pair ∧ op.task = .removal) {stores : Stores K V}
    (hregistered : stores.contains pair.index = true)
    (hholds : (storeAt stores pair.index).data.holds pair.input ∅ = true) :
    (performAll indexers ops stores).1 = ops.map fun _ => .applied false := by
  induction ops generalizing stores with
  | nil => rfl
  | cons op rest ih =>
    obtain ⟨rfl, hremoval⟩ := hops op (by simp)
    obtain ⟨houtcome, hleft⟩ := Operation.perform_removal indexers hremoval hregistered
    have hheld : (storeAt stores op.index).data.holds op.input ∅ = true := hholds
    rw [hheld, Bool.not_true] at houtcome
    rw [performAll, houtcome, ih (fun other hother => hops other (by simp [hother]))
      ((Operation.contains_perform ..).trans hregistered) hleft]
    rfl

end Sequences

/-! ## Indices in memory -/

/-- What the phases of a handle for indices in memory do. -/
def Behaviour.memory [Std.TransOrd K] [BEq V] (indexers : IndexId → Indexer K V) :
    Behaviour (MemoryIndex K V) (Mapping K V) C where
  prepare index input content w :=
    ((StoreHandle.mapped (indexers index) index input content).map fun data =>
      ⟨index, input, data⟩, w)
  apply update w :=
    let r := (storeAt w.stores update.index).replace update.input update.change
    (.ok r.1, { w with stores := w.stores.insert update.index r.2 })
  setIndexed index input w :=
    (.ok (), { w with stores := w.stores.insert index ((storeAt w.stores index).setIndexed input) })
  setUnindexed index input w :=
    (.ok (),
      { w with stores := w.stores.insert index ((storeAt w.stores index).setUnindexed input) })

theorem ServiceState.AtRest.isUnlocked {S : Type} {s : ServiceState S C} (h : s.AtRest) :
    s.IsUnlocked where
  held := h.unheld
  shareable := by
    obtain ⟨writersFirst, hfree⟩ := h.coordination
    simp [hfree, Coordination.free, Coordination.canShare]

section Execution

open FileIndexing.Action

variable [Std.TransOrd K] [BEq V] {config : Config} {indexers : IndexId → Indexer K V}
  {op : Operation}

omit [Std.TransOrd K] [BEq V] in
/-- Replacing the storage of an index in one access. -/
theorem performs_onStore {α : Type} (index : IndexId)
    (f : MemoryIndex K V → α × MemoryIndex K V) :
    (Handle.onStore index (access f) : ServiceAction (MemoryIndex K V) C α).Performs fun w =>
      (.ok (f (storeAt w.stores index)).1,
        { w with stores := w.stores.insert index (f (storeAt w.stores index)).2 }) := by
  intro x
  rw [Handle.onStore_access]
  refine yields_access ?_
  rintro s rfl
  exact ⟨rfl, rfl⟩

theorem performs_memory :
    (Environment.memory config indexers : Environment _ _ C).handle.Performs
      (.memory indexers) where
  prepare index input content := by
    intro x
    rw [memory_prepare]
    exact yields_resume _ x
  apply update := by
    rw [memory_apply]
    exact performs_onStore update.index _
  setIndexed index input := by
    rw [memory_setIndexed]
    exact performs_onStore index _
  setUnindexed index input := by
    rw [memory_setUnindexed]
    exact performs_onStore index _

theorem settle_memory (op : Operation) (w : World (MemoryIndex K V) C) :
    (Behaviour.memory indexers).settle op w =
      (.ok (),
        { w with stores := w.stores.insert op.index (op.settle (storeAt w.stores op.index)) }) := by
  unfold Behaviour.settle Operation.settle
  cases op.task <;> rfl

/-- An operation whose content can be mapped and whose index is not gated has its effect. -/
theorem Behaviour.Course.of_mapped {gates : IndexId → Bool} {listeners : List Listener}
    {w : World (MemoryIndex K V) C} {a : Attempt (MemoryIndex K V) C} {data : Mapping K V}
    (h : (Behaviour.memory indexers).Course gates listeners op w a)
    (hmapped : op.mapped indexers = .ok data) (hopen : gates op.index = false) :
    a.result = .ok (.applied (op.effect data (storeAt w.stores op.index)).1) ∧
      a.world.client = w.client ∧
      a.world.stores = w.stores.insert op.index (op.effect data (storeAt w.stores op.index)).2 := by
  have hprepared : (Behaviour.memory indexers).prepareFor op w =
      (.ok ⟨op.index, op.input, data⟩, w) := by
    have hprepare : (Behaviour.memory indexers).prepareFor op w =
        ((op.mapped indexers).map fun data => ⟨op.index, op.input, data⟩, w) := rfl
    rw [hprepare, hmapped]
    rfl
  have happly : (Behaviour.memory indexers).apply ⟨op.index, op.input, data⟩ w =
      (.ok ((storeAt w.stores op.index).replace op.input data).1,
        ⟨w.stores.insert op.index ((storeAt w.stores op.index).replace op.input data).2,
          w.client⟩) := rfl
  generalize hm : (storeAt w.stores op.index).replace op.input data = r at happly
  have heffect : op.effect data (storeAt w.stores op.index) =
      (r.1, if r.1 then op.settle r.2 else r.2) := by rw [Operation.effect, hm]
  rw [heffect]
  cases h with
  | refused h => cases hprepared.symm.trans h
  | unprepared h _ => cases hprepared.symm.trans h
  | withheld h hgated =>
    cases hprepared.symm.trans h
    rw [hopen] at hgated
    cases hgated
  | unapplied h _ happlied =>
    cases hprepared.symm.trans h
    cases happly.symm.trans happlied
  | unchanged h _ happlied =>
    cases hprepared.symm.trans h
    obtain ⟨hchanged, rfl⟩ := Prod.mk.inj (happly.symm.trans happlied)
    simp [Except.ok.inj hchanged]
  | unsettled h _ _ hsettled =>
    cases hprepared.symm.trans h
    rw [settle_memory] at hsettled
    cases hsettled
  | changed h _ happlied hsettled =>
    cases hprepared.symm.trans h
    obtain ⟨hchanged, rfl⟩ := Prod.mk.inj (happly.symm.trans happlied)
    rw [settle_memory] at hsettled
    obtain ⟨-, rfl⟩ := Prod.mk.inj hsettled
    simp [Except.ok.inj hchanged, storeAt_insert, insert_insert]

/-- Executing an operation alone, in an index that is not gated, performs it. -/
theorem execute_yields_perform {x : Scene (MemoryIndex K V) C} (hheld : x.held = [])
    (hshareable : x.coordination.canShare = true) (hmark : x.marks.isMarked op.mark = false)
    (hopen : (Environment.memory config indexers : Environment _ _ C).gates x.registry op.index =
      false)
    (hop : x.world.stores.contains op.index = true → op.IsHarmless indexers x.listeners) :
    ∃ deeds, ((Environment.memory config indexers : Environment _ _ C).execute op).Yields x
      (.ok (op.perform indexers x.world.stores).1)
      { x with world := ⟨(op.perform indexers x.world.stores).2, x.world.client⟩, deeds } := by
  cases hregistered : x.world.stores.contains op.index with
  | false =>
    have hperform : op.perform indexers x.world.stores = (.unknownIndex, x.world.stores) :=
      if_neg (by simp [hregistered])
    rw [hperform]
    exact ⟨x.deeds, execute_yields_unknown rfl hopen hregistered⟩
  | true =>
    have hprepare : (Behaviour.memory indexers).prepareFor op x.world =
        ((op.mapped indexers).map fun data => ⟨op.index, op.input, data⟩, x.world) := rfl
    rcases hop hregistered with ⟨data, hmapped⟩ | ⟨⟨refusal, hmapped⟩, hquiet⟩
    · rw [hmapped] at hprepare
      obtain ⟨a, hcourse, hyields⟩ := execute_yields rfl performs_memory hheld hshareable hmark
        hopen hregistered fun refusal w h => by cases hprepare.symm.trans h
      obtain ⟨hresult, hclient, hstores⟩ := hcourse.of_mapped hmapped hopen
      rw [Operation.perform_of_mapped hregistered hmapped]
      refine ⟨a.deeds ++ x.deeds, ?_⟩
      rw [← hstores, ← hclient]
      simpa [Attempt.outcome, Attempt.scene, Attempt.registry, hresult] using hyields
    · rw [hmapped] at hprepare
      obtain ⟨a, hcourse, hyields⟩ := execute_yields rfl performs_memory hheld hshareable hmark
        hopen hregistered fun _ _ _ => hquiet
      have hrefused := (hcourse.outcome_refused_iff refusal).2 (by rw [hprepare]; rfl)
      have hperform : op.perform indexers x.world.stores =
          (.mappingFailed refusal, x.world.stores) := by
        unfold Operation.perform
        rw [if_pos hregistered, hmapped]
      rw [hperform]
      refine ⟨a.deeds ++ x.deeds, ?_⟩
      rw [hrefused, Attempt.scene, (hcourse.of_refused hrefused).1, hprepare,
        a.registry_eq _ _ (by simp [hrefused])] at hyields
      exact hyields

/-- Executing operations alone, one after the other, performs them in this order. -/
theorem collect_execute_yields (config : Config) (ops : List Operation)
    {x : Scene (MemoryIndex K V) C}
    (hheld : x.held = []) (hshareable : x.coordination.canShare = true)
    (hmarks : x.marks = .empty)
    (hopen : ∀ op ∈ ops,
      (Environment.memory config indexers : Environment _ _ C).gates x.registry op.index = false)
    (hops : ∀ op ∈ ops, x.world.stores.contains op.index = true →
      op.IsHarmless indexers x.listeners) :
    ∃ deeds, (Action.collect (Environment.memory config indexers : Environment _ _ C).execute
      ops).Yields x (.ok (performAll indexers ops x.world.stores).1)
        { x with
          world := ⟨(performAll indexers ops x.world.stores).2, x.world.client⟩, deeds } := by
  induction ops generalizing x with
  | nil => exact ⟨x.deeds, yields_pure [] x⟩
  | cons op rest ih =>
    obtain ⟨deeds, hfirst⟩ := execute_yields_perform hheld hshareable
      (by rw [hmarks]; exact MarkTable.isMarked_empty _) (hopen op (by simp)) (hops op (by simp))
    obtain ⟨deeds', hrest⟩ := ih (x := { x with
      world := ⟨(op.perform indexers x.world.stores).2, x.world.client⟩, deeds }) hheld hshareable
      hmarks (fun other hother => hopen other (by simp [hother])) fun other hother hregistered =>
        hops other (by simp [hother]) (by rwa [Operation.contains_perform] at hregistered)
    exact ⟨deeds', hfirst.bind (hrest.bind (yields_pure _ _))⟩

theorem collect_execute_ends {s : MemoryState K V C} (ops : List Operation) (hs : s.IsUnlocked)
    (hmarks : s.marks = .empty) (hok : ∀ op ∈ ops, s.registry.state op.index = .ok)
    (hops : ∀ op ∈ ops, s.stores.contains op.index = true → op.IsHarmless indexers s.listeners) :
    (Action.collect (Environment.memory config indexers : Environment _ _ C).execute ops).Ends s
      fun r t => r = .ok (performAll indexers ops s.stores).1 ∧
        t.stores = (performAll indexers ops s.stores).2 := by
  obtain ⟨deeds, hcollect⟩ := collect_execute_yields config (x := s.scene) ops hs.held hs.shareable
    hmarks (fun op hop => by simp [Environment.gates, scene, hok op hop]) hops
  obtain ⟨t, hrun, ht⟩ := hcollect s rfl
  exact ⟨_, t, hrun, rfl, congrArg (·.world.stores) ht⟩

end Execution

end FileIndexing
