import FileIndexing.Proofs.Inversion
import FileIndexing.Proofs.Trace
import FileIndexing.Store.LastWriter

/-!
# An index in memory as a last-writer map

Whoever holds an index in memory prepares updates, applies prepared updates whenever and as often as
he likes, and clears the index.  All that can be asked of the index afterwards is what a plain map
answers in which the last writer of every input has its way.

* `Holder.use` is one step of the holder, `Account.after` the same step of the plain map.
* `IndexData.Represents` relates the data of an index to a plain map.  `Represents.replace` says
  that replacing keeps the relation, `Represents.replace_fst` when replacing changes something, and
  `Represents.mirrors` that related data answer all questions alike.
* `Holder.Tracks` is the invariant of the steps: `Holder.Tracks.use` is about one step, and
  `Holder.Tracks.useAll` about a sequence of them.
* `memory_refines_lastWriter` is the result.
-/

namespace FileIndexing

variable {K V : Type} [Ord K] [Std.TransOrd K]

/-! ## Steps -/

/-- What the holder of an index does with it. -/
inductive Use where
  /-- Prepares an update of an input, or its removal if there is no content. -/
  | prepare (input : InputId) (content : Option FileContent)
  /-- Applies the prepared update at some place in the order of preparation. -/
  | apply (place : Nat)
  | clear

/-- How a step ended. -/
inductive Answer where
  | prepared (result : Except Failure Unit)
  | applied (result : Except Failure Bool)
  | cleared (result : Except Failure Unit)
  /-- There is no prepared update at that place. -/
  | missing

/-- An index and the updates that were prepared for it, the oldest first. -/
structure Holder (K V : Type) [Ord K] where
  store : MemoryIndex K V
  updates : List (PreparedUpdate (Mapping K V))

namespace Holder

/-- Holds an index without data. -/
def empty : Holder K V := ⟨.empty, []⟩

/-- One step of the holder. -/
def use [BEq V] (indexer : Indexer K V) (index : IndexId) (h : Holder K V) :
    Use → Option (Answer × Holder K V)
  | .prepare input content =>
    (((StoreHandle.memory indexer index).prepare input content).run h.store).map fun (r, store) =>
      (.prepared (r.map fun _ => ()), ⟨store, h.updates ++ r.toOption.toList⟩)
  | .apply place =>
    match h.updates[place]? with
    | none => some (.missing, h)
    | some update =>
      (((StoreHandle.memory indexer index).apply update).run h.store).map fun (r, store) =>
        (.applied r, { h with store })
  | .clear =>
    ((StoreHandle.memory indexer index).clear.run h.store).map fun (r, store) =>
      (.cleared r, { h with store })

/-- Some steps, one after the other. -/
def useAll [BEq V] (indexer : Indexer K V) (index : IndexId) :
    Holder K V → List Use → Option (Holder K V)
  | h, [] => some h
  | h, use :: rest => (h.use indexer index use).bind fun r => r.2.useAll indexer index rest

end Holder

/-- A last-writer map and what was prepared for it, the oldest first. -/
structure Account (K V : Type) [Ord K] where
  written : LastWriter K V
  prepared : List (InputId × Mapping K V)

namespace Account

/-- Nothing written and nothing prepared. -/
def empty : Account K V := ⟨.empty, []⟩

/-- The data that an input has by a content, if the indexer can map it. -/
def mapped? (indexer : Indexer K V) : Option FileContent → Option (Mapping K V)
  | none => some ∅
  | some content => (indexer content).toOption

/-- One step of the account. -/
def after (indexer : Indexer K V) (a : Account K V) : Use → Account K V
  | .prepare input content =>
    let prepared := (mapped? indexer content).map fun data => (input, data)
    { a with prepared := a.prepared ++ prepared.toList }
  | .apply place =>
    match a.prepared[place]? with
    | none => a
    | some (input, data) => { a with written := a.written.write input data }
  | .clear => { a with written := .empty }

/-- The account after some steps. -/
def ofUses (indexer : Indexer K V) (uses : List Use) : Account K V :=
  uses.foldl (after indexer) .empty

end Account

/-! ## Data and last-writer maps -/

/-- Lists in strictly increasing order with the same members are the same. -/
theorem eq_of_increasing {l l' : List (InputId × V)}
    (hl : l.Pairwise fun a b => compare a.1 b.1 = .lt)
    (hl' : l'.Pairwise fun a b => compare a.1 b.1 = .lt) (h : ∀ a, a ∈ l ↔ a ∈ l') : l = l' := by
  have hne : ∀ {a b : InputId × V}, compare a.1 b.1 = .lt → a ≠ b := by
    rintro a b hab rfl
    simp at hab
  have hperm : l.Perm l' :=
    (List.perm_ext_iff_of_nodup (hl.imp hne) (hl'.imp hne)).2 h
  refine hperm.eq_of_pairwise (fun a b _ _ hab hba => ?_) hl hl'
  rw [Std.OrientedOrd.eq_swap, hba] at hab
  cases hab

namespace IndexData

/-- All that can be asked of the data of an index is answered as by a last-writer map. -/
structure Mirrors (d : IndexData K V) (m : LastWriter K V) : Prop where
  forward? : ∀ input, d.forward? input = m.forward? input
  nonempty : ∀ input data, m.forward? input = some data → data.isEmpty = false
  /-- Under a key are the inputs whose data have the key, with the values that they have. -/
  mem_values : ∀ key input value, (input, value) ∈ d.valuesForKey key ↔
    ∃ data, m.forward? input = some data ∧ data[key]? = some value
  increasing : ∀ key, (d.valuesForKey key).Pairwise fun a b => compare a.1 b.1 = .lt
  values : ∀ key, d.valuesForKey key = m.valuesForKey key
  inputs : ∀ key, d.inputsForKey key = m.inputsForKey key
  inputCount : d.inputCount = m.inputCount
  keyCount : d.keyCount = m.keyCount

/-- The data are consistent and are by input those of a last-writer map. -/
structure Represents (d : IndexData K V) (m : LastWriter K V) : Prop where
  consistent : d.Consistent
  forward : d.forward = m.mappings

theorem represents_empty : (empty : IndexData K V).Represents .empty :=
  ⟨consistent_empty, rfl⟩

namespace Represents

variable {d : IndexData K V} {m : LastWriter K V}

theorem forward?_eq (h : d.Represents m) (input : InputId) :
    d.forward? input = m.forward? input := by
  rw [IndexData.forward?, h.forward, LastWriter.forward?]

theorem mem_values (h : d.Represents m) (key : K) (input : InputId) (value : V) :
    (input, value) ∈ d.valuesForKey key ↔
      ∃ data, m.forward? input = some data ∧ data[key]? = some value := by
  rw [mem_valuesForKey h.consistent, h.forward?_eq]

theorem values (h : d.Represents m) (key : K) : d.valuesForKey key = m.valuesForKey key := by
  refine eq_of_increasing (d.valuesForKey_increasing key) (m.valuesForKey_increasing key) ?_
  rintro ⟨input, value⟩
  rw [h.mem_values, LastWriter.mem_valuesForKey]

variable [Std.LawfulEqOrd K]

theorem keyCount (h : d.Represents m) : d.keyCount = m.keyCount := by
  have hkeys : d.inverted.map (fun _ _ => ()) = m.keys := by
    refine Std.ExtTreeMap.ext_mem_unit fun key => ?_
    rw [Std.ExtTreeMap.mem_map, mem_inverted h.consistent, LastWriter.mem_keys]
    simp only [h.forward?_eq]
  rw [IndexData.keyCount, LastWriter.keyCount, ← hkeys, Std.ExtTreeMap.size_map]

/-- Data that represent a last-writer map answer all questions as it does. -/
theorem mirrors (h : d.Represents m) : d.Mirrors m where
  forward? := h.forward?_eq
  nonempty input data hdata := h.consistent.forwardNonempty input data (h.forward ▸ hdata)
  mem_values := h.mem_values
  increasing := d.valuesForKey_increasing
  values := h.values
  inputs key := by rw [inputsForKey, h.values, LastWriter.inputsForKey]
  inputCount := by rw [IndexData.inputCount, h.forward, LastWriter.inputCount]
  keyCount := h.keyCount

variable [BEq V] [LawfulBEq V]

/-- An input holds some data exactly if writing them makes no difference. -/
theorem holds_iff (h : d.Represents m) (input : InputId) (data : Mapping K V) :
    d.holds input data = true ↔ m.write input data = m := by
  rw [LastWriter.write_eq_self_iff, ← h.forward?_eq, IndexData.forward?, holds]
  cases hold : d.forward[input]? with
  | none => cases hempty : data.isEmpty <;> simp
  | some old =>
    have hsome : old.isEmpty = false := h.consistent.forwardNonempty input old hold
    rw [beq_iff_eq]
    constructor
    · rintro rfl
      simp [hsome]
    · intro heq
      split at heq
      · cases heq
      · exact Option.some.inj heq

/-- Replacing data is writing them. -/
theorem replace (h : d.Represents m) (input : InputId) (data : Mapping K V) :
    (d.replace input data).2.Represents (m.write input data) := by
  refine ⟨consistent_replace h.consistent input data, ?_⟩
  cases hholds : d.holds input data with
  | true => rw [d.replace_of_holds input data hholds, (h.holds_iff input data).1 hholds, h.forward]
  | false =>
    refine Std.ExtTreeMap.ext_getElem? fun other => ?_
    refine (d.forward?_replace input other data hholds).trans ?_
    rw [h.forward?_eq, ← m.forward?_write, LastWriter.forward?]

/-- Replacing data changes something exactly if writing them does. -/
theorem replace_fst (h : d.Represents m) (input : InputId) (data : Mapping K V) :
    (d.replace input data).1 = true ↔ m.write input data ≠ m := by
  rw [ne_eq, ← h.holds_iff input data, IndexData.replace]
  split <;> simp_all

end Represents

end IndexData

/-! ## Single steps -/

namespace Account

omit [Std.TransOrd K] in
/-- The data of a content in an account are those that an index prepares for it. -/
theorem mapped?_eq (indexer : Indexer K V) (index : IndexId) (input : InputId)
    (content : Option FileContent) :
    mapped? indexer content = (StoreHandle.mapped indexer index input content).toOption := by
  cases content with
  | none => rfl
  | some content =>
    simp only [mapped?, StoreHandle.mapped]
    cases indexer content with
    | ok data => rfl
    | error refusal => cases refusal <;> rfl

end Account

namespace Holder

variable [BEq V] (indexer : Indexer K V) (index : IndexId) {h : Holder K V}

/-- Preparing an update leaves the index alone. -/
theorem use_prepare (input : InputId) (content : Option FileContent) :
    h.use indexer index (.prepare input content) =
      some (.prepared ((StoreHandle.mapped indexer index input content).map fun _ => ()),
        ⟨h.store, h.updates ++
          ((Account.mapped? indexer content).map fun data => ⟨index, input, data⟩).toList⟩) := by
  rw [Account.mapped?_eq indexer index input]
  simp only [use, StoreHandle.memory, Action.run_bind, Action.run_resume]
  cases StoreHandle.mapped indexer index input content <;> rfl

/-- Applying an update replaces the data of its input. -/
theorem use_apply {place : Nat} {update : PreparedUpdate (Mapping K V)}
    (hplace : h.updates[place]? = some update) :
    h.use indexer index (.apply place) =
      some (.applied (.ok (h.store.data.replace update.input update.change).1),
        { h with store := (h.store.replace update.input update.change).2 }) := by
  simp only [use, hplace]
  rfl

/-- Applying an update of an input that has its data already leaves the index as it is. -/
theorem use_apply_again {place : Nat} {update : PreparedUpdate (Mapping K V)}
    (hplace : h.updates[place]? = some update)
    (hholds : h.store.data.holds update.input update.change = true) :
    h.use indexer index (.apply place) = some (.applied (.ok false), h) := by
  rw [use_apply indexer index hplace, MemoryIndex.replace, h.store.data.replace_of_holds _ _ hholds]

theorem use_missing {place : Nat} (hplace : h.updates[place]? = none) :
    h.use indexer index (.apply place) = some (.missing, h) := by
  simp only [use, hplace]

/-- Clearing an index leaves neither data nor indexing states. -/
theorem use_clear :
    h.use indexer index .clear = some (.cleared (.ok ()), { h with store := .empty }) := rfl

/-! ## Sequences of steps -/

/-- The data of the index represent the account, and the prepared updates are those of the
account. -/
structure Tracks (h : Holder K V) (a : Account K V) : Prop where
  data : h.store.data.Represents a.written
  updates : h.updates.map (fun update => (update.input, update.change)) = a.prepared

variable {a : Account K V}

omit [BEq V] in
theorem tracks_empty : (empty : Holder K V).Tracks .empty := ⟨IndexData.represents_empty, rfl⟩

omit [BEq V] in
/-- What the account has at some place was prepared there. -/
theorem Tracks.prepared (htracks : h.Tracks a) {place : Nat} {input : InputId}
    {data : Mapping K V} (hplace : a.prepared[place]? = some (input, data)) :
    ∃ update, h.updates[place]? = some update ∧ update.input = input ∧ update.change = data := by
  rw [← htracks.updates, List.getElem?_map, Option.map_eq_some_iff] at hplace
  obtain ⟨update, hupdate, heq⟩ := hplace
  exact ⟨update, hupdate, congrArg Prod.fst heq, congrArg Prod.snd heq⟩

variable [Std.LawfulEqOrd K] [LawfulBEq V]

/-- Every step of the holder is the same step of the account. -/
theorem Tracks.use (htracks : h.Tracks a) (use : Use) :
    ∃ answer h', h.use indexer index use = some (answer, h') ∧ h'.Tracks (a.after indexer use) := by
  cases use with
  | prepare input content =>
    refine ⟨_, _, use_prepare indexer index input content, htracks.data, ?_⟩
    rw [List.map_append, htracks.updates, Account.after]
    cases Account.mapped? indexer content <;> rfl
  | apply place =>
    cases hplace : a.prepared[place]? with
    | none =>
      refine ⟨_, _, use_missing indexer index ?_, ?_⟩
      · rw [← htracks.updates, List.getElem?_map, Option.map_eq_none_iff] at hplace
        exact hplace
      · simpa only [Account.after, hplace] using htracks
    | some entry =>
      obtain ⟨update, hupdate, hinput, hchange⟩ := htracks.prepared hplace
      refine ⟨_, _, use_apply indexer index hupdate, ?_⟩
      simp only [Account.after, hplace, ← hinput, ← hchange]
      exact ⟨htracks.data.replace update.input update.change, htracks.updates⟩
  | clear => exact ⟨_, _, use_clear indexer index, IndexData.represents_empty, htracks.updates⟩

/-- So is every sequence of steps. -/
theorem Tracks.useAll (htracks : h.Tracks a) (uses : List Use) :
    ∃ h', h.useAll indexer index uses = some h' ∧
      h'.Tracks (uses.foldl (Account.after indexer) a) := by
  induction uses generalizing h a with
  | nil => exact ⟨h, rfl, htracks⟩
  | cons use rest ih =>
    obtain ⟨answer, h', huse, htracks'⟩ := htracks.use indexer index use
    obtain ⟨h'', hrest, htracks''⟩ := ih htracks'
    exact ⟨h'', by rw [Holder.useAll, huse]; exact hrest, htracks''⟩

/-! ## The result -/

/-- What the next step of a holder comes to, judged by the account. -/
structure Serves (h : Holder K V) (indexer : Indexer K V) (index : IndexId) (a : Account K V) :
    Prop where
  /-- Preparing leaves the index as it is, and succeeds exactly if the content can be mapped. -/
  prepare : ∀ input content, ∃ r updates,
    h.use indexer index (.prepare input content) = some (.prepared r, ⟨h.store, updates⟩) ∧
      (r = .ok () ↔ ∃ data, Account.mapped? indexer content = some data)
  /-- Applying an update tells whether the plain map changes, and applying it once more changes
  nothing. -/
  apply : ∀ place input data, a.prepared[place]? = some (input, data) →
    ∃ changed h', h.use indexer index (.apply place) = some (.applied (.ok changed), h') ∧
      (changed = true ↔ a.written.write input data ≠ a.written) ∧
      h'.use indexer index (.apply place) = some (.applied (.ok false), h')
  clear : ∃ h', h.use indexer index .clear = some (.cleared (.ok ()), h')

theorem Tracks.serves (htracks : h.Tracks a) : h.Serves indexer index a where
  prepare input content := by
    refine ⟨_, _, use_prepare indexer index input content, ?_⟩
    rw [Account.mapped?_eq indexer index input]
    cases StoreHandle.mapped indexer index input content <;> simp [Except.map, Except.toOption]
  apply place input data hplace := by
    obtain ⟨update, hupdate, rfl, rfl⟩ := htracks.prepared hplace
    have hholds : (h.store.data.replace update.input update.change).2.holds update.input
        update.change = true :=
      ((htracks.data.replace _ _).holds_iff _ _).2 (LastWriter.write_write _ _ _)
    exact ⟨_, _, use_apply indexer index hupdate, htracks.data.replace_fst _ _,
      use_apply_again indexer index hupdate hholds⟩
  clear := ⟨_, use_clear indexer index⟩

end Holder

/-- Whatever sequence of steps the holder of an index in memory takes, the index answers all
questions as the map does in which the last writer of every input has its way, and its next step
comes to what that map says. -/
theorem memory_refines_lastWriter [Std.LawfulEqOrd K] [BEq V] [LawfulBEq V]
    (indexer : Indexer K V) (index : IndexId) (uses : List Use) :
    ∃ h : Holder K V, Holder.empty.useAll indexer index uses = some h ∧
      h.store.data.Mirrors (Account.ofUses indexer uses).written ∧
      h.Serves indexer index (Account.ofUses indexer uses) := by
  obtain ⟨h, huses, htracks⟩ := Holder.tracks_empty.useAll indexer index uses
  exact ⟨h, huses, htracks.data.mirrors, htracks.serves indexer index⟩

namespace Sample

/-- Indexes a file by its size. -/
def bySize : Indexer Nat Nat := fun content => .ok (Std.ExtTreeMap.empty.insert content.size 1)

/-- A file is updated and removed, and the update is applied once more. -/
def stale : List Use :=
  [.prepare ⟨1⟩ (some (content 3)), .apply 0, .prepare ⟨1⟩ none, .apply 1, .apply 0]

end Sample

/-- An update that was prepared before a removal and is applied after it counts. -/
theorem memory_refines_lastWriter_stale : ∃ h : Holder Nat Nat,
    Holder.empty.useAll Sample.bySize Sample.sizes Sample.stale = some h ∧
      h.store.data.valuesForKey 3 = [(⟨1⟩, 1)] ∧ h.store.data.keyCount = 1 ∧
      ∃ h', h.use Sample.bySize Sample.sizes (.apply 0) = some (.applied (.ok false), h') := by
  obtain ⟨h, huses, hmirrors, hserves⟩ :=
    memory_refines_lastWriter Sample.bySize Sample.sizes Sample.stale
  refine ⟨h, huses, ?_, ?_, ?_⟩
  · rw [hmirrors.values]
    decide +kernel
  · rw [hmirrors.keyCount]
    decide +kernel
  · obtain ⟨changed, h', huse, hchanged, -⟩ :=
      hserves.apply 0 ⟨1⟩ (Std.ExtTreeMap.empty.insert 3 1) rfl
    have hsame : changed = false := by
      rw [← Bool.not_eq_true, hchanged, not_not]
      exact LastWriter.write_write _ _ _
    exact ⟨h', hsame ▸ huse⟩

end FileIndexing
