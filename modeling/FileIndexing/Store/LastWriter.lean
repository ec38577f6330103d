import FileIndexing.Store.Memory

/-!
# The last writer of every input

A plain account of what an index stores: for every input that has any data, the keys and values
that were written last.  Its queries are defined on this one map, by going through all of it.
-/

namespace FileIndexing

/-- The data written last for every input, no input having empty data. -/
structure LastWriter (K V : Type) [Ord K] where
  mappings : Std.ExtTreeMap InputId (Mapping K V)

namespace LastWriter

variable {K V : Type} [Ord K] [Std.TransOrd K]

/-- Nothing written. -/
def empty : LastWriter K V := ⟨∅⟩

/-- Writes the data of an input; empty data take the input away. -/
def write (m : LastWriter K V) (input : InputId) (data : Mapping K V) : LastWriter K V :=
  ⟨if data.isEmpty then m.mappings.erase input else m.mappings.insert input data⟩

/-- The data of an input. -/
def forward? (m : LastWriter K V) (input : InputId) : Option (Mapping K V) := m.mappings[input]?

/-- The inputs whose data have a key, with their values, in the order of the inputs. -/
def valuesForKey (m : LastWriter K V) (key : K) : List (InputId × V) :=
  m.mappings.toList.filterMap fun (input, data) => data[key]?.map fun value => (input, value)

/-- The inputs whose data have a key, in order. -/
def inputsForKey (m : LastWriter K V) (key : K) : List InputId := (m.valuesForKey key).map (·.1)

/-- The number of inputs with data. -/
def inputCount (m : LastWriter K V) : Nat := m.mappings.size

/-- The keys of all data. -/
def keys (m : LastWriter K V) : Std.ExtTreeMap K Unit :=
  m.mappings.toList.foldl
    (fun keys (_, data) => data.keys.foldl (fun keys key => keys.insert key ()) keys) ∅

/-- The number of different keys. -/
def keyCount (m : LastWriter K V) : Nat := m.keys.size

omit [Std.TransOrd K] in
theorem forward?_write (m : LastWriter K V) (input other : InputId) (data : Mapping K V) :
    (m.write input data).forward? other =
      if input = other then (if data.isEmpty then none else some data) else m.forward? other := by
  simp only [write, forward?]
  split
  · rw [Std.ExtTreeMap.getElem?_erase]
    simp
  · rw [Std.ExtTreeMap.getElem?_insert]
    simp

omit [Std.TransOrd K] in
theorem ext_forward? {m m' : LastWriter K V} (h : ∀ input, m.forward? input = m'.forward? input) :
    m = m' := by
  obtain ⟨mappings⟩ := m
  obtain ⟨mappings'⟩ := m'
  exact congrArg LastWriter.mk (Std.ExtTreeMap.ext_getElem? h)

omit [Std.TransOrd K] in
/-- Writing makes no difference exactly if the input has the data already. -/
theorem write_eq_self_iff {m : LastWriter K V} {input : InputId} {data : Mapping K V} :
    m.write input data = m ↔ m.forward? input = if data.isEmpty then none else some data := by
  constructor
  · intro h
    rw [← m.forward?_write input input data |>.trans (if_pos rfl), h]
  · intro h
    refine ext_forward? fun other => ?_
    rw [forward?_write]
    split
    · next heq => rw [← heq, h]
    · rfl

omit [Std.TransOrd K] in
/-- Writing the same data again makes no difference. -/
theorem write_write (m : LastWriter K V) (input : InputId) (data : Mapping K V) :
    (m.write input data).write input data = m.write input data := by
  rw [write_eq_self_iff, forward?_write, if_pos rfl]

omit [Std.TransOrd K] in
theorem forward?_empty (input : InputId) : (empty : LastWriter K V).forward? input = none := by
  simp [empty, forward?]

theorem mem_valuesForKey {m : LastWriter K V} {key : K} {input : InputId} {value : V} :
    (input, value) ∈ m.valuesForKey key ↔
      ∃ data, m.forward? input = some data ∧ data[key]? = some value := by
  simp only [valuesForKey, forward?, List.mem_filterMap, Prod.exists,
    Std.ExtTreeMap.mem_toList_iff_getElem?_eq_some, Option.map_eq_some_iff, Prod.mk.injEq]
  constructor
  · rintro ⟨i, data, hdata, v, hvalue, rfl, rfl⟩
    exact ⟨data, hdata, hvalue⟩
  · rintro ⟨data, hdata, hvalue⟩
    exact ⟨input, data, hdata, value, hvalue, rfl, rfl⟩

theorem valuesForKey_increasing (m : LastWriter K V) (key : K) :
    (m.valuesForKey key).Pairwise fun a b => compare a.1 b.1 = .lt := by
  refine List.Pairwise.filterMap _ ?_ m.mappings.ordered_keys_toList
  intro a b hab a' ha b' hb
  obtain ⟨-, -, rfl⟩ := Option.map_eq_some_iff.1 ha
  obtain ⟨-, -, rfl⟩ := Option.map_eq_some_iff.1 hb
  exact hab

variable [Std.LawfulEqOrd K]

/-- Collecting keys adds them to those that are collected already. -/
theorem mem_collectKeys {keys : List K} {collected : Std.ExtTreeMap K Unit} {key : K} :
    key ∈ keys.foldl (fun keys key => keys.insert key ()) collected ↔
      key ∈ keys ∨ key ∈ collected := by
  induction keys generalizing collected with
  | nil => simp
  | cons first rest ih =>
    rw [List.foldl_cons, ih, Std.ExtTreeMap.mem_insert, List.mem_cons,
      Std.LawfulEqOrd.compare_eq_iff_eq, @eq_comm _ key first, or_left_comm, or_assoc]

/-- The keys are those that the data of some input have. -/
theorem mem_keys {m : LastWriter K V} {key : K} :
    key ∈ m.keys ↔ ∃ input data, m.forward? input = some data ∧ key ∈ data := by
  have hfold : ∀ (entries : List (InputId × Mapping K V)) (collected : Std.ExtTreeMap K Unit),
      key ∈ entries.foldl (fun keys (_, data) =>
          data.keys.foldl (fun keys key => keys.insert key ()) keys) collected ↔
        (∃ input data, (input, data) ∈ entries ∧ key ∈ data) ∨ key ∈ collected := by
    intro entries
    induction entries with
    | nil => simp
    | cons first rest ih =>
      intro collected
      obtain ⟨i, d⟩ := first
      rw [List.foldl_cons, ih, mem_collectKeys, Std.ExtTreeMap.mem_keys]
      grind
  rw [keys, hfold]
  simp [forward?, Std.ExtTreeMap.mem_toList_iff_getElem?_eq_some]

end LastWriter

end FileIndexing
