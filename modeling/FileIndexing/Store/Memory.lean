import FileIndexing.Id
import Std.Data.ExtTreeMap

/-!
# Index data in memory

What a map-reduce index holds: for every input the keys and values that its content was mapped to,
and, turned around, for every key the inputs that contributed it.  `IndexData.replace` is the only
way in which the data changes, apart from dropping all of it.

The two maps are redundant; `IndexData.Consistent` says how they hang together.
-/

namespace FileIndexing

/-- The keys and values that one content is mapped to. -/
abbrev Mapping (K V : Type) [Ord K] := Std.ExtTreeMap K V

/-- The data of an index, by input and by key. -/
structure IndexData (K V : Type) [Ord K] where
  forward : Std.ExtTreeMap InputId (Mapping K V)
  inverted : Std.ExtTreeMap K (Std.ExtTreeMap InputId V)

namespace IndexData

variable {K V : Type} [Ord K] [Std.TransOrd K]

/-- No data. -/
def empty : IndexData K V := ⟨∅, ∅⟩

instance : Inhabited (IndexData K V) := ⟨empty⟩

/-- Takes an input out of the inputs of a key, and the key out of the keys if no input is left. -/
def dropKey (input : InputId) (inverted : Std.ExtTreeMap K (Std.ExtTreeMap InputId V)) (key : K) :
    Std.ExtTreeMap K (Std.ExtTreeMap InputId V) :=
  match inverted[key]? with
  | none => inverted
  | some inputs =>
    let inputs := inputs.erase input
    if inputs.isEmpty then inverted.erase key else inverted.insert key inputs

/-- Adds an input with a value to the inputs of a key. -/
def addKey (input : InputId) (inverted : Std.ExtTreeMap K (Std.ExtTreeMap InputId V))
    (entry : K × V) : Std.ExtTreeMap K (Std.ExtTreeMap InputId V) :=
  inverted.insert entry.1 ((inverted[entry.1]?.getD ∅).insert input entry.2)

/-- The data stored for an input. -/
def forward? (d : IndexData K V) (input : InputId) : Option (Mapping K V) := d.forward[input]?

/-- Whether the data stored for an input already is the given one. -/
def holds [BEq V] (d : IndexData K V) (input : InputId) (data : Mapping K V) : Bool :=
  match d.forward[input]? with
  | some old => old == data
  | none => data.isEmpty

/-- Replaces the data stored for an input and tells whether that changed anything. -/
def replace [BEq V] (d : IndexData K V) (input : InputId) (data : Mapping K V) :
    Bool × IndexData K V :=
  if d.holds input data then (false, d)
  else
    let old := d.forward[input]?.getD ∅
    let inverted := data.toList.foldl (addKey input) (old.keys.foldl (dropKey input) d.inverted)
    let forward := d.forward.erase input
    (true, ⟨if data.isEmpty then forward else forward.insert input data, inverted⟩)

theorem forward?_replace [BEq V] (d : IndexData K V) (input other : InputId)
    (data : Mapping K V) (h : d.holds input data = false) :
    (d.replace input data).2.forward? other =
      if input = other then (if data.isEmpty then none else some data) else d.forward? other := by
  simp only [replace, h, Bool.false_eq_true, if_false, forward?]
  split
  · rw [Std.ExtTreeMap.getElem?_erase]
    simp
  · rw [Std.ExtTreeMap.getElem?_insert, Std.ExtTreeMap.getElem?_erase]
    split <;> simp_all

theorem replace_of_holds [BEq V] (d : IndexData K V) (input : InputId) (data : Mapping K V)
    (h : d.holds input data = true) : d.replace input data = (false, d) := by
  simp [replace, h]

/-! ## Queries -/

/-- The inputs that contributed a key, with their values, in the order of the inputs. -/
def valuesForKey (d : IndexData K V) (key : K) : List (InputId × V) :=
  (d.inverted[key]?.getD ∅).toList

/-- The inputs that contributed a key, in order. -/
def inputsForKey (d : IndexData K V) (key : K) : List InputId := (d.valuesForKey key).map (·.1)

/-- The number of inputs with data. -/
def inputCount (d : IndexData K V) : Nat := d.forward.size

/-- The number of different keys. -/
def keyCount (d : IndexData K V) : Nat := d.inverted.size

/-! ## Consistency -/

/-- The two maps tell the same, and no entry of either is empty. -/
structure Consistent (d : IndexData K V) : Prop where
  agree : ∀ (input : InputId) (key : K) (value : V),
    (∃ data, d.forward[input]? = some data ∧ data[key]? = some value) ↔
      ∃ inputs, d.inverted[key]? = some inputs ∧ inputs[input]? = some value
  forwardNonempty : ∀ (input : InputId) (data : Mapping K V),
    d.forward[input]? = some data → data.isEmpty = false
  invertedNonempty : ∀ (key : K) (inputs : Std.ExtTreeMap InputId V),
    d.inverted[key]? = some inputs → inputs.isEmpty = false

/-- The empty data are consistent. -/
theorem consistent_empty : (empty : IndexData K V).Consistent where
  agree := by simp [empty]
  forwardNonempty := by simp [empty]
  invertedNonempty := by simp [empty]

/-- The index data in debugging output. -/
def debugText (d : IndexData K V) (index : IndexId) : String :=
  s!"MemoryIndex \x7b id: {index.debugText}, inputs: {d.inputCount}, keys: {d.keyCount} \x7d"

end IndexData

/-- Whether an index is up to date for an input. -/
inductive IndexingState where
  | upToDate
  | notIndexed
  deriving DecidableEq, Repr, Inhabited

/-- The indexing state as shown to people. -/
def IndexingState.text : IndexingState → String
  | .upToDate => "up-to-date"
  | .notIndexed => "not-indexed"

/-- An index in memory: its data, and the inputs for which it is up to date. -/
structure MemoryIndex (K V : Type) [Ord K] where
  data : IndexData K V
  indexed : Std.ExtTreeMap InputId Unit

namespace MemoryIndex

variable {K V : Type} [Ord K] [Std.TransOrd K]

/-- An index without data. -/
def empty : MemoryIndex K V := ⟨.empty, ∅⟩

instance : Inhabited (MemoryIndex K V) := ⟨empty⟩

/-- Replaces the data of an input. -/
def replace [BEq V] (m : MemoryIndex K V) (input : InputId) (data : Mapping K V) :
    Bool × MemoryIndex K V :=
  let (changed, data) := m.data.replace input data
  (changed, { m with data })

/-- The indexing state of an input. -/
def state (m : MemoryIndex K V) (input : InputId) : IndexingState :=
  if m.indexed.contains input then .upToDate else .notIndexed

/-- Notes that the index is up to date for an input. -/
def setIndexed (m : MemoryIndex K V) (input : InputId) : MemoryIndex K V :=
  { m with indexed := m.indexed.insert input () }

/-- Notes that the index is not up to date for an input. -/
def setUnindexed (m : MemoryIndex K V) (input : InputId) : MemoryIndex K V :=
  { m with indexed := m.indexed.erase input }

/-- Drops all data. -/
def dropData (m : MemoryIndex K V) : MemoryIndex K V := { m with data := .empty }

/-- Forgets all indexing states. -/
def dropStates (m : MemoryIndex K V) : MemoryIndex K V := { m with indexed := ∅ }

omit [Std.TransOrd K] in
theorem state_setIndexed (m : MemoryIndex K V) (input other : InputId) :
    (m.setIndexed input).state other = if input = other then .upToDate else m.state other := by
  simp only [state, setIndexed, Std.ExtTreeMap.contains_insert]
  by_cases h : input = other <;> simp [h]

omit [Std.TransOrd K] in
theorem state_setUnindexed (m : MemoryIndex K V) (input other : InputId) :
    (m.setUnindexed input).state other = if input = other then .notIndexed else m.state other := by
  simp only [state, setUnindexed, Std.ExtTreeMap.contains_erase]
  by_cases h : input = other <;> simp [h]

omit [Std.TransOrd K] in
@[simp] theorem state_dropStates (m : MemoryIndex K V) (input : InputId) :
    m.dropStates.state input = .notIndexed := by
  simp [state, dropStates]

@[simp] theorem state_replace [BEq V] (m : MemoryIndex K V) (input other : InputId)
    (data : Mapping K V) : (m.replace input data).2.state other = m.state other := rfl

omit [Std.TransOrd K] in
@[simp] theorem data_setIndexed (m : MemoryIndex K V) (input : InputId) :
    (m.setIndexed input).data = m.data := rfl

omit [Std.TransOrd K] in
@[simp] theorem data_setUnindexed (m : MemoryIndex K V) (input : InputId) :
    (m.setUnindexed input).data = m.data := rfl

end MemoryIndex

end FileIndexing
