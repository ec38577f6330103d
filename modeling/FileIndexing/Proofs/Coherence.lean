import FileIndexing.Proofs.Inversion

/-!
# What the data of an index always are

The data of an index start empty.  Afterwards the data of one input are replaced at a time, and
everything may be dropped; nothing else ever changes them.  This module says what holds of the data
after any number of such steps, whatever keys the old and the new data of an input share with each
other and with the data of other inputs.

* `IndexData.Change` is one step, and `IndexData.ofChanges` are the data that some steps lead to.
* `IndexData.Replaced` says what a replacement does: the input has its new data in both maps, and
  every other input has what it had.  `Consistent.replaced` shows it for consistent data.
* `Consistent.after` is about one step, and `ofChanges_coherent` about any sequence of them.

Keys count as the same if they compare as equal, and nothing is assumed of the test by which values
are compared.
-/

namespace FileIndexing.IndexData

variable {K V : Type} [Ord K] [Std.TransOrd K]

/-! ## Steps -/

/-- What changes the data of an index. -/
inductive Change (K V : Type) [Ord K] where
  /-- Replaces the data of an input. -/
  | replace (input : InputId) (data : Mapping K V)
  /-- Drops everything. -/
  | clear

/-- The data after one step. -/
def after [BEq V] (d : IndexData K V) : Change K V → IndexData K V
  | .replace input data => (d.replace input data).2
  | .clear => .empty

/-- The data that some steps lead to from no data. -/
def ofChanges [BEq V] (changes : List (Change K V)) : IndexData K V := changes.foldl after .empty

/-! ## Replacing -/

/-- The data before and after the data of an input were replaced. -/
structure Replaced [BEq V] (d : IndexData K V) (input : InputId) (data : Mapping K V)
    (e : IndexData K V) : Prop where
  /-- An input that held other data has the new ones, by input and by key. -/
  own : d.holds input data = false →
    e.forward? input = (if data.isEmpty then none else some data) ∧
      ∀ key, value? e.inverted key input = data[key]?
  /-- An input that held the data keeps them. -/
  kept : d.holds input data = true → e = d
  /-- All other inputs have what they had, by input and by key. -/
  others : ∀ other, other ≠ input →
    e.forward? other = d.forward? other ∧
      ∀ key, value? e.inverted key other = value? d.inverted key other

variable [BEq V] {d : IndexData K V}

/-- Replacing the data of an input does so, and touches no other input. -/
theorem Consistent.replaced (h : d.Consistent) (input : InputId) (data : Mapping K V) :
    Replaced d input data (d.replace input data).2 := by
  cases hholds : d.holds input data with
  | true =>
    have hsame : (d.replace input data).2 = d := by rw [d.replace_of_holds input data hholds]
    rw [hsame]
    exact ⟨fun hother => by simp [hholds] at hother, fun _ => rfl, fun _ _ => ⟨rfl, fun _ => rfl⟩⟩
  | false =>
    have hforward := fun other => d.forward?_replace input other data hholds
    have hinverted := fun key other => value?_replace h hholds key other
    refine ⟨fun _ => ⟨?_, fun key => ?_⟩, fun hother => by simp [hholds] at hother,
      fun other hne => ⟨?_, fun key => ?_⟩⟩
    · rw [hforward, if_pos rfl]
    · rw [hinverted, if_pos rfl]
    · rw [hforward, if_neg (Ne.symm hne)]
    · rw [hinverted, if_neg (Ne.symm hne)]

/-! ## Any sequence of steps -/

/-- A step keeps the data consistent. -/
theorem Consistent.after (h : d.Consistent) (change : Change K V) :
    (d.after change).Consistent := by
  cases change with
  | replace input data => exact consistent_replace h input data
  | clear => exact consistent_empty

/-- So does every sequence of steps. -/
theorem Consistent.foldl_after (h : d.Consistent) (changes : List (Change K V)) :
    (changes.foldl IndexData.after d).Consistent := by
  induction changes generalizing d with
  | nil => exact h
  | cons change rest ih => exact ih (h.after change)

/-- Whatever steps the data of an index have gone through, the two maps tell the same and hold
nothing empty, and replacing the data of one input leaves those of all others as they are. -/
theorem ofChanges_coherent (changes : List (Change K V)) :
    (ofChanges changes).Consistent ∧ ∀ input data,
      Replaced (ofChanges changes) input data ((ofChanges changes).replace input data).2 := by
  have hconsistent : (ofChanges changes).Consistent := consistent_empty.foldl_after changes
  exact ⟨hconsistent, hconsistent.replaced⟩

namespace Sample

/-- Two inputs share a key, and then the first one gives it up for another. -/
def moves : List (Change Nat Nat) :=
  [.replace ⟨1⟩ (Std.ExtTreeMap.empty.insert 3 1), .clear,
    .replace ⟨1⟩ (Std.ExtTreeMap.empty.insert 3 1), .replace ⟨2⟩ (Std.ExtTreeMap.empty.insert 3 2),
    .replace ⟨1⟩ (Std.ExtTreeMap.empty.insert 5 1)]

end Sample

/-- The key that the first input gave up is still that of the second one, also when the first input
is taken out altogether. -/
theorem ofChanges_coherent_moves : (ofChanges Sample.moves).Consistent ∧
    value? (ofChanges Sample.moves).inverted 3 ⟨1⟩ = none ∧
    value? ((ofChanges Sample.moves).replace ⟨1⟩ ∅).2.inverted 3 ⟨2⟩ = some 2 ∧
    value? ((ofChanges Sample.moves).replace ⟨1⟩ ∅).2.inverted 5 ⟨1⟩ = none := by
  obtain ⟨hconsistent, hreplaced⟩ := ofChanges_coherent Sample.moves
  have hremoved := hreplaced ⟨1⟩ ∅
  refine ⟨hconsistent, by decide +kernel, ?_, ?_⟩
  · rw [(hremoved.others ⟨2⟩ (by decide)).2]
    decide +kernel
  · rw [(hremoved.own (by decide +kernel)).2]
    simp

end FileIndexing.IndexData
