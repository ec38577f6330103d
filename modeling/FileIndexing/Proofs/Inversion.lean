import FileIndexing.Store.Memory

/-!
# The inverted map of an index

The data of an index are kept twice, by input and by key.  Replacing the data of an input changes
the map by key one key at a time: the input is taken out of its old keys, keys without inputs are
dropped, and the input is put under its new keys.  This module says what comes of it.

* `value?` reads one value from a map by key.  `value?_dropKeys` and `value?_addKeys` say what the
  two passes over the keys do to it, by induction over the keys.
* `Populated` says that no key is kept without inputs, and both passes keep it.
* `consistent_replace` is the result for the two maps together: they go on telling the same.
* For data that are consistent, `mem_valuesForKey` and `mem_inverted` read the map by key off the
  map by input.
-/

namespace FileIndexing.IndexData

variable {K V : Type} [Ord K] [Std.TransOrd K]

/-! ## Single entries -/

/-- The value that a map by key holds for an input under a key. -/
def value? (inverted : Std.ExtTreeMap K (Std.ExtTreeMap InputId V)) (key : K) (input : InputId) :
    Option V :=
  inverted[key]?.bind (·[input]?)

theorem value?_eq_some_iff {inverted : Std.ExtTreeMap K (Std.ExtTreeMap InputId V)} {key : K}
    {input : InputId} {value : V} :
    value? inverted key input = some value ↔
      ∃ inputs, inverted[key]? = some inputs ∧ inputs[input]? = some value := by
  unfold value?
  exact Option.bind_eq_some_iff

/-- A map holds a value under a key exactly if one of its entries has that value and an equal
key. -/
theorem getElem?_eq_some_iff_exists_entry {data : Mapping K V} {key : K} {value : V} :
    data[key]? = some value ↔
      ∃ entry ∈ data.toList, compare entry.1 key = .eq ∧ entry.2 = value := by
  rw [Std.ExtTreeMap.getElem?_eq_some_iff_exists_compare_eq_eq_and_mem_toList]
  constructor
  · rintro ⟨other, hkey, hmem⟩
    exact ⟨(other, value), hmem, Std.OrientedCmp.eq_symm hkey, rfl⟩
  · rintro ⟨⟨other, _⟩, hmem, hkey, rfl⟩
    exact ⟨other, Std.OrientedCmp.eq_symm hkey, hmem⟩

/-- Keys that compare as equal are the same to a map by key. -/
theorem value?_congr {inverted : Std.ExtTreeMap K (Std.ExtTreeMap InputId V)} {key other : K}
    (h : compare key other = .eq) (i : InputId) :
    value? inverted key i = value? inverted other i := by
  rw [value?, value?, Std.ExtTreeMap.getElem?_congr h]

/-- Taking an input out of a key takes that one entry away. -/
theorem value?_dropKey {inverted : Std.ExtTreeMap K (Std.ExtTreeMap InputId V)} {input : InputId}
    {key other : K} {i : InputId} {value : V} :
    value? (dropKey input inverted key) other i = some value ↔
      ¬(compare key other = .eq ∧ input = i) ∧ value? inverted other i = some value := by
  by_cases hother : compare key other = .eq
  · rw [← value?_congr hother, ← value?_congr hother]
    unfold dropKey
    cases hkey : inverted[key]? with
    | none => simp [value?, hkey]
    | some inputs =>
      have herased : (inputs.erase input)[i]? = some value ↔
          input ≠ i ∧ inputs[i]? = some value := by
        simp [Std.ExtTreeMap.getElem?_erase]
      dsimp only
      split
      · next hempty =>
        rw [Std.ExtTreeMap.isEmpty_iff.1 hempty] at herased
        simpa [value?, hkey, hother] using herased
      · simpa [value?, hkey, hother] using herased
  · have hkept : (dropKey input inverted key)[other]? = inverted[other]? := by
      unfold dropKey
      split
      · rfl
      · dsimp only
        split
        · simp [Std.ExtTreeMap.getElem?_erase, hother]
        · simp [Std.ExtTreeMap.getElem?_insert, hother]
    simp [value?, hkept, hother]

/-- Putting an input under a key puts that one entry in place. -/
theorem value?_addKey {inverted : Std.ExtTreeMap K (Std.ExtTreeMap InputId V)} {input : InputId}
    {entry : K × V} {other : K} {i : InputId} {value : V} :
    value? (addKey input inverted entry) other i = some value ↔
      (input = i ∧ compare entry.1 other = .eq ∧ entry.2 = value) ∨
        (¬(compare entry.1 other = .eq ∧ input = i) ∧ value? inverted other i = some value) := by
  obtain ⟨key, v⟩ := entry
  by_cases hother : compare key other = .eq
  · rw [← value?_congr hother, ← value?_congr hother]
    unfold addKey
    cases hkey : inverted[key]? <;> by_cases hinput : input = i <;>
      simp [value?, hkey, hinput, hother, Std.ExtTreeMap.getElem?_insert]
  · simp [addKey, value?, Std.ExtTreeMap.getElem?_insert, hother]

/-- The first pass takes the input out of all its old keys. -/
theorem value?_dropKeys {inverted : Std.ExtTreeMap K (Std.ExtTreeMap InputId V)} {input : InputId}
    {keys : List K} {key : K} {i : InputId} {value : V} :
    value? (keys.foldl (dropKey input) inverted) key i = some value ↔
      ¬((∃ old ∈ keys, compare old key = .eq) ∧ input = i) ∧
        value? inverted key i = some value := by
  induction keys generalizing inverted with
  | nil => simp
  | cons first rest ih =>
    rw [List.foldl_cons, ih, value?_dropKey]
    grind

/-- The second pass puts the input under its new keys, which are all different. -/
theorem value?_addKeys {inverted : Std.ExtTreeMap K (Std.ExtTreeMap InputId V)} {input : InputId}
    {entries : List (K × V)} (hdistinct : entries.Pairwise fun a b => ¬ compare a.1 b.1 = .eq)
    {key : K} {i : InputId} {value : V} :
    value? (entries.foldl (addKey input) inverted) key i = some value ↔
      (input = i ∧ ∃ entry ∈ entries, compare entry.1 key = .eq ∧ entry.2 = value) ∨
        (¬(input = i ∧ ∃ entry ∈ entries, compare entry.1 key = .eq) ∧
          value? inverted key i = some value) := by
  induction entries generalizing inverted with
  | nil => simp
  | cons first rest ih =>
    obtain ⟨hfirst, hrest⟩ := List.pairwise_cons.1 hdistinct
    rw [List.foldl_cons, ih hrest, value?_addKey]
    by_cases hkey : compare first.1 key = .eq
    · have habsent : ∀ entry ∈ rest, ¬ compare entry.1 key = .eq := fun entry hmem heq =>
        hfirst entry hmem (Std.TransCmp.eq_trans hkey (Std.OrientedCmp.eq_symm heq))
      grind
    · grind

/-! ## Keys without inputs -/

/-- No key is kept without inputs. -/
def Populated (inverted : Std.ExtTreeMap K (Std.ExtTreeMap InputId V)) : Prop :=
  ∀ (key : K) (inputs : Std.ExtTreeMap InputId V),
    inverted[key]? = some inputs → inputs.isEmpty = false

theorem populated_dropKey {inverted : Std.ExtTreeMap K (Std.ExtTreeMap InputId V)}
    (h : Populated inverted) (input : InputId) (key : K) :
    Populated (dropKey input inverted key) := by
  unfold dropKey
  split
  · exact h
  · next inputs hkey =>
    intro other rest hrest
    dsimp only at hrest
    split at hrest
    · rw [Std.ExtTreeMap.getElem?_erase] at hrest
      split at hrest
      · cases hrest
      · exact h other rest hrest
    · next hempty =>
      rw [Std.ExtTreeMap.getElem?_insert] at hrest
      split at hrest
      · obtain rfl := Option.some.inj hrest
        exact Bool.not_eq_true _ ▸ hempty
      · exact h other rest hrest

theorem populated_addKey {inverted : Std.ExtTreeMap K (Std.ExtTreeMap InputId V)}
    (h : Populated inverted) (input : InputId) (entry : K × V) :
    Populated (addKey input inverted entry) := by
  intro other rest hrest
  unfold addKey at hrest
  rw [Std.ExtTreeMap.getElem?_insert] at hrest
  split at hrest
  · obtain rfl := Option.some.inj hrest
    simp
  · exact h other rest hrest

theorem populated_dropKeys {inverted : Std.ExtTreeMap K (Std.ExtTreeMap InputId V)}
    (h : Populated inverted) (input : InputId) (keys : List K) :
    Populated (keys.foldl (dropKey input) inverted) := by
  induction keys generalizing inverted with
  | nil => exact h
  | cons key rest ih => exact ih (populated_dropKey h input key)

theorem populated_addKeys {inverted : Std.ExtTreeMap K (Std.ExtTreeMap InputId V)}
    (h : Populated inverted) (input : InputId) (entries : List (K × V)) :
    Populated (entries.foldl (addKey input) inverted) := by
  induction entries generalizing inverted with
  | nil => exact h
  | cons entry rest ih => exact ih (populated_addKey h input entry)

/-! ## Replacing data -/

section Replacing

variable {d : IndexData K V}

/-- Data that are consistent hold the same by key as by input. -/
theorem Consistent.value?_eq (h : d.Consistent) (key : K) (input : InputId) :
    value? d.inverted key input = (d.forward? input).bind (·[key]?) := by
  refine Option.ext fun value => ?_
  rw [value?_eq_some_iff, Option.bind_eq_some_iff]
  exact (h.agree input key value).symm

variable [BEq V]

/-- After a replacement that changes something, the input is under its new keys only, and all other
inputs are where they were. -/
theorem value?_replace (h : d.Consistent) {input : InputId} {data : Mapping K V}
    (hnew : d.holds input data = false) (key : K) (i : InputId) :
    value? (d.replace input data).2.inverted key i =
      if input = i then data[key]? else value? d.inverted key i := by
  have hinverted : (d.replace input data).2.inverted =
      data.toList.foldl (addKey input)
        ((d.forward[input]?.getD ∅).keys.foldl (dropKey input) d.inverted) := by
    simp [replace, hnew]
  refine Option.ext fun value => ?_
  rw [hinverted, value?_addKeys data.distinct_keys_toList, value?_dropKeys,
    ← getElem?_eq_some_iff_exists_entry]
  by_cases hinput : input = i
  · subst hinput
    -- What was stored for the input under a key was taken away in the first pass.
    have hdropped : value? d.inverted key input = some value →
        ∃ old ∈ (d.forward[input]?.getD ∅).keys, compare old key = .eq := by
      intro hentry
      rw [h.value?_eq, forward?, Option.bind_eq_some_iff] at hentry
      obtain ⟨old, hold, hvalue⟩ := hentry
      obtain ⟨entry, hentry, hkey, -⟩ := getElem?_eq_some_iff_exists_entry.1 hvalue
      rw [hold, Option.getD_some, ← Std.ExtTreeMap.map_fst_toList_eq_keys]
      exact ⟨entry.1, List.mem_map_of_mem hentry, hkey⟩
    simp only [true_and, and_true, if_true]
    constructor
    · rintro (hstored | ⟨-, hkey, hentry⟩)
      · exact hstored
      · exact absurd (hdropped hentry) hkey
    · exact .inl
  · simp [hinput]

/-- Replacing the data of an input keeps the two maps consistent. -/
theorem consistent_replace (h : d.Consistent) (input : InputId) (data : Mapping K V) :
    (d.replace input data).2.Consistent := by
  cases hholds : d.holds input data with
  | true => rwa [d.replace_of_holds input data hholds]
  | false =>
    have hforward := fun other => d.forward?_replace input other data hholds
    refine ⟨fun i key value => ?_, fun i stored hstored => ?_, ?_⟩
    · rw [← value?_eq_some_iff, value?_replace h hholds, ← Option.bind_eq_some_iff]
      show ((d.replace input data).2.forward? i).bind (·[key]?) = some value ↔ _
      rw [hforward]
      by_cases hinput : input = i
      · simp only [hinput, if_true]
        split
        · next hempty =>
          rw [Std.ExtTreeMap.isEmpty_iff.1 hempty]
          simp
        · simp
      · simp only [hinput, if_false]
        rw [h.value?_eq]
    · have hstored : (d.replace input data).2.forward? i = some stored := hstored
      rw [hforward] at hstored
      split at hstored
      · split at hstored
        · cases hstored
        · next hdata =>
          obtain rfl := Option.some.inj hstored
          exact Bool.not_eq_true _ ▸ hdata
      · exact h.forwardNonempty i stored hstored
    · have hpopulated : Populated (d.replace input data).2.inverted := by
        simp only [replace, hholds, Bool.false_eq_true, if_false]
        exact populated_addKeys (populated_dropKeys h.invertedNonempty input _) input _
      exact hpopulated

end Replacing

/-! ## Reading consistent data by key -/

section Queries

variable {d : IndexData K V}

/-- The inputs under a key are those whose data have the key, with the value that they have. -/
theorem mem_valuesForKey (h : d.Consistent) {key : K} {input : InputId} {value : V} :
    (input, value) ∈ d.valuesForKey key ↔
      ∃ data, d.forward? input = some data ∧ data[key]? = some value := by
  have hentry : (input, value) ∈ d.valuesForKey key ↔
      value? d.inverted key input = some value := by
    unfold valuesForKey value?
    rw [Std.ExtTreeMap.mem_toList_iff_getElem?_eq_some]
    cases d.inverted[key]? <;> simp
  rw [hentry, value?_eq_some_iff]
  exact (h.agree input key value).symm

/-- The inputs under a key come in strictly increasing order. -/
theorem valuesForKey_increasing (d : IndexData K V) (key : K) :
    (d.valuesForKey key).Pairwise fun a b => compare a.1 b.1 = .lt :=
  (d.inverted[key]?.getD ∅).ordered_keys_toList

/-- A key is kept exactly if the data of some input have it. -/
theorem mem_inverted [Std.LawfulEqOrd K] (h : d.Consistent) {key : K} :
    key ∈ d.inverted ↔ ∃ input data, d.forward? input = some data ∧ key ∈ data := by
  constructor
  · intro hkey
    obtain ⟨inputs, hinputs⟩ := Option.isSome_iff_exists.1
      (Std.ExtTreeMap.isSome_getElem?_iff_mem.2 hkey)
    have hsome := h.invertedNonempty key inputs hinputs
    obtain ⟨input, hinput⟩ : ∃ input, input ∈ inputs := by
      refine Classical.byContradiction fun hnone => ?_
      rw [Std.ExtTreeMap.isEmpty_eq_false_iff] at hsome
      exact hsome (Std.ExtTreeMap.eq_empty_iff_forall_not_mem.2 fun i hi => hnone ⟨i, hi⟩)
    obtain ⟨value, hvalue⟩ := Option.isSome_iff_exists.1
      (Std.ExtTreeMap.isSome_getElem?_iff_mem.2 hinput)
    obtain ⟨data, hdata, hstored⟩ := (h.agree input key value).2 ⟨inputs, hinputs, hvalue⟩
    exact ⟨input, data, hdata, Std.ExtTreeMap.isSome_getElem?_iff_mem.1 (by rw [hstored]; rfl)⟩
  · rintro ⟨input, data, hdata, hkey⟩
    obtain ⟨value, hvalue⟩ := Option.isSome_iff_exists.1
      (Std.ExtTreeMap.isSome_getElem?_iff_mem.2 hkey)
    obtain ⟨inputs, hinputs, -⟩ := (h.agree input key value).1 ⟨data, hdata, hvalue⟩
    exact Std.ExtTreeMap.isSome_getElem?_iff_mem.1 (by rw [hinputs]; rfl)

end Queries

end FileIndexing.IndexData
