import FileIndexing.Proofs.Grammar

/-!
# What is written is spelt

The characters of a written value spell a tree that stands for the value (`Value.Spelt`).  Each kind
of value has its own theorem; the ones about lists and objects ask only that what is inside them be
spelt.
-/

namespace FileIndexing.Json

/-! ## Strings -/

theorem isHexDigit_hexDigit {n : Nat} (h : n < 16) : IsHexDigit (hexDigit n) n := ⟨h, .inl rfl⟩

/-- What a character becomes inside a string is a unit that stands for the character. -/
theorem exists_spellsUnit (c : Char) : ∃ unit, SpellsUnit unit (escapeChar c) ∧
    ∀ units text, UnitsSay units text → UnitsSay (unit :: units) (c :: text) := by
  have hshort {letter : Char} (h : (letter, c) ∈ escapes) :
      ∃ unit, SpellsUnit unit ['\\', letter] ∧
        ∀ units text, UnitsSay units text → UnitsSay (unit :: units) (c :: text) :=
    ⟨.char c, .escape h, fun _ _ => .char⟩
  rw [escapeChar]
  split
  · exact hshort (by subst c; decide)
  split
  · exact hshort (by subst c; decide)
  split
  · exact hshort (by subst c; decide)
  split
  · exact hshort (by subst c; decide)
  split
  · exact hshort (by subst c; decide)
  split
  · exact hshort (by subst c; decide)
  split
  · exact hshort (by subst c; decide)
  split
  · next hcontrol =>
    have hunit : (UInt16.ofNat c.toNat).toNat = c.toNat :=
      UInt16.toNat_ofNat_of_lt' (by rw [UInt16.size]; omega)
    refine ⟨.code (UInt16.ofNat c.toNat), .numbered (isHexDigit_hexDigit (by decide : 0 < 16))
      (isHexDigit_hexDigit (by decide : 0 < 16)) (isHexDigit_hexDigit (by omega))
      (isHexDigit_hexDigit (by omega)) ?_, fun _ _ => .code hunit.symm⟩
    omega
  · next hquote hslash _ _ _ _ _ hcontrol =>
    exact ⟨.char c, .plain (Nat.le_of_not_lt hcontrol) hquote hslash, fun _ _ => .char⟩

theorem exists_spellsUnits (text : List Char) :
    ∃ units, SpellsUnits units (text.flatMap escapeChar) ∧ UnitsSay units text := by
  induction text with
  | nil => exact ⟨[], .nil, .nil⟩
  | cons c text ih =>
    obtain ⟨unit, hunit, hsay⟩ := exists_spellsUnit c
    obtain ⟨units, hunits, hsays⟩ := ih
    exact ⟨unit :: units, .cons hunit hunits, hsay units text hsays⟩

theorem exists_spellsString (text : String) :
    ∃ literal : StringLiteral, SpellsString literal (stringChars text) ∧ literal.Says text := by
  obtain ⟨units, hunits, hsays⟩ := exists_spellsUnits text.toList
  exact ⟨⟨units, none⟩, .quoted hunits, rfl, hsays⟩

/-! ## Numbers -/

theorem head?_toDigits_ne_zero {n : Nat} (h : n ≠ 0) : (Nat.toDigits 10 n).head? ≠ some '0' := by
  induction n using Nat.strongRecOn with
  | ind n ih =>
    by_cases hn : n < 10
    · rw [Nat.toDigits_of_lt_base hn]
      have hall : ∀ k < 10, k ≠ 0 → [Nat.digitChar k].head? ≠ some '0' := by decide
      exact hall n hn h
    · have hhead := ih (n / 10) (by omega) (by omega)
      rw [Nat.toDigits_of_base_le (by decide) (by omega), List.head?_append]
      cases hdigits : Nat.toDigits 10 (n / 10) with
      | nil => exact absurd hdigits Nat.toDigits_ne_nil
      | cons d rest => rwa [hdigits] at hhead

theorem wholeDigits_toDigits (n : Nat) : WholeDigits (Nat.toDigits 10 n) := by
  refine ⟨⟨Nat.toDigits_ne_nil, fun _ => Nat.isDigit_of_mem_toDigits (by decide) (by decide)⟩,
    fun hzero => ?_⟩
  by_cases hn : n = 0
  · rw [hn, Nat.toDigits_zero]
  · exact absurd hzero (head?_toDigits_ne_zero hn)

theorem spellsNumber_toString (n : Nat) :
    SpellsNumber ⟨false, Nat.toDigits 10 n, [], none⟩ (toString n).toList := by
  rw [Nat.toString_eq_ofList_toDigits, String.toList_ofList]
  simpa only [List.append_nil] using
    SpellsNumber.positive (.parts (wholeDigits_toDigits n) .none .none)

/-! ## Values -/

/-- A tree that stands for a value is spelt by the characters of the value. -/
def Value.Spelt (v : Value) : Prop := ∃ tree : Tree, Spells (.value tree) v.chars ∧ tree.Says v

theorem blank_nil : Blank [] := fun _ h => nomatch h

theorem Spells.unpadded {tree : Tree} {text : List Char} (h : Spells (.value tree) text) :
    Spells (.padded tree) text := by
  simpa only [List.nil_append, List.append_nil] using Spells.padded blank_nil h blank_nil

theorem spelt_null : Value.null.Spelt := ⟨.null, .null, .null⟩

theorem spelt_bool (b : Bool) : (Value.bool b).Spelt := by
  refine ⟨.bool b, ?_, .bool⟩
  cases b <;> exact .bool

theorem spelt_natural (n : Nat) : (Value.natural n).Spelt :=
  ⟨.number _, .number (spellsNumber_toString n), .number (spellsNumber_toString n)⟩

theorem spelt_string (text : String) : (Value.string text).Spelt := by
  obtain ⟨literal, hspells, hsays⟩ := exists_spellsString text
  exact ⟨.string literal, .string hspells, .string hsays⟩

/-- A value and the ones after it spell the items of a list. -/
theorem exists_spells_items {v : Value} {rest : List Value} (hv : v.Spelt)
    (hrest : ∀ w ∈ rest, w.Spelt) :
    ∃ items, Spells (.items items) (v.chars ++ Value.moreItemChars rest) ∧
      List.Forall₂ Tree.Says items (v :: rest) := by
  induction rest generalizing v with
  | nil =>
    obtain ⟨tree, hspells, hsays⟩ := hv
    rw [Value.moreItemChars, List.append_nil]
    exact ⟨[tree], .lastItem hspells.unpadded, .cons hsays .nil⟩
  | cons w rest ih =>
    obtain ⟨tree, hspells, hsays⟩ := hv
    obtain ⟨hw, hrest⟩ := List.forall_mem_cons.1 hrest
    obtain ⟨items, hitems, hitemsSay⟩ := ih hw hrest
    rw [Value.moreItemChars, List.cons_append]
    exact ⟨tree :: items, .moreItems hspells.unpadded hitems, .cons hsays hitemsSay⟩

theorem spelt_array {items : List Value} (h : ∀ v ∈ items, v.Spelt) :
    (Value.array items).Spelt := by
  cases items with
  | nil => exact ⟨.array [] none, .emptyArray blank_nil, .array .nil⟩
  | cons v rest =>
    obtain ⟨hv, hrest⟩ := List.forall_mem_cons.1 h
    obtain ⟨trees, hspells, hsays⟩ := exists_spells_items hv hrest
    exact ⟨.array trees none, .array hspells, .array hsays⟩

theorem exists_spells_member (key : String) {v : Value} (hv : v.Spelt) :
    ∃ m, Spells (.member m) (stringChars key ++ ':' :: v.chars) ∧ m.1.Says key ∧ m.2.Says v := by
  obtain ⟨tree, hspells, hsays⟩ := hv
  obtain ⟨name, hname, hnameSays⟩ := exists_spellsString key
  refine ⟨(name, tree), ?_, hnameSays, hsays⟩
  simpa only [List.nil_append, List.append_nil] using
    Spells.member blank_nil hname blank_nil hspells.unpadded

/-- A member and the ones after it spell the members of an object. -/
theorem exists_spells_members {key : String} {v : Value} {rest : List (String × Value)}
    (hv : v.Spelt) (hrest : ∀ m ∈ rest, m.2.Spelt) :
    ∃ members, Spells (.members members)
        (stringChars key ++ ':' :: v.chars ++ Value.moreMemberChars rest) ∧
      List.Forall₂ (fun m v => m.1.Says v.1) members ((key, v) :: rest) ∧
      List.Forall₂ (fun m v => m.2.Says v.2) members ((key, v) :: rest) := by
  obtain ⟨m, hm, hname, hvalue⟩ := exists_spells_member key hv
  induction rest generalizing key v m with
  | nil =>
    rw [Value.moreMemberChars, List.append_nil]
    exact ⟨[m], .lastMember hm, .cons hname .nil, .cons hvalue .nil⟩
  | cons next rest ih =>
    obtain ⟨hnext, hrest⟩ := List.forall_mem_cons.1 hrest
    obtain ⟨n, hn, hnextName, hnextValue⟩ := exists_spells_member next.1 hnext
    obtain ⟨members, hmembers, hnames, hvalues⟩ := ih hnext hrest n hn hnextName hnextValue
    refine ⟨m :: members, ?_, .cons hname hnames, .cons hvalue hvalues⟩
    simpa only [Value.moreMemberChars, List.append_assoc, List.cons_append] using
      Spells.moreMembers hm hmembers

theorem spelt_object {members : List (String × Value)} (h : ∀ m ∈ members, m.2.Spelt) :
    (Value.object members).Spelt := by
  cases members with
  | nil => exact ⟨.object [] none, .emptyObject blank_nil, .object .nil .nil⟩
  | cons m rest =>
    obtain ⟨hm, hrest⟩ := List.forall_mem_cons.1 h
    obtain ⟨trees, hspells, hnames, hvalues⟩ := exists_spells_members hm hrest
    refine ⟨.object trees none, ?_, .object hnames hvalues⟩
    simpa only [Value.chars, List.append_assoc, List.cons_append] using Spells.object hspells

end FileIndexing.Json
