import FileIndexing.Proofs.Grammar
import Mathlib.Data.List.DropRight
import Mathlib.Data.List.TakeDrop

/-!
# Reading what is spelt

The reader finds in a text what the text spells, whatever follows.  A phrase takes no more than two
steps for each of its characters (`Phrase.ReadsBack`), and a number ends where the text cannot go on
with it (`EndsNumber`).
-/

namespace FileIndexing.Json

/-! ## Strings -/

theorem hexValue?_of_isHexDigit {d : Char} {n : Nat} (h : IsHexDigit d n) :
    hexValue? d = some n := by
  have hall : ∀ n < 16, hexValue? (Nat.digitChar n) = some n ∧
      hexValue? (Nat.digitChar n).toUpper = some n := by decide
  obtain ⟨hn, rfl | rfl⟩ := h
  · exact (hall n hn).1
  · exact (hall n hn).2

theorem codeUnit?_of_isHexDigit {unit : UInt16} {a b c d : Char} {i j k l : Nat}
    (ha : IsHexDigit a i) (hb : IsHexDigit b j) (hc : IsHexDigit c k) (hd : IsHexDigit d l)
    (hunit : unit.toNat = ((i * 16 + j) * 16 + k) * 16 + l) : codeUnit? a b c d = some unit := by
  rw [codeUnit?, hexValue?_of_isHexDigit ha, hexValue?_of_isHexDigit hb,
    hexValue?_of_isHexDigit hc, hexValue?_of_isHexDigit hd]
  exact congrArg some (hunit ▸ UInt16.ofNat_toNat)

theorem shortEscape?_of_mem {letter c : Char} (h : (letter, c) ∈ escapes) :
    shortEscape? letter = some c :=
  (by decide : ∀ e ∈ escapes, shortEscape? e.1 = some e.2) _ h

/-- A unit is read off the front of a string. -/
theorem readString_unit {unit : StringUnit} {text : List Char} (h : SpellsUnit unit text)
    (rest : List Char) : readString (text ++ rest) = consUnit unit (readString rest) := by
  cases h with
  | @plain c hc hquote hslash =>
    rw [List.singleton_append, readString]
    · exact if_neg (Nat.not_lt.2 hc)
    all_goals simp_all
  | @escape letter c hmem =>
    have hescape := shortEscape?_of_mem hmem
    change readString ('\\' :: letter :: rest) = _
    rw [readString]
    · rw [hescape]
    all_goals
      intros
      simp_all [shortEscape?]
  | numbered ha hb hc hd hunit =>
    change readString ('\\' :: 'u' :: _ :: _ :: _ :: _ :: rest) = _
    rw [readString, codeUnit?_of_isHexDigit ha hb hc hd hunit]

theorem readString_units {units : List StringUnit} {text : List Char} (h : SpellsUnits units text)
    (rest : List Char) : readString (text ++ '"' :: rest) = (⟨units, none⟩, .ok rest) := by
  induction h with
  | nil => rw [List.nil_append, readString]
  | cons hunit _ ih =>
    rw [List.append_assoc, readString_unit hunit, ih]
    rfl

/-! ## Numbers -/

/-- A text that no number goes on with. -/
def EndsNumber (text : List Char) : Prop :=
  ∀ c, text.head? = some c → c.isDigit = false ∧ c ≠ '.' ∧ c ≠ 'e' ∧ c ≠ 'E'

theorem ne_of_isDigit {d c : Char} (hd : d.isDigit = true) (hc : c.isDigit = false) : d ≠ c := by
  rintro rfl
  rw [hd] at hc
  cases hc

theorem Digits.exists_cons {digits : List Char} (h : Digits digits) :
    ∃ d rest, digits = d :: rest ∧ d.isDigit = true := by
  obtain ⟨d, rest, rfl⟩ := List.exists_cons_of_ne_nil h.1
  exact ⟨d, rest, rfl, h.2 d List.mem_cons_self⟩

theorem spanDigits_append {digits rest : List Char} (hdigits : ∀ d ∈ digits, d.isDigit = true)
    (hrest : ∀ c, rest.head? = some c → c.isDigit = false) :
    spanDigits (digits ++ rest) = (digits, rest) := by
  rw [spanDigits, List.span_eq_takeWhile_dropWhile, List.takeWhile_append_of_pos hdigits,
    List.dropWhile_append_of_pos hdigits]
  cases rest with
  | nil => simp
  | cons c rest => simp [hrest c rfl]

theorem isDigit_of_exponent {e : Char} (he : e = 'e' ∨ e = 'E') : e.isDigit = false := by
  obtain rfl | rfl := he <;> rfl

theorem readExponent_append {negative : Bool} {whole fraction : List Char}
    {exponent : Option (Bool × List Char)} {text rest : List Char}
    (h : SpellsExponent exponent text) (hrest : EndsNumber rest) :
    readExponent negative whole fraction (text ++ rest) =
      (.number ⟨negative, whole, fraction, exponent⟩, .ok rest) := by
  cases h with
  | none =>
    cases rest with
    | nil => rfl
    | cons c rest =>
      obtain ⟨-, -, he, hE⟩ := hrest c rfl
      simp [readExponent, he, hE]
  | @power e minus sign digits he hsign hdigits =>
    have hspan : spanDigits (digits ++ rest) = (digits, rest) :=
      spanDigits_append hdigits.2 fun c hc => (hrest c hc).1
    have hletter : (e = 'e' || e = 'E') = true := by simpa using he
    obtain ⟨d, more, rfl, hd⟩ := hdigits.exists_cons
    rw [List.cons_append, List.append_assoc]
    cases hsign with
    | none =>
      rw [List.nil_append, List.cons_append, readExponent, if_pos hletter]
      · simp only [← List.cons_append, hspan]
      -- A digit is no sign.
      · exact fun _ h => ne_of_isDigit hd rfl (List.cons.inj h).1
      · exact fun _ h => ne_of_isDigit hd rfl (List.cons.inj h).1
    | plus =>
      rw [List.singleton_append, readExponent, if_pos hletter]
      simp only [hspan]
    | minus =>
      rw [List.singleton_append, readExponent, if_pos hletter]
      simp only [hspan]

theorem SpellsExponent.append_ne {exponent : Option (Bool × List Char)} {text rest : List Char}
    (h : SpellsExponent exponent text) (hrest : EndsNumber rest) {c : Char}
    (hc : (text ++ rest).head? = some c) : c.isDigit = false ∧ c ≠ '.' := by
  cases h with
  | none => exact ⟨(hrest c hc).1, (hrest c hc).2.1⟩
  | power he _ _ =>
    obtain rfl := Option.some.inj hc
    refine ⟨isDigit_of_exponent he, ?_⟩
    obtain rfl | rfl := he <;> decide

theorem readNumber_append (negative : Bool) {whole fraction : List Char}
    {exponent : Option (Bool × List Char)} {text rest : List Char}
    (h : SpellsMagnitude whole fraction exponent text) (hrest : EndsNumber rest) :
    readNumber negative (text ++ rest) =
      (.number ⟨negative, whole, fraction, exponent⟩, .ok rest) := by
  obtain @⟨fractionText, exponentText, ⟨hwhole, hzero⟩, hfraction, hexponent⟩ := h
  have hafter : ∀ c, (exponentText ++ rest).head? = some c → c.isDigit = false ∧ c ≠ '.' :=
    fun _ => hexponent.append_ne hrest
  have hlone : ∀ d more, whole ≠ '0' :: d :: more := by
    rintro d more rfl
    cases hzero rfl
  rw [List.append_assoc, List.append_assoc, readNumber]
  cases hfraction with
  | none =>
    rw [List.nil_append, spanDigits_append hwhole.2 fun c hc => (hafter c hc).1]
    split
    · next h => exact absurd (Prod.mk.inj h).1 hwhole.1
    · next h => exact absurd (Prod.mk.inj h).1 (hlone _ _)
    · next h =>
      obtain ⟨-, hdot⟩ := Prod.mk.inj h
      exact absurd rfl (hafter '.' (by rw [hdot]; rfl)).2
    · next h =>
      obtain ⟨rfl, rfl⟩ := Prod.mk.inj h
      exact readExponent_append hexponent hrest
  | digits hdigits =>
    rw [List.cons_append, spanDigits_append hwhole.2 fun c hc => by cases hc; rfl]
    split
    · next h => exact absurd (Prod.mk.inj h).1 hwhole.1
    · next h => exact absurd (Prod.mk.inj h).1 (hlone _ _)
    · next h =>
      obtain ⟨rfl, hdot⟩ := Prod.mk.inj h
      rw [← (List.cons.inj hdot).2, spanDigits_append hdigits.2 fun c hc => (hafter c hc).1]
      obtain ⟨d, more, rfl, -⟩ := hdigits.exists_cons
      exact readExponent_append hexponent hrest
    · next hdot h => exact absurd (Prod.mk.inj h).2.symm (hdot _)

/-! ## Blanks -/

theorem isSpace_of_mem {blank : List Char} (h : Blank blank) : ∀ c ∈ blank, isSpace c = true := by
  intro c hc
  simpa [isSpace, or_assoc] using h c hc

theorem skipSpace_append {blank : List Char} (h : Blank blank) (text : List Char) :
    skipSpace (blank ++ text) = skipSpace text :=
  List.dropWhile_append_of_pos (isSpace_of_mem h)

theorem skipSpace_cons {c : Char} (h : isSpace c = false) (text : List Char) :
    skipSpace (c :: text) = c :: text := by
  rw [skipSpace, List.dropWhile_cons_of_neg (Bool.eq_false_iff.1 h)]

@[simp] theorem skipSpace_skipSpace (text : List Char) :
    skipSpace (skipSpace text) = skipSpace text :=
  List.dropWhile_idempotent _ _

theorem readValue_skipSpace (fuel : Nat) (text : List Char) :
    readValue fuel (skipSpace text) = readValue fuel text := by
  cases fuel with
  | zero => rfl
  | succ fuel => rw [readValue, readValue, skipSpace_skipSpace]

theorem readItems_skipSpace (fuel : Nat) (text : List Char) :
    readItems fuel (skipSpace text) = readItems fuel text := by
  cases fuel with
  | zero => rfl
  | succ fuel => rw [readItems, readItems, readValue_skipSpace]

theorem readMembers_skipSpace (fuel : Nat) (text : List Char) :
    readMembers fuel (skipSpace text) = readMembers fuel text := by
  cases fuel with
  | zero => rfl
  | succ fuel => rw [readMembers, readMembers, skipSpace_skipSpace]

/-! ## Values -/

/-- What the reader makes of the text after a member. -/
def readAfterMember (fuel : Nat) (m : StringLiteral × Tree) (text : List Char) :
    List (StringLiteral × Tree) × Rest :=
  match skipSpace text with
  | '\x7d' :: rest => ([m], .ok rest)
  | ',' :: rest => (m :: (readMembers fuel rest).1, (readMembers fuel rest).2)
  | rest => ([m], .error (faultAt rest))

theorem readAfterMember_close (fuel : Nat) (m : StringLiteral × Tree) (rest : List Char) :
    readAfterMember fuel m ('\x7d' :: rest) = ([m], .ok rest) := by
  rw [readAfterMember, skipSpace_cons (by decide)]
  rfl

theorem readAfterMember_comma (fuel : Nat) (m : StringLiteral × Tree) (rest : List Char) :
    readAfterMember fuel m (',' :: rest) =
      (m :: (readMembers fuel rest).1, (readMembers fuel rest).2) := by
  rw [readAfterMember, skipSpace_cons (by decide)]
  rfl

/-- A phrase is what the reader finds where it is spelt, given steps enough. -/
def Phrase.ReadsBack : Phrase → List Char → Prop
  | .value tree, text => ∀ fuel rest, 2 * text.length ≤ fuel + 1 → EndsNumber rest →
      readValue (fuel + 1) (text ++ rest) = (tree, .ok rest)
  | .padded tree, text => ∀ fuel rest, 2 * text.length ≤ fuel → EndsNumber rest →
      ∃ blank, Blank blank ∧ readValue fuel (text ++ rest) = (tree, .ok (blank ++ rest))
  | .items trees, text => ∀ fuel rest, 2 * text.length < fuel →
      readItems fuel (text ++ ']' :: rest) = (trees, .ok rest)
  | .member m, text => ∀ fuel rest, 2 * text.length ≤ fuel → EndsNumber rest →
      readMembers (fuel + 1) (text ++ rest) = readAfterMember fuel m rest
  | .members ms, text => ∀ fuel rest, 2 * text.length < fuel →
      readMembers fuel (text ++ '\x7d' :: rest) = (ms, .ok rest)

theorem readValue_number {literal : NumberLiteral} {text rest : List Char}
    (h : SpellsNumber literal text) (hrest : EndsNumber rest) (fuel : Nat) :
    readValue (fuel + 1) (text ++ rest) = (.number literal, .ok rest) := by
  cases h with
  | positive h =>
    have hread := readNumber_append false h hrest
    obtain ⟨⟨hdigits, -⟩, -, -⟩ := h
    obtain ⟨d, more, rfl, hd⟩ := hdigits.exists_cons
    have hne {c : Char} (hc : c.isDigit = false) : d ≠ c := ne_of_isDigit hd hc
    simp only [List.cons_append] at hread ⊢
    rw [readValue, skipSpace_cons (by simp [isSpace, hne])]
    dsimp only
    -- No other value begins with a digit.
    split <;> simp_all
  | negative h =>
    rw [List.cons_append, readValue, skipSpace_cons (by decide)]
    exact readNumber_append true h hrest

theorem readValue_string {literal : StringLiteral} {text : List Char}
    (h : SpellsString literal text) (fuel : Nat) (rest : List Char) :
    readValue (fuel + 1) (text ++ rest) = (.string literal, .ok rest) := by
  obtain ⟨hunits⟩ := h
  rw [List.append_assoc, List.cons_append, readValue, skipSpace_cons (by decide)]
  simp only [List.singleton_append, readString_units hunits]

/-- A value begins with a character that is neither blank nor a closing bracket. -/
theorem Spells.exists_cons {tree : Tree} {text : List Char} (h : Spells (.value tree) text) :
    ∃ c rest, text = c :: rest ∧ isSpace c = false ∧ c ≠ ']' := by
  cases h with
  | null => exact ⟨'n', _, rfl, by decide, by decide⟩
  | @bool b => cases b <;> exact ⟨_, _, rfl, by decide, by decide⟩
  | number h =>
    cases h with
    | positive h =>
      obtain ⟨⟨hdigits, -⟩, -, -⟩ := h
      obtain ⟨d, more, rfl, hd⟩ := hdigits.exists_cons
      have hne {c : Char} (hc : c.isDigit = false) : d ≠ c := ne_of_isDigit hd hc
      exact ⟨d, _, rfl, by simp [isSpace, hne], hne rfl⟩
    | negative h => exact ⟨'-', _, rfl, by decide, by decide⟩
  | string h =>
    obtain ⟨-⟩ := h
    exact ⟨'"', _, rfl, by decide, by decide⟩
  | emptyArray _ => exact ⟨'[', _, rfl, by decide, by decide⟩
  | array _ => exact ⟨'[', _, rfl, by decide, by decide⟩
  | emptyObject _ => exact ⟨'\x7b', _, rfl, by decide, by decide⟩
  | object _ => exact ⟨'\x7b', _, rfl, by decide, by decide⟩

/-- So does a padded value, after blanks. -/
theorem Spells.skipSpace_padded {tree : Tree} {text : List Char} (h : Spells (.padded tree) text)
    (rest : List Char) : ∃ c more, skipSpace (text ++ rest) = c :: more ∧ c ≠ ']' := by
  cases h with
  | padded hbefore hvalue _ =>
    obtain ⟨c, more, rfl, hspace, hc⟩ := hvalue.exists_cons
    simp only [List.append_assoc, List.cons_append, skipSpace_append hbefore]
    exact ⟨c, _, skipSpace_cons hspace _, hc⟩

theorem Spells.skipSpace_items {items : List Tree} {text : List Char}
    (h : Spells (.items items) text) (rest : List Char) :
    ∃ c more, skipSpace (text ++ rest) = c :: more ∧ c ≠ ']' := by
  cases h with
  | lastItem h => exact h.skipSpace_padded rest
  | moreItems h _ =>
    rw [List.append_assoc]
    exact h.skipSpace_padded _

/-- A member begins with a quote, after blanks. -/
theorem Spells.skipSpace_member {m : StringLiteral × Tree} {text : List Char}
    (h : Spells (.member m) text) (rest : List Char) :
    ∃ more, skipSpace (text ++ rest) = '"' :: more := by
  cases h with
  | member hbefore hname _ _ =>
    obtain ⟨-⟩ := hname
    simp only [List.append_assoc, List.cons_append, skipSpace_append hbefore]
    exact ⟨_, skipSpace_cons (by decide) _⟩

theorem Spells.skipSpace_members {members : List (StringLiteral × Tree)} {text : List Char}
    (h : Spells (.members members) text) (rest : List Char) :
    ∃ more, skipSpace (text ++ rest) = '"' :: more := by
  cases h with
  | lastMember h => exact h.skipSpace_member rest
  | moreMembers h _ =>
    rw [List.append_assoc]
    exact h.skipSpace_member _

theorem endsNumber_append {blank rest : List Char} (hblank : Blank blank)
    (hrest : EndsNumber rest) : EndsNumber (blank ++ rest) := by
  cases blank with
  | nil => exact hrest
  | cons c blank =>
    rintro _ ⟨⟩
    obtain rfl | rfl | rfl | rfl := hblank c List.mem_cons_self <;> decide

theorem endsNumber_cons {c : Char} (hc : c = ',' ∨ c = ']' ∨ c = '\x7d') (rest : List Char) :
    EndsNumber (c :: rest) := by
  rintro _ ⟨⟩
  obtain rfl | rfl | rfl := hc <;> decide

/-- The reader's step from a list to its items. -/
theorem readValue_array {items : List Tree} {text rest : List Char} {fuel : Nat}
    (h : Spells (.items items) text)
    (hread : readItems fuel (text ++ ']' :: rest) = (items, .ok rest)) :
    readValue (fuel + 1) ('[' :: text ++ [']'] ++ rest) = (.array items none, .ok rest) := by
  obtain ⟨c, more, hskip, hc⟩ := h.skipSpace_items (']' :: rest)
  rw [← readItems_skipSpace, hskip] at hread
  rw [List.append_assoc, List.cons_append, readValue, skipSpace_cons (by decide),
    List.singleton_append]
  simp only
  rw [hskip]
  split
  · next h => cases h
  · next h => exact absurd (List.cons.inj h).1 hc
  · rw [hread]
    rfl

/-- The reader's step from an object to its members. -/
theorem readValue_object {members : List (StringLiteral × Tree)} {text rest : List Char}
    {fuel : Nat} (h : Spells (.members members) text)
    (hread : readMembers fuel (text ++ '\x7d' :: rest) = (members, .ok rest)) :
    readValue (fuel + 1) ('\x7b' :: text ++ ['\x7d'] ++ rest) =
      (.object members none, .ok rest) := by
  obtain ⟨more, hskip⟩ := h.skipSpace_members ('\x7d' :: rest)
  rw [← readMembers_skipSpace, hskip] at hread
  rw [List.append_assoc, List.cons_append, readValue, skipSpace_cons (by decide),
    List.singleton_append]
  simp only
  rw [hskip]
  split
  · next h => cases h
  · next h => exact absurd (List.cons.inj h).1 (by decide)
  · rw [hread]
    rfl

/-- The reader's step over a member, whose value it reads. -/
theorem readMembers_member {name : StringLiteral} {value : Tree} {fuel : Nat}
    {before nameText between text blank rest : List Char} (hbefore : Blank before)
    (hname : SpellsString name nameText) (hbetween : Blank between) (hblank : Blank blank)
    (hread : readValue fuel (text ++ rest) = (value, .ok (blank ++ rest))) :
    readMembers (fuel + 1) (before ++ nameText ++ between ++ ':' :: text ++ rest) =
      readAfterMember fuel (name, value) rest := by
  obtain ⟨hunits⟩ := hname
  have hcolon : expectColon (between ++ ':' :: (text ++ rest)) = .ok (text ++ rest) := by
    rw [expectColon, skipSpace_append hbetween, skipSpace_cons (by decide)]
    rfl
  simp only [List.append_assoc, List.cons_append, List.nil_append]
  rw [readMembers, skipSpace_append hbefore, skipSpace_cons (by decide)]
  simp only [readString_units hunits, hcolon, hread, skipSpace_append hblank]
  rfl

/-- Every spelt phrase is read back. -/
theorem Spells.readsBack {phrase : Phrase} {text : List Char} (h : Spells phrase text) :
    phrase.ReadsBack text := by
  induction h with
  | null => exact fun fuel rest _ _ => rfl
  | @bool b => cases b <;> exact fun fuel rest _ _ => rfl
  | number h => exact fun fuel rest _ hrest => readValue_number h hrest fuel
  | string h => exact fun fuel rest _ _ => readValue_string h fuel rest
  | emptyArray hblank =>
    intro fuel rest _ _
    rw [List.append_assoc, List.cons_append, readValue, skipSpace_cons (by decide)]
    simp only
    rw [skipSpace_append hblank, List.singleton_append, skipSpace_cons (by decide)]
    rfl
  | array hitems ih =>
    intro fuel rest hfuel _
    simp only [List.length_append, List.length_cons, List.length_nil] at hfuel
    exact readValue_array hitems (ih fuel rest (by omega))
  | emptyObject hblank =>
    intro fuel rest _ _
    rw [List.append_assoc, List.cons_append, readValue, skipSpace_cons (by decide)]
    simp only
    rw [skipSpace_append hblank, List.singleton_append, skipSpace_cons (by decide)]
    rfl
  | object hmembers ih =>
    intro fuel rest hfuel _
    simp only [List.length_append, List.length_cons, List.length_nil] at hfuel
    exact readValue_object hmembers (ih fuel rest (by omega))
  | @padded tree before text after hbefore hvalue hafter ih =>
    intro fuel rest hfuel hrest
    simp only [List.length_append] at hfuel
    obtain ⟨fuel, rfl⟩ : ∃ n, fuel = n + 1 := by
      obtain ⟨c, more, rfl, -⟩ := hvalue.exists_cons
      exact ⟨fuel - 1, by rw [List.length_cons] at hfuel; omega⟩
    refine ⟨after, hafter, ?_⟩
    rw [List.append_assoc, List.append_assoc, ← readValue_skipSpace, skipSpace_append hbefore,
      readValue_skipSpace]
    exact ih fuel _ (by omega) (endsNumber_append hafter hrest)
  | lastItem hitem ih =>
    intro fuel rest hfuel
    obtain ⟨fuel, rfl⟩ : ∃ n, fuel = n + 1 := ⟨fuel - 1, by omega⟩
    obtain ⟨blank, hblank, hread⟩ := ih fuel (']' :: rest) (by omega) (endsNumber_cons (by simp) _)
    rw [readItems, hread]
    simp only
    rw [skipSpace_append hblank, skipSpace_cons (by decide)]
    rfl
  | moreItems hitem hitems ih ihrest =>
    intro fuel rest hfuel
    simp only [List.length_append, List.length_cons] at hfuel
    obtain ⟨fuel, rfl⟩ : ∃ n, fuel = n + 1 := ⟨fuel - 1, by omega⟩
    rw [List.append_assoc, List.cons_append]
    obtain ⟨blank, hblank, hread⟩ := ih fuel (',' :: _) (by omega) (endsNumber_cons (by simp) _)
    rw [readItems, hread]
    simp only
    rw [skipSpace_append hblank, skipSpace_cons (by decide)]
    simp only
    rw [ihrest fuel rest (by omega)]
  | @member name value before nameText between text hbefore hname hbetween hvalue ih =>
    intro fuel rest hfuel hrest
    simp only [List.length_append, List.length_cons] at hfuel
    obtain ⟨blank, hblank, hread⟩ := ih fuel rest (by omega) hrest
    exact readMembers_member hbefore hname hbetween hblank hread
  | lastMember hmember ih =>
    intro fuel rest hfuel
    obtain ⟨fuel, rfl⟩ : ∃ n, fuel = n + 1 := ⟨fuel - 1, by omega⟩
    rw [ih fuel _ (by omega) (endsNumber_cons (by simp) _), readAfterMember_close]
  | moreMembers hmember hmembers ih ihrest =>
    intro fuel rest hfuel
    simp only [List.length_append, List.length_cons] at hfuel
    obtain ⟨fuel, rfl⟩ : ∃ n, fuel = n + 1 := ⟨fuel - 1, by omega⟩
    rw [List.append_assoc, List.cons_append, ih fuel _ (by omega) (endsNumber_cons (by simp) _),
      readAfterMember_comma, ihrest fuel rest (by omega)]

/-- A whole text is read as the tree that it spells. -/
theorem readText_of_spells {α : Type} (read : Tree → Except Fault α) {tree : Tree} {text : String}
    (h : Spells (.padded tree) text.toList) : readText read text = read tree := by
  obtain ⟨blank, hblank, hread⟩ : ∃ blank, Blank blank ∧
      Tree.readFrom text.toList = (tree, .ok blank) := by
    have hback := h.readsBack (readingSteps text.toList) [] (by rw [readingSteps]; omega)
      (by rintro _ ⟨⟩)
    simpa only [List.append_nil, Tree.readFrom] using hback
  have hskip : skipSpace blank = [] := List.dropWhile_eq_nil_iff.2 (isSpace_of_mem hblank)
  rw [readText, hread]
  simp only [trailingFault?, hskip]
  cases read tree <;> rfl

/-! ## The shape of what is spelt -/

/-- A phrase has no fault in its shape. -/
def Phrase.Shapely : Phrase → Prop
  | .value tree | .padded tree => tree.shapeFault? = none
  | .items trees => shapeFaultOfItems? trees = none
  | .member m => m.1.broken = none ∧ m.2.shapeFault? = none
  | .members ms => shapeFaultOfMembers? ms = none

theorem SpellsString.broken {literal : StringLiteral} {text : List Char}
    (h : SpellsString literal text) : literal.broken = none := by
  cases h
  rfl

theorem Spells.shapely {phrase : Phrase} {text : List Char} (h : Spells phrase text) :
    phrase.Shapely := by
  induction h with
  | null | bool | number _ | emptyArray _ | emptyObject _ => rfl
  | string h => exact h.broken
  | array _ ih =>
    simp only [Phrase.Shapely] at ih ⊢
    rw [Tree.shapeFault?, ih, Option.none_or]
  | object _ ih =>
    simp only [Phrase.Shapely] at ih ⊢
    rw [Tree.shapeFault?, ih, Option.none_or]
  | padded _ _ _ ih => exact ih
  | lastItem _ ih =>
    simp only [Phrase.Shapely] at ih ⊢
    rw [shapeFaultOfItems?, ih, Option.none_or, shapeFaultOfItems?]
  | moreItems _ _ ih ihrest =>
    simp only [Phrase.Shapely] at ih ihrest ⊢
    rw [shapeFaultOfItems?, ih, Option.none_or, ihrest]
  | member _ hname _ _ ih => exact ⟨hname.broken, ih⟩
  | @lastMember m _ _ ih =>
    obtain ⟨hname, hvalue⟩ := ih
    simp only [Phrase.Shapely]
    rw [shapeFaultOfMembers?, hname, hvalue, Option.none_or, Option.none_or, shapeFaultOfMembers?]
  | @moreMembers m _ _ _ _ _ ih ihrest =>
    obtain ⟨hname, hvalue⟩ := ih
    simp only [Phrase.Shapely] at ihrest ⊢
    rw [shapeFaultOfMembers?, hname, hvalue, Option.none_or, Option.none_or, ihrest]

theorem shapeFault?_of_mem {members : List (StringLiteral × Tree)}
    (h : shapeFaultOfMembers? members = none) {m : StringLiteral × Tree} (hm : m ∈ members) :
    m.2.shapeFault? = none := by
  induction members with
  | nil => cases hm
  | cons first members ih =>
    rw [shapeFaultOfMembers?, Option.or_eq_none_iff, Option.or_eq_none_iff] at h
    cases hm with
    | head => exact h.1.2
    | tail _ hm => exact ih h.2 hm

/-! ## What a tree stands for -/

theorem isLowSurrogate_iff (unit : UInt16) :
    isLowSurrogate unit = true ↔ 0xDC00 ≤ unit.toNat ∧ unit.toNat < 0xE000 := by
  simp only [isLowSurrogate, Bool.and_eq_true, decide_eq_true_eq, UInt16.le_iff_toNat_le]
  exact and_congr_right fun _ => Nat.lt_succ_iff.symm

theorem isHighSurrogate_iff (unit : UInt16) :
    isHighSurrogate unit = true ↔ 0xD800 ≤ unit.toNat ∧ unit.toNat < 0xDC00 := by
  simp only [isHighSurrogate, Bool.and_eq_true, decide_eq_true_eq, UInt16.le_iff_toNat_le]
  exact and_congr_right fun _ => Nat.lt_succ_iff.symm

theorem decodeUnits_code {unit : UInt16} (hlow : ¬isLowSurrogate unit = true)
    (hhigh : ¬isHighSurrogate unit = true) (units : List StringUnit) (broken : Option Fault) :
    decodeUnits (.code unit :: units) broken =
      (decodeUnits units broken).map (Char.ofNat unit.toNat :: ·) := by
  obtain _ | ⟨_ | _, _⟩ := units <;> simp [decodeUnits, hlow, hhigh]

theorem decodeUnits_of_say {units : List StringUnit} {text : List Char} (h : UnitsSay units text) :
    decodeUnits units none = .ok text := by
  induction h with
  | nil => rw [decodeUnits]
  | char _ ih =>
    rw [decodeUnits, ih]
    rfl
  | @code unit c units text hc _ ih =>
    -- A character is no surrogate.
    have hvalid : c.toNat < 0xD800 ∨ 0xDFFF < c.toNat := c.valid.imp_right And.left
    rw [decodeUnits_code (by rw [isLowSurrogate_iff]; omega)
      (by rw [isHighSurrogate_iff]; omega), ih, ← hc, Char.ofNat_toNat]
    rfl
  | @pair high low c units text hhigh hhigh' hlow hlow' hc _ ih =>
    have hpair : pairChar high low = c := by rw [pairChar, ← hc, Char.ofNat_toNat]
    rw [decodeUnits, if_neg (by rw [isLowSurrogate_iff]; omega),
      if_pos ((isHighSurrogate_iff high).2 ⟨hhigh, hhigh'⟩),
      if_pos ((isLowSurrogate_iff low).2 ⟨hlow, hlow'⟩), ih, hpair]
    rfl

theorem StringLiteral.Says.text_eq {literal : StringLiteral} {text : String}
    (h : literal.Says text) : literal.text = .ok text := by
  obtain ⟨hbroken, hunits⟩ := h
  rw [StringLiteral.text, hbroken, decodeUnits_of_say hunits]
  exact congrArg Except.ok String.ofList_toList

/-- Digits alone spell a number without sign, fraction and exponent. -/
theorem SpellsNumber.eq_of_isDigit {literal : NumberLiteral} {text : List Char}
    (h : SpellsNumber literal text) (hdigits : ∀ c ∈ text, c.isDigit = true) :
    literal = ⟨false, text, [], none⟩ := by
  have hnot {c : Char} (hmem : c ∈ text) (hc : c.isDigit = false) : False :=
    ne_of_isDigit (hdigits c hmem) hc rfl
  cases h with
  | negative => exact (hnot List.mem_cons_self rfl).elim
  | positive h =>
    obtain @⟨fractionText, exponentText, -, hfraction, hexponent⟩ := h
    cases hfraction with
    | digits => exact (hnot (by simp) (rfl : '.'.isDigit = false)).elim
    | none =>
      cases hexponent with
      | none => simp
      | power he => exact (hnot (by simp) (isDigit_of_exponent he)).elim

theorem digitsValue_toString (n : Nat) : digitsValue (toString n).toList = n := by
  rw [Nat.toString_eq_ofList_toDigits, String.toList_ofList]
  calc digitsValue (Nat.toDigits 10 n)
    _ = Nat.ofDigitChars 10 (Nat.toDigits 10 n) 0 := by
      simp only [digitsValue, digitValue, Nat.ofDigitChars, Nat.mul_comm]
    _ = n := Nat.ofDigitChars_ten_toDigits

namespace Tree.Says

variable {tree : Tree}

theorem asBool {b : Bool} (h : tree.Says (.bool b)) : tree.asBool = .ok b := by
  cases h
  rfl

theorem asString {text : String} (h : tree.Says (.string text)) : tree.asString = .ok text := by
  cases h with
  | string h => exact h.text_eq

theorem asUInt64 {n : UInt64} (h : tree.Says (.natural n.toNat)) : tree.asUInt64 = .ok n := by
  rw [Value.natural] at h
  cases h with
  | number h =>
    have hdigits : ∀ c ∈ (toString n.toNat).toList, c.isDigit = true := by
      rw [Nat.toString_eq_ofList_toDigits, String.toList_ofList]
      exact fun c hc => Nat.isDigit_of_mem_toDigits (by decide) (by decide) hc
    obtain rfl := h.eq_of_isDigit hdigits
    have hvalue : NumberLiteral.value ⟨false, (toString n.toNat).toList, [], none⟩ =
        .ok (.natural n) := by
      rw [NumberLiteral.value, digitsValue_toString]
      simp [NumberLiteral.isWhole, n.toNat_lt]
    rw [Tree.asUInt64, hvalue]

/-- Nothing is said by null, and something by what is not null. -/
theorem asOption {α : Type} {read : Tree → Except Fault α} {say : α → Value}
    (hread : ∀ tree value, Says tree (say value) → read tree = .ok value)
    (hsay : ∀ value, say value ≠ .null) {value? : Option α}
    (h : tree.Says ((value?.map say).getD .null)) : tree.asOption read = .ok value? := by
  cases value? with
  | none =>
    cases h
    rfl
  | some value =>
    rw [Tree.asOption, hread tree value h]
    · rfl
    · rintro rfl
      generalize hv : ((some value).map say).getD .null = v at h
      cases h
      exact hsay value hv

theorem asList {α : Type} {read : Tree → Except Fault α} {say : α → Value}
    (hread : ∀ tree value, Says tree (say value) → read tree = .ok value) {values : List α}
    (h : tree.Says (.array (values.map say))) : tree.asList read = .ok values := by
  cases h with
  | @array items _ h =>
    rw [List.forall₂_map_right_iff] at h
    have hitems : items.mapM read = .ok values := by
      induction h with
      | nil => rfl
      | cons hitem _ ih =>
        rw [List.mapM_cons, hread _ _ hitem, ih]
        rfl
    rw [Tree.asList, hitems]
    rfl

end Tree.Says

/-! ## Members of records -/

section Member

variable {ρ α : Type} {form : Form ρ α} {sofar : ρ} {m : StringLiteral × Tree} {name : String}

/-- A member that a field is named for sets the field, which must not be set yet. -/
theorem Form.readMember_field {field : Field ρ} (hname : m.1.Says name)
    (hfield : form.fields.find? (·.name == name) = some field) (hset : field.isSet sofar = false) :
    form.readMember sofar m = field.set m.2 sofar := by
  rw [Form.readMember, hname.text_eq]
  simp [bind, Except.bind, hfield, hset]

/-- A member of another name changes nothing, where members of other names are skipped. -/
theorem Form.readMember_other (hname : m.1.Says name)
    (hother : form.fields.find? (·.name == name) = none) (hstrict : form.strict = false)
    (hshape : m.2.shapeFault? = none) : form.readMember sofar m = .ok sofar := by
  rw [Form.readMember, hname.text_eq]
  simp [bind, Except.bind, hother, hstrict, hshape, raise]

end Member

end FileIndexing.Json
