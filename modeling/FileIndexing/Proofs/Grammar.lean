import FileIndexing.Json.Form
import FileIndexing.Json.Value
import Mathlib.Data.List.Forall2

/-!
# The grammar of JSON texts

Which characters spell a tree, and which value a tree stands for, said without the reader and the
writer.

* `Spells` is the grammar.  One tree has many spellings: blanks may stand between its parts, and a
  character of a string may be written as it is or by an escape.
* `Tree.Says` relates a tree to the value that it stands for.  A tree says more than a value can,
  because a string may be spelt with code units that are no characters.
-/

namespace FileIndexing.Json

/-- Characters that may stand between the parts of a text. -/
def Blank (text : List Char) : Prop := ∀ c ∈ text, c = ' ' ∨ c = '\n' ∨ c = '\t' ∨ c = '\r'

/-! ## Strings -/

/-- A small or capital hexadecimal digit and its value. -/
def IsHexDigit (digit : Char) (n : Nat) : Prop :=
  n < 16 ∧ (digit = Nat.digitChar n ∨ digit = (Nat.digitChar n).toUpper)

/-- The letters of escapes and the characters that they stand for. -/
def escapes : List (Char × Char) :=
  [('"', '"'), ('\\', '\\'), ('/', '/'), ('b', '\x08'), ('f', '\x0C'), ('n', '\n'), ('r', '\r'),
    ('t', '\t')]

/-- How one unit of a string is spelt. -/
inductive SpellsUnit : StringUnit → List Char → Prop where
  | plain {c : Char} : 0x20 ≤ c.toNat → c ≠ '"' → c ≠ '\\' → SpellsUnit (.char c) [c]
  | escape {letter c : Char} : (letter, c) ∈ escapes → SpellsUnit (.char c) ['\\', letter]
  | numbered {unit : UInt16} {a b c d : Char} {i j k l : Nat} :
      IsHexDigit a i → IsHexDigit b j → IsHexDigit c k → IsHexDigit d l →
      unit.toNat = ((i * 16 + j) * 16 + k) * 16 + l →
      SpellsUnit (.code unit) ['\\', 'u', a, b, c, d]

/-- How the units of a string are spelt one after the other. -/
inductive SpellsUnits : List StringUnit → List Char → Prop where
  | nil : SpellsUnits [] []
  | cons {unit : StringUnit} {units : List StringUnit} {text rest : List Char} :
      SpellsUnit unit text → SpellsUnits units rest → SpellsUnits (unit :: units) (text ++ rest)

/-- How a string is spelt, in quotes. -/
inductive SpellsString : StringLiteral → List Char → Prop where
  | quoted {units : List StringUnit} {text : List Char} :
      SpellsUnits units text → SpellsString ⟨units, none⟩ ('"' :: text ++ ['"'])

/-! ## Numbers -/

/-- Some digits. -/
def Digits (digits : List Char) : Prop := digits ≠ [] ∧ ∀ d ∈ digits, d.isDigit = true

/-- Digits without needless zeros. -/
def WholeDigits (digits : List Char) : Prop :=
  Digits digits ∧ (digits.head? = some '0' → digits = ['0'])

/-- How the fraction of a number is spelt, if it has one. -/
inductive SpellsFraction : List Char → List Char → Prop where
  | none : SpellsFraction [] []
  | digits {digits : List Char} : Digits digits → SpellsFraction digits ('.' :: digits)

/-- How the sign of an exponent is spelt. -/
inductive SpellsSign : Bool → List Char → Prop where
  | none : SpellsSign false []
  | plus : SpellsSign false ['+']
  | minus : SpellsSign true ['-']

/-- How the exponent of a number is spelt, if it has one. -/
inductive SpellsExponent : Option (Bool × List Char) → List Char → Prop where
  | none : SpellsExponent none []
  | power {e : Char} {negative : Bool} {sign digits : List Char} :
      e = 'e' ∨ e = 'E' → SpellsSign negative sign → Digits digits →
      SpellsExponent (some (negative, digits)) (e :: (sign ++ digits))

/-- How a number without its sign is spelt, by its whole part, its fraction and its exponent. -/
inductive SpellsMagnitude :
    List Char → List Char → Option (Bool × List Char) → List Char → Prop where
  | parts {whole fraction : List Char} {exponent : Option (Bool × List Char)}
      {fractionText exponentText : List Char} :
      WholeDigits whole → SpellsFraction fraction fractionText →
      SpellsExponent exponent exponentText →
      SpellsMagnitude whole fraction exponent (whole ++ (fractionText ++ exponentText))

/-- How a number is spelt. -/
inductive SpellsNumber : NumberLiteral → List Char → Prop where
  | positive {whole fraction : List Char} {exponent : Option (Bool × List Char)}
      {text : List Char} :
      SpellsMagnitude whole fraction exponent text →
      SpellsNumber ⟨false, whole, fraction, exponent⟩ text
  | negative {whole fraction : List Char} {exponent : Option (Bool × List Char)}
      {text : List Char} :
      SpellsMagnitude whole fraction exponent text →
      SpellsNumber ⟨true, whole, fraction, exponent⟩ ('-' :: text)

/-! ## Values -/

/-- What a piece of a text may be. -/
inductive Phrase where
  | value (tree : Tree)
  /-- A value with blanks around it. -/
  | padded (tree : Tree)
  /-- The items of a list, without its brackets. -/
  | items (items : List Tree)
  /-- One member of an object. -/
  | member (member : StringLiteral × Tree)
  /-- The members of an object, without its braces. -/
  | members (members : List (StringLiteral × Tree))

/-- How a phrase is spelt. -/
inductive Spells : Phrase → List Char → Prop where
  | null : Spells (.value .null) "null".toList
  | bool {b : Bool} : Spells (.value (.bool b)) (toString b).toList
  | number {literal : NumberLiteral} {text : List Char} :
      SpellsNumber literal text → Spells (.value (.number literal)) text
  | string {literal : StringLiteral} {text : List Char} :
      SpellsString literal text → Spells (.value (.string literal)) text
  | emptyArray {blank : List Char} :
      Blank blank → Spells (.value (.array [] none)) ('[' :: blank ++ [']'])
  | array {items : List Tree} {text : List Char} :
      Spells (.items items) text → Spells (.value (.array items none)) ('[' :: text ++ [']'])
  | emptyObject {blank : List Char} :
      Blank blank → Spells (.value (.object [] none)) ('{' :: blank ++ ['}'])
  | object {members : List (StringLiteral × Tree)} {text : List Char} :
      Spells (.members members) text →
      Spells (.value (.object members none)) ('{' :: text ++ ['}'])
  | padded {tree : Tree} {before text after : List Char} :
      Blank before → Spells (.value tree) text → Blank after →
      Spells (.padded tree) (before ++ text ++ after)
  | lastItem {item : Tree} {text : List Char} :
      Spells (.padded item) text → Spells (.items [item]) text
  | moreItems {item : Tree} {items : List Tree} {text rest : List Char} :
      Spells (.padded item) text → Spells (.items items) rest →
      Spells (.items (item :: items)) (text ++ ',' :: rest)
  | member {name : StringLiteral} {value : Tree} {before nameText between text : List Char} :
      Blank before → SpellsString name nameText → Blank between → Spells (.padded value) text →
      Spells (.member (name, value)) (before ++ nameText ++ between ++ ':' :: text)
  | lastMember {member : StringLiteral × Tree} {text : List Char} :
      Spells (.member member) text → Spells (.members [member]) text
  | moreMembers {member : StringLiteral × Tree} {members : List (StringLiteral × Tree)}
      {text rest : List Char} :
      Spells (.member member) text → Spells (.members members) rest →
      Spells (.members (member :: members)) (text ++ ',' :: rest)

/-! ## What a tree stands for -/

/-- The characters that units stand for.  A character beyond 16 bits is a pair of code units. -/
inductive UnitsSay : List StringUnit → List Char → Prop where
  | nil : UnitsSay [] []
  | char {c : Char} {units : List StringUnit} {text : List Char} :
      UnitsSay units text → UnitsSay (.char c :: units) (c :: text)
  | code {unit : UInt16} {c : Char} {units : List StringUnit} {text : List Char} :
      c.toNat = unit.toNat → UnitsSay units text → UnitsSay (.code unit :: units) (c :: text)
  | pair {high low : UInt16} {c : Char} {units : List StringUnit} {text : List Char} :
      0xD800 ≤ high.toNat → high.toNat < 0xDC00 → 0xDC00 ≤ low.toNat → low.toNat < 0xE000 →
      c.toNat = 0x10000 + (high.toNat - 0xD800) * 0x400 + (low.toNat - 0xDC00) →
      UnitsSay units text → UnitsSay (.code high :: .code low :: units) (c :: text)

/-- A string stands for a text. -/
def StringLiteral.Says (literal : StringLiteral) (text : String) : Prop :=
  literal.broken = none ∧ UnitsSay literal.units text.toList

/-- A tree stands for a value.  A number is the text that it is written as. -/
inductive Tree.Says : Tree → Value → Prop where
  | null : Says .null .null
  | bool {b : Bool} : Says (.bool b) (.bool b)
  | number {literal : NumberLiteral} {digits : String} :
      SpellsNumber literal digits.toList → Says (.number literal) (.number digits)
  | string {literal : StringLiteral} {text : String} :
      literal.Says text → Says (.string literal) (.string text)
  | array {items : List Tree} {values : List Value} :
      List.Forall₂ Says items values → Says (.array items none) (.array values)
  | object {members : List (StringLiteral × Tree)} {values : List (String × Value)} :
      List.Forall₂ (fun m v => m.1.Says v.1) members values →
      List.Forall₂ (fun m v => Says m.2 v.2) members values →
      Says (.object members none) (.object values)

/-- An object stands for the members that its own stand for one by one. -/
theorem Tree.says_object_iff {members : List (StringLiteral × Tree)}
    {values : List (String × Value)} : (Tree.object members none).Says (.object values) ↔
      List.Forall₂ (fun m v => m.1.Says v.1 ∧ m.2.Says v.2) members values := by
  constructor
  · rintro (_ | _ | _ | _ | _ | ⟨hnames, hvalues⟩)
    induction hnames with
    | nil => exact .nil
    | cons hname _ ih =>
      cases hvalues with
      | cons hvalue hvalues => exact .cons ⟨hname, hvalue⟩ (ih hvalues)
  · exact fun h => .object (h.imp fun _ _ => And.left) (h.imp fun _ _ => And.right)

end FileIndexing.Json
