import FileIndexing.Json.Tree

/-!
# Reading values of a given form

Functions that read a tree as a value of a given form, from left to right, and stop at the first
fault: one of the text itself, or that the value is not of the form.

A `Form` describes a record.  A record is written as an object, whose members may stand in any
order, or as a list of its fields in their order.  A field may stand only once.  Members of other
names are refused by a strict form; otherwise they are skipped, and then only the shape of their
values matters.
-/

namespace FileIndexing.Json

/-! ## Strings -/

/-- Whether a code unit is the first of a surrogate pair. -/
def isHighSurrogate (unit : UInt16) : Bool := 0xD800 ≤ unit && unit ≤ 0xDBFF

/-- Whether a code unit is the second of a surrogate pair. -/
def isLowSurrogate (unit : UInt16) : Bool := 0xDC00 ≤ unit && unit ≤ 0xDFFF

/-- The character that a surrogate pair stands for. -/
def pairChar (high low : UInt16) : Char :=
  Char.ofNat (0x10000 + (high.toNat - 0xD800) * 0x400 + (low.toNat - 0xDC00))

/-- The characters that units spell.  A surrogate that is not part of a pair is a fault. -/
def decodeUnits : List StringUnit → Option Fault → Except Fault (List Char)
  | [], none => .ok []
  | [], some fault => .error fault
  | .char c :: rest, broken => (decodeUnits rest broken).map (c :: ·)
  | .code u :: rest, broken =>
    if isLowSurrogate u then .error .malformed
    else if isHighSurrogate u then
      match rest with
      | .code v :: rest =>
        if isLowSurrogate v then (decodeUnits rest broken).map (pairChar u v :: ·)
        else .error .malformed
      | .char _ :: _ => .error .malformed
      | [] => .error (broken.getD .malformed)
    else (decodeUnits rest broken).map (Char.ofNat u.toNat :: ·)

/-- The text that a string spells. -/
def StringLiteral.text (literal : StringLiteral) : Except Fault String :=
  (decodeUnits literal.units literal.broken).map String.ofList

/-! ## Values that are not looked at -/

/-- Raises a fault, if there is one. -/
def raise : Option Fault → Except Fault Unit
  | none => .ok ()
  | some fault => .error fault

mutual

/-- The fault in the shape of a value, if there is one.  Surrogates and the size of numbers do not
matter, and a number that ends too early is malformed. -/
def Tree.shapeFault? : Tree → Option Fault
  | .null | .bool _ | .number _ => none
  | .brokenNumber _ => some .malformed
  | .string literal => literal.broken
  | .array items broken => (shapeFaultOfItems? items).or broken
  | .object members broken => (shapeFaultOfMembers? members).or broken
  | .flaw fault => some fault

/-- The first fault in the shapes of the items of a list. -/
def shapeFaultOfItems? : List Tree → Option Fault
  | [] => none
  | item :: items => item.shapeFault?.or (shapeFaultOfItems? items)

/-- The first fault in the shapes of the members of an object. -/
def shapeFaultOfMembers? : List (StringLiteral × Tree) → Option Fault
  | [] => none
  | (key, value) :: members =>
    (key.broken.or value.shapeFault?).or (shapeFaultOfMembers? members)

end

/-- How deeply lists and objects may be nested in a value that is read whole. -/
def depthLimit : Nat := 128

mutual

/-- The fault that reading a value whole would meet, if any, with the nesting still allowed. -/
def Tree.fault? : Nat → Tree → Option Fault
  | _, .null | _, .bool _ => none
  | _, .number literal =>
    match literal.value with
    | .ok _ => none
    | .error fault => some fault
  | _, .brokenNumber fault => some fault
  | _, .string literal =>
    match literal.text with
    | .ok _ => none
    | .error fault => some fault
  | depth, .array items broken =>
    if depth ≤ 1 then some .malformed else (faultOfItems? (depth - 1) items).or broken
  | depth, .object members broken =>
    if depth ≤ 1 then some .malformed else (faultOfMembers? (depth - 1) members).or broken
  | _, .flaw fault => some fault

/-- The first fault that reading the items of a list would meet. -/
def faultOfItems? : Nat → List Tree → Option Fault
  | _, [] => none
  | depth, item :: items => (item.fault? depth).or (faultOfItems? depth items)

/-- The first fault that reading the members of an object would meet. -/
def faultOfMembers? : Nat → List (StringLiteral × Tree) → Option Fault
  | _, [] => none
  | depth, (key, value) :: members =>
    match key.text with
    | .error fault => some fault
    | .ok _ => (value.fault? depth).or (faultOfMembers? depth members)

end

/-- The fault of a text that is read whole as a value of any form. -/
def fault? (text : String) : Option Fault :=
  let (tree, rest) := Tree.readFrom text.toList
  (tree.fault? depthLimit).or (trailingFault? rest)

/-! ## Simple forms -/

namespace Tree

/-- The fault of a value that is not of the wanted form.  Words, numbers and strings are read to
their end first. -/
def mismatch : Tree → Fault
  | .flaw fault => fault
  | .brokenNumber fault => fault
  | .number literal =>
    match literal.value with
    | .ok _ => .mismatched
    | .error fault => fault
  | .string literal =>
    match literal.text with
    | .ok _ => .mismatched
    | .error fault => fault
  | _ => .mismatched

/-- Reads a truth value. -/
def asBool : Tree → Except Fault Bool
  | .bool b => .ok b
  | tree => .error tree.mismatch

/-- Reads a string. -/
def asString : Tree → Except Fault String
  | .string literal => literal.text
  | tree => .error tree.mismatch

/-- Reads a natural number of 64 bits. -/
def asUInt64 : Tree → Except Fault UInt64
  | .number literal =>
    match literal.value with
    | .ok (.natural n) => .ok n
    | .ok _ => .error .mismatched
    | .error fault => .error fault
  | tree => .error tree.mismatch

/-- Reads a natural number of 32 bits. -/
def asUInt32 (tree : Tree) : Except Fault UInt32 := do
  let n ← tree.asUInt64
  if n.toNat < UInt32.size then .ok n.toUInt32 else .error .mismatched

/-- Reads a number as a floating-point number. -/
def asFloat : Tree → Except Fault Float
  | .number literal =>
    match literal.value with
    | .ok (.natural n) => .ok n.toFloat
    | .ok (.negative n) => .ok (-(UInt64.ofNat n).toFloat)
    | .ok (.real x) => .ok x
    | .error fault => .error fault
  | tree => .error tree.mismatch

/-- Reads nothing, written as null. -/
def asNull : Tree → Except Fault Unit
  | .null => .ok ()
  | tree => .error tree.mismatch

/-- Reads null as nothing, and anything else in the given way. -/
def asOption {α : Type} (read : Tree → Except Fault α) : Tree → Except Fault (Option α)
  | .null => .ok none
  | tree => (read tree).map some

/-- Reads a list of values, each in the given way. -/
def asList {α : Type} (read : Tree → Except Fault α) : Tree → Except Fault (List α)
  | .array items broken => do
    let values ← items.mapM read
    raise broken
    .ok values
  | tree => .error tree.mismatch

end Tree

/-! ## Records -/

/-- A field of a record, `ρ` being what has been read of the record so far. -/
structure Field (ρ : Type) where
  name : String
  /-- Whether the field has been read. -/
  isSet : ρ → Bool
  /-- Reads the field from its value. -/
  set : Tree → ρ → Except Fault ρ

/-- The description of a record of type `α`. -/
structure Form (ρ α : Type) where
  /-- What has been read before anything has. -/
  blank : ρ
  fields : List (Field ρ)
  /-- Whether members of other names are refused. -/
  strict : Bool
  /-- The record, once all that is there has been read. -/
  finish : ρ → Except Fault α

namespace Form

variable {ρ α : Type}

/-- Takes in one member of an object. -/
def readMember (form : Form ρ α) (sofar : ρ) (member : StringLiteral × Tree) : Except Fault ρ := do
  let name ← member.1.text
  match form.fields.find? (·.name == name) with
  | some field =>
    if field.isSet sofar then .error .mismatched else field.set member.2 sofar
  | none =>
    if form.strict then .error .mismatched
    else
      raise member.2.shapeFault?
      .ok sofar

/-- Takes in the items of a list, one for each field.  The items beyond the fields are left. -/
def readItems : List (Field ρ) → List Tree → ρ → Except Fault (ρ × List Tree)
  | [], items, sofar => .ok (sofar, items)
  | _ :: _, [], sofar => .ok (sofar, [])
  | field :: fields, item :: items, sofar => do
    let sofar ← field.set item sofar
    readItems fields items sofar

/-- Reads a record. -/
def read (form : Form ρ α) : Tree → Except Fault α
  | .object members broken => do
    let sofar ← members.foldlM form.readMember form.blank
    raise broken
    form.finish sofar
  | .array items broken => do
    let (sofar, beyond) ← readItems form.fields items form.blank
    if items.length < form.fields.length then
      raise broken
      form.finish sofar
    else
      let value ← form.finish sofar
      if beyond.isEmpty then
        raise broken
        .ok value
      else .error .malformed
  | tree => .error tree.mismatch

end Form

/-- What a field that must be there was read as. -/
def required {α : Type} : Option α → Except Fault α
  | some value => .ok value
  | none => .error .mismatched

/-! ## Whole texts -/

/-- Reads a whole text in the given way. -/
def readText {α : Type} (read : Tree → Except Fault α) (text : String) : Except Fault α := do
  let (tree, rest) := Tree.readFrom text.toList
  let value ← read tree
  raise (trailingFault? rest)
  .ok value

/-- Reads a name out of a list of names, which is written as a string or as the only key of an
object whose value is null.  An object that does not begin with a key is malformed. -/
def readVariant {α : Type} (variants : List (String × α)) (text : String) : Except Fault α := do
  let pick (tree : Tree) : Except Fault α := do
    let name ← tree.asString
    required (variants.lookup name)
  match skipSpace text.toList with
  | [] => .error .truncated
  | '"' :: rest =>
    let (literal, rest) := readString rest
    let value ← pick (.string literal)
    raise (trailingFault? rest)
    .ok value
  | '{' :: rest =>
    match skipSpace rest with
    | '"' :: rest =>
      let (literal, rest) := readString rest
      let value ← pick (.string literal)
      let (content, rest) := Tree.readFrom (← rest >>= expectColon)
      content.asNull
      match skipSpace (← rest) with
      | '}' :: rest =>
        raise (trailingFault? (.ok rest))
        .ok value
      | rest => .error (faultAt rest)
    | rest => .error (faultAt rest)
  | _ => .error .malformed

end FileIndexing.Json
