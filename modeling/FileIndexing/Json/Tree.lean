import FileIndexing.Json.Number

/-!
# The shape of a JSON text

`Tree.read` reads any text at all as a tree.  Where the text stops being JSON the tree has a flaw,
which says whether the text ended too early or is malformed there; nothing after a flaw is read.
Strings and numbers are kept as they are spelt, because whether a surrogate or an excessive number
is acceptable depends on what the value is read for.

A reader that walks a tree from left to right therefore meets the faults of the text and those of
its own at the places where they stand, and the first one wins.
-/

namespace FileIndexing.Json

/-- One unit of a string as it is spelt: a character, perhaps by a short escape, or a 16-bit code
unit by its number. -/
inductive StringUnit where
  | char (c : Char)
  | code (unit : UInt16)
  deriving DecidableEq, Repr

/-- A string as it is spelt, and the fault that ends it if no quote does. -/
structure StringLiteral where
  units : List StringUnit
  broken : Option Fault
  deriving DecidableEq, Repr

/-- A JSON text, up to the first place where it is none.  A list or object whose closing bracket is
missing carries the fault found in its place. -/
inductive Tree where
  | null
  | bool (b : Bool)
  | number (literal : NumberLiteral)
  | brokenNumber (fault : Fault)
  | string (literal : StringLiteral)
  | array (items : List Tree) (broken : Option Fault)
  | object (members : List (StringLiteral × Tree)) (broken : Option Fault)
  | flaw (fault : Fault)
  deriving Repr

/-- What follows something that was read, or the fault that ended the reading. -/
abbrev Rest := Except Fault (List Char)

/-- The fault that ended a reading, if one did. -/
def Rest.fault? : Rest → Option Fault
  | .ok _ => none
  | .error fault => some fault

/-- Whether a character may stand between the parts of a JSON text. -/
def isSpace (c : Char) : Bool := c = ' ' || c = '\n' || c = '\t' || c = '\r'

/-- The text from the first character that is no space. -/
def skipSpace (text : List Char) : List Char := text.dropWhile isSpace

/-- The fault of a text that goes on wrongly, which is another one if it does not go on. -/
def faultAt : List Char → Fault
  | [] => .truncated
  | _ :: _ => .malformed

/-- What follows an expected word. -/
def expect : List Char → List Char → Rest
  | [], text => .ok text
  | _ :: _, [] => .error .truncated
  | c :: word, d :: text => if c = d then expect word text else .error .malformed

/-! ## Strings -/

/-- The value of a hexadecimal digit. -/
def hexValue? (c : Char) : Option Nat :=
  if '0' ≤ c && c ≤ '9' then some (c.toNat - '0'.toNat)
  else if 'a' ≤ c && c ≤ 'f' then some (c.toNat - 'a'.toNat + 10)
  else if 'A' ≤ c && c ≤ 'F' then some (c.toNat - 'A'.toNat + 10)
  else none

/-- The code unit that four hexadecimal digits spell. -/
def codeUnit? (a b c d : Char) : Option UInt16 := do
  let a ← hexValue? a
  let b ← hexValue? b
  let c ← hexValue? c
  let d ← hexValue? d
  some (UInt16.ofNat (((a * 16 + b) * 16 + c) * 16 + d))

/-- The character that a one-letter escape stands for. -/
def shortEscape? : Char → Option Char
  | '"' => some '"'
  | '\\' => some '\\'
  | '/' => some '/'
  | 'b' => some '\x08'
  | 'f' => some '\x0C'
  | 'n' => some '\n'
  | 'r' => some '\r'
  | 't' => some '\t'
  | _ => none

/-- The number of bytes of a text in UTF-8. -/
def byteCount (text : List Char) : Nat :=
  text.foldl (fun n c => n + c.utf8Size) 0

/-- A string in which a fault was met. -/
def brokenString (fault : Fault) : StringLiteral × Rest := (⟨[], some fault⟩, .error fault)

/-- Puts a unit before a string that was read. -/
def consUnit (unit : StringUnit) (read : StringLiteral × Rest) : StringLiteral × Rest :=
  ({ read.1 with units := unit :: read.1.units }, read.2)

/-- Reads a string whose opening quote has been read.  A numbered escape takes four bytes; a text
that ends before has ended too early, whatever the bytes are. -/
def readString : List Char → StringLiteral × Rest
  | [] => brokenString .truncated
  | ['\\'] => brokenString .truncated
  | '\\' :: 'u' :: a :: b :: c :: d :: rest =>
    match codeUnit? a b c d with
    | some unit => consUnit (.code unit) (readString rest)
    | none => brokenString .malformed
  | '\\' :: 'u' :: rest => brokenString (if byteCount rest < 4 then .truncated else .malformed)
  | '\\' :: e :: rest =>
    match shortEscape? e with
    | some c => consUnit (.char c) (readString rest)
    | none => brokenString .malformed
  | '"' :: rest => (⟨[], none⟩, .ok rest)
  | c :: rest =>
    if c.toNat < 0x20 then brokenString .malformed else consUnit (.char c) (readString rest)

/-! ## Numbers -/

/-- The digits at the start of a text, and what follows them. -/
def spanDigits (text : List Char) : List Char × List Char := text.span Char.isDigit

/-- A number in which a fault was met. -/
def brokenNumber (fault : Fault) : Tree × Rest := (.brokenNumber fault, .error fault)

/-- Reads what may follow the fraction of a number. -/
def readExponent (negative : Bool) (whole fraction : List Char) (text : List Char) :
    Tree × Rest :=
  match text with
  | c :: rest =>
    if c = 'e' || c = 'E' then
      let (minus, rest) :=
        match rest with
        | '+' :: rest => (false, rest)
        | '-' :: rest => (true, rest)
        | rest => (false, rest)
      match spanDigits rest with
      | ([], rest) => brokenNumber (faultAt rest)
      | (digits, rest) => (.number ⟨negative, whole, fraction, some (minus, digits)⟩, .ok rest)
    else (.number ⟨negative, whole, fraction, none⟩, .ok text)
  | [] => (.number ⟨negative, whole, fraction, none⟩, .ok [])

/-- Reads a number whose sign has been read. -/
def readNumber (negative : Bool) (text : List Char) : Tree × Rest :=
  match spanDigits text with
  | ([], rest) => brokenNumber (faultAt rest)
  | ('0' :: _ :: _, _) => brokenNumber .malformed
  | (whole, '.' :: rest) =>
    match spanDigits rest with
    | ([], rest) => brokenNumber (faultAt rest)
    | (fraction, rest) => readExponent negative whole fraction rest
  | (whole, rest) => readExponent negative whole [] rest

/-! ## Values -/

/-- A value in whose place a fault was met. -/
def flawed (fault : Fault) : Tree × Rest := (.flaw fault, .error fault)

/-- A word that stands for a value, its first letter having been read. -/
def readWord (value : Tree) (word text : List Char) : Tree × Rest :=
  match expect word text with
  | .ok rest => (value, .ok rest)
  | .error fault => flawed fault

/-- What follows the colon after a name. -/
def expectColon (text : List Char) : Rest :=
  match skipSpace text with
  | ':' :: rest => .ok rest
  | rest => .error (faultAt rest)

mutual

/-- Reads a value. -/
def readValue : Nat → List Char → Tree × Rest
  | 0, _ => flawed .malformed
  | fuel + 1, text =>
    match skipSpace text with
    | [] => flawed .truncated
    | 'n' :: rest => readWord .null "ull".toList rest
    | 't' :: rest => readWord (.bool true) "rue".toList rest
    | 'f' :: rest => readWord (.bool false) "alse".toList rest
    | '-' :: rest => readNumber true rest
    | '"' :: rest =>
      let (literal, rest) := readString rest
      (.string literal, rest)
    | '[' :: rest =>
      match skipSpace rest with
      | [] => (.array [] (some .truncated), .error .truncated)
      | ']' :: rest => (.array [] none, .ok rest)
      | rest =>
        let (items, rest) := readItems fuel rest
        (.array items rest.fault?, rest)
    | '{' :: rest =>
      match skipSpace rest with
      | [] => (.object [] (some .truncated), .error .truncated)
      | '}' :: rest => (.object [] none, .ok rest)
      | rest =>
        let (members, rest) := readMembers fuel rest
        (.object members rest.fault?, rest)
    | c :: rest => if c.isDigit then readNumber false (c :: rest) else flawed .malformed

/-- Reads the items of a list from where one must stand. -/
def readItems : Nat → List Char → List Tree × Rest
  | 0, _ => ([], .error .malformed)
  | fuel + 1, text =>
    match readValue fuel text with
    | (item, .error fault) => ([item], .error fault)
    | (item, .ok rest) =>
      match skipSpace rest with
      | ']' :: rest => ([item], .ok rest)
      | ',' :: rest =>
        let (items, rest) := readItems fuel rest
        (item :: items, rest)
      | rest => ([item], .error (faultAt rest))

/-- Reads the members of an object from where one must stand. -/
def readMembers : Nat → List Char → List (StringLiteral × Tree) × Rest
  | 0, _ => ([], .error .malformed)
  | fuel + 1, text =>
    match skipSpace text with
    | '"' :: rest =>
      match readString rest with
      | (key, .error fault) => ([(key, .flaw fault)], .error fault)
      | (key, .ok rest) =>
        match expectColon rest with
        | .error fault => ([(key, .flaw fault)], .error fault)
        | .ok rest =>
          match readValue fuel rest with
          | (value, .error fault) => ([(key, value)], .error fault)
          | (value, .ok rest) =>
            match skipSpace rest with
            | '}' :: rest => ([(key, value)], .ok rest)
            | ',' :: rest =>
              let (members, rest) := readMembers fuel rest
              ((key, value) :: members, rest)
            | rest => ([(key, value)], .error (faultAt rest))
    | rest => ([], .error (faultAt rest))

end

/-- The steps that suffice for reading a text: each takes a character or is followed by one that
does. -/
def readingSteps (text : List Char) : Nat := 2 * text.length + 2

/-- Reads the value at the start of a text. -/
def Tree.readFrom (text : List Char) : Tree × Rest := readValue (readingSteps text) text

/-- The fault of what follows a value that ought to be the whole text. -/
def trailingFault? (rest : Rest) : Option Fault :=
  match rest with
  | .error fault => some fault
  | .ok rest => if (skipSpace rest).isEmpty then none else some .malformed

end FileIndexing.Json
