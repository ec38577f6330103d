import FileIndexing.Json.Fault

/-!
# Numbers in JSON texts

A number literal is kept as it is spelt.  `NumberLiteral.value` says which number it stands for:

* an integer that fits in 64 bits, with or without sign, stands for itself;
* every other literal, minus zero among them, stands for a floating-point number.

The floating-point value comes from a 64-bit significand, which takes in digits as long as they
fit, and a decimal exponent, by multiplying or dividing once by a power of ten.  A magnitude beyond
the finite numbers makes the literal malformed.
-/

namespace FileIndexing.Json

/-- A number as it is spelt: digits of the whole part and of the fraction, and the sign and digits
of the exponent. -/
structure NumberLiteral where
  negative : Bool
  whole : List Char
  fraction : List Char
  exponent : Option (Bool × List Char)
  deriving DecidableEq, Repr

/-- What a number literal stands for. -/
inductive Number where
  | natural (n : UInt64)
  | negative (magnitude : Nat)
  | real (x : Float)
  deriving Repr

/-- The value of a digit. -/
def digitValue (c : Char) : Nat := c.toNat - '0'.toNat

/-- The natural number that digits spell. -/
def digitsValue (digits : List Char) : Nat :=
  digits.foldl (fun n c => n * 10 + digitValue c) 0

/-- One past the greatest significand. -/
def significandBound : Nat := UInt64.size

/-- Takes digits of a whole part into a significand until one does not fit.  Beside the
significand stands the number of digits left out. -/
def takeWhole : Nat → List Char → Nat × Nat
  | s, [] => (s, 0)
  | s, d :: rest =>
    let next := s * 10 + digitValue d
    if next < significandBound then takeWhole next rest else (s, rest.length + 1)

/-- Takes digits of a fraction into a significand until one does not fit.  Beside the significand
stands the number of digits taken in. -/
def takeFraction : Nat → List Char → Nat × Nat
  | s, [] => (s, 0)
  | s, d :: rest =>
    let next := s * 10 + digitValue d
    if next < significandBound then
      let (taken, count) := takeFraction next rest
      (taken, count + 1)
    else (s, 0)

/-- The floating-point number nearest to a power of ten. -/
def powerOfTen (n : Nat) : Float := Float.ofScientific 1 false n

/-- The greatest power of ten that is a finite floating-point number. -/
def greatestPower : Nat := 308

/-- A magnitude times a power of ten, or nothing when that is not finite. -/
def scale? (x : Float) (power : Int) : Option Float :=
  if 0 ≤ power then
    if power ≤ greatestPower then
      let y := x * powerOfTen power.toNat
      if y.isInf then none else some y
    else if x == 0 then some x
    else none
  else if -(greatestPower : Int) ≤ power then some (x / powerOfTen (-power).toNat)
  else if x == 0 then some x
  else scale? (x / powerOfTen greatestPower) (power + greatestPower)
termination_by power.natAbs
decreasing_by
  simp only [greatestPower] at *
  omega

namespace NumberLiteral

/-- Whether the literal has neither a fraction nor an exponent. -/
def isWhole (l : NumberLiteral) : Bool := l.fraction.isEmpty && l.exponent.isNone

/-- The exponent of a literal, zero if it has none. -/
def power (l : NumberLiteral) : Int :=
  match l.exponent with
  | none => 0
  | some (negative, digits) =>
    if negative then -(digitsValue digits : Int) else digitsValue digits

/-- The floating-point number that a literal stands for. -/
def toFloat (l : NumberLiteral) : Except Fault Float :=
  let (head, dropped) := takeWhole 0 l.whole
  let (significand, taken) := takeFraction head l.fraction
  match scale? (UInt64.ofNat significand).toFloat (l.power + dropped - taken) with
  | some x => .ok (if l.negative then -x else x)
  | none => .error .malformed

/-- The number that a literal stands for. -/
def value (l : NumberLiteral) : Except Fault Number :=
  let n := digitsValue l.whole
  if l.isWhole && !l.negative && n < UInt64.size then .ok (.natural (UInt64.ofNat n))
  else if l.isWhole && l.negative && 0 < n && n ≤ UInt64.size / 2 then .ok (.negative n)
  else l.toFloat.map .real

end NumberLiteral

end FileIndexing.Json
