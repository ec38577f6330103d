/-!
# Shortest decimals

A finite binary floating-point number other than zero stands for every real number that rounds to
it.  `shortest` picks the decimal to write for it: of all decimals that read back as the number,
one with the fewest digits, and of those the nearest.  All arithmetic is on natural numbers.

`Style` says how a decimal is laid out, and `Style.write` writes a number in a style.
-/

namespace FileIndexing.Decimal

/-- The number `significand * 2 ^ exponent`, with the significand of a 64-bit float. -/
structure Binary where
  significand : Nat
  exponent : Int
  /-- Whether the next smaller number is only half as far away as the next greater one. -/
  narrowBelow : Bool
  deriving Repr

/-- The least significand of a number that is not too small to have a whole one. -/
def leastWhole : Nat := 0x10000000000000

/-- The magnitude of a finite number, read off its bits. -/
def Binary.ofBits (bits : UInt64) : Binary :=
  let field : Nat := bits.toNat / leastWhole % 0x800
  let fraction : Nat := bits.toNat % leastWhole
  if field = 0 then ⟨fraction, -1074, false⟩
  else ⟨leastWhole + fraction, (field : Int) - 1075, fraction = 0 && 1 < field⟩

/-- The decimal `digits * 10 ^ exponent`. -/
structure Scaled where
  digits : Nat
  exponent : Int
  deriving Repr, DecidableEq

/-- A natural number times a power of two that may be negative, as a quotient. -/
def ratio (base : Nat) (power : Int) : Nat × Nat :=
  if 0 ≤ power then (Nat.pow base power.toNat, 1) else (1, Nat.pow base (-power).toNat)

/-- The multiple of `10 ^ k` nearest to a number, if one reads back as the number; of two equally
near ones the even multiple. -/
def Binary.nearestMultiple? (x : Binary) (k : Int) : Option Nat :=
  let (twoUp, twoDown) := ratio 2 (x.exponent - 2)
  let (tenUp, tenDown) := ratio 10 k
  let unit := twoUp * tenDown
  let grid := tenUp * twoDown
  let value := 4 * x.significand * unit
  let low := (4 * x.significand - if x.narrowBelow then 1 else 2) * unit
  let high := (4 * x.significand + 2) * unit
  let closed := x.significand % 2 = 0
  let inside (d : Nat) : Bool :=
    0 < d && (low < d * grid || closed && low = d * grid) &&
      (d * grid < high || closed && d * grid = high)
  let below := value / grid
  let above := below + 1
  let twice := (below + above) * grid
  if inside below && inside above then
    if 2 * value < twice || 2 * value = twice && below % 2 = 0 then some below else some above
  else if inside below then some below
  else if inside above then some above
  else none

/-- The first grid, from `10 ^ k` downwards, with a point that reads back as the number. -/
def Binary.coarsest (x : Binary) : Nat → Int → Scaled
  | 0, k => ⟨0, k⟩
  | fuel + 1, k =>
    match x.nearestMultiple? k with
    | some d => ⟨d, k⟩
    | none => x.coarsest fuel (k - 1)

/-- A decimal with the fewest digits that reads back as the number.  The greatest finite number is
below `10 ^ 309` and the least positive one above `10 ^ -324`. -/
def Binary.shortest (x : Binary) : Scaled := x.coarsest 640 309

/-- How decimals are laid out. -/
structure Style where
  /-- The least decimal exponent that is written without an exponent. -/
  leastFixed : Int
  /-- The greatest decimal exponent that is written without an exponent. -/
  greatestFixed : Int
  /-- What follows a whole number written without an exponent. -/
  wholeMark : String
  /-- The sign of an exponent that is not negative. -/
  exponentPlus : String

/-- A number padded with zeros on the left. -/
def padded (width n : Nat) : String :=
  let digits := toString n
  String.ofList (List.replicate (width - digits.length) '0') ++ digits

namespace Style

/-- The layout of a decimal that is not zero. -/
def layOut (style : Style) (x : Scaled) : String :=
  let digits := (toString x.digits).toList
  let leading := x.exponent + digits.length - 1
  if style.leastFixed ≤ leading && leading ≤ style.greatestFixed then
    if 0 ≤ x.exponent then
      String.ofList (digits ++ List.replicate x.exponent.toNat '0') ++ style.wholeMark
    else if 0 ≤ leading then
      let whole := leading.toNat + 1
      String.ofList (digits.take whole ++ '.' :: digits.drop whole)
    else
      "0." ++ String.ofList (List.replicate (-leading - 1).toNat '0' ++ digits)
  else
    let mantissa :=
      match digits with
      | [] => ""
      | [d] => String.ofList [d]
      | d :: rest => String.ofList (d :: '.' :: rest)
    let sign := if leading < 0 then "-" else style.exponentPlus
    s!"{mantissa}e{sign}{leading.natAbs}"

/-- A finite number, written in a style. -/
def write (style : Style) (x : Float) : String :=
  let bits := x.toBits
  let sign := if UInt64.size / 2 ≤ bits.toNat then "-" else ""
  let magnitude := Binary.ofBits bits
  if magnitude.significand = 0 then s!"{sign}0{style.wholeMark}"
  else sign ++ style.layOut magnitude.shortest

end Style

end FileIndexing.Decimal
