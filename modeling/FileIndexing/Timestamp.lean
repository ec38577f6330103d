import FileIndexing.Decimal.Shortest
import FileIndexing.Text.Blank

/-!
# Timestamps

Points in time as texts: a date, the letter T or a space, a time of day and an offset from
universal time.  `Timestamp.parse?` reads such a text and `Timestamp.text` writes the same point in
universal time, which the letter Z marks, with as many groups of three decimals as it takes.

Reading is generous: blanks may stand around the parts, numbers may have fewer digits than usual,
and a year with a sign may have more.  Days are counted from 1970-01-01 in the Gregorian calendar,
extended to all years.
-/

namespace FileIndexing

/-! ## Calendar -/

/-- A day of the calendar. -/
structure CalendarDate where
  year : Int
  month : Nat
  day : Nat
  deriving DecidableEq, Repr

namespace CalendarDate

/-- Whether a year has a 29th of February. -/
def isLeapYear (year : Int) : Bool := year % 4 = 0 && (year % 100 ≠ 0 || year % 400 = 0)

/-- The number of days of a month. -/
def daysInMonth (year : Int) (month : Nat) : Nat :=
  if month = 2 then if isLeapYear year then 29 else 28
  else if month = 4 || month = 6 || month = 9 || month = 11 then 30
  else 31

/-- The first year that has dates. -/
def leastYear : Int := -262143

/-- The last year that has dates. -/
def greatestYear : Int := 262142

/-- Whether there is such a day. -/
def isValid (d : CalendarDate) : Bool :=
  leastYear ≤ d.year && d.year ≤ greatestYear && 1 ≤ d.month && d.month ≤ 12 && 1 ≤ d.day &&
    d.day ≤ daysInMonth d.year d.month

/-- The number of a day.  Years are taken to begin in March, so that a leap day ends one, and to
come in cycles of 400. -/
def toDayNumber (d : CalendarDate) : Int :=
  let year := if d.month ≤ 2 then d.year - 1 else d.year
  let cycle := year / 400
  let yearOfCycle := year % 400
  let monthFromMarch : Int := ((d.month + 9) % 12 : Nat)
  let dayOfYear := (153 * monthFromMarch + 2) / 5 + d.day - 1
  let dayOfCycle := yearOfCycle * 365 + yearOfCycle / 4 - yearOfCycle / 100 + dayOfYear
  cycle * 146097 + dayOfCycle - 719468

/-- The day of a number. -/
def ofDayNumber (n : Int) : CalendarDate :=
  let shifted := n + 719468
  let cycle := shifted / 146097
  let dayOfCycle := shifted % 146097
  let yearOfCycle :=
    (dayOfCycle - dayOfCycle / 1460 + dayOfCycle / 36524 - dayOfCycle / 146096) / 365
  let dayOfYear := dayOfCycle - (365 * yearOfCycle + yearOfCycle / 4 - yearOfCycle / 100)
  let monthFromMarch := (5 * dayOfYear + 2) / 153
  let day := dayOfYear - (153 * monthFromMarch + 2) / 5 + 1
  let month := if monthFromMarch < 10 then monthFromMarch + 3 else monthFromMarch - 9
  let year := yearOfCycle + cycle * 400 + if month ≤ 2 then 1 else 0
  ⟨year, month.toNat, day.toNat⟩

/-- A day as text: a year outside of 0 to 9999 has a sign. -/
def text (d : CalendarDate) : String :=
  let year :=
    if 0 ≤ d.year && d.year ≤ 9999 then Decimal.padded 4 d.year.toNat
    else (if d.year < 0 then "-" else "+") ++ Decimal.padded 4 d.year.natAbs
  s!"{year}-{Decimal.padded 2 d.month}-{Decimal.padded 2 d.day}"

end CalendarDate

/-! ## Points in time -/

/-- A point in time: the number of the day, the second of the day in universal time, and the
nanoseconds, which reach 10⁹ within a leap second. -/
structure Timestamp where
  day : Int
  second : Nat
  nanos : Nat
  deriving DecidableEq, Repr

namespace Timestamp

/-- Seconds of a day. -/
def secondsPerDay : Nat := 86400

/-- Nanoseconds as decimals of a second. -/
def fractionText (nanos : Nat) : String :=
  if nanos = 0 then ""
  else if nanos % 1000000 = 0 then "." ++ Decimal.padded 3 (nanos / 1000000)
  else if nanos % 1000 = 0 then "." ++ Decimal.padded 6 (nanos / 1000)
  else "." ++ Decimal.padded 9 nanos

/-- A point in time as text, in universal time. -/
def text (t : Timestamp) : String :=
  let leap := 1000000000 ≤ t.nanos
  let second := t.second % 60 + if leap then 1 else 0
  let nanos := if leap then t.nanos - 1000000000 else t.nanos
  let hour := Decimal.padded 2 (t.second / 3600)
  let minute := Decimal.padded 2 (t.second / 60 % 60)
  s!"{(CalendarDate.ofDayNumber t.day).text}T{hour}:{minute}:" ++
    s!"{Decimal.padded 2 second}{fractionText nanos}Z"

/-! ## Reading -/

/-- The text from the first character that is not blank. -/
def skipBlank (text : List Char) : List Char := text.dropWhile Text.isBlank

/-- The number that some digits spell. -/
def digitsToNat (digits : List Char) : Nat :=
  digits.foldl (fun n c => n * 10 + (c.toNat - '0'.toNat)) 0

/-- Reads a number of at least one and at most `width` digits. -/
def number? (width : Nat) (text : List Char) : Option (Nat × List Char) :=
  let digits := (text.take width).takeWhile Char.isDigit
  if digits.isEmpty then none else some (digitsToNat digits, text.drop digits.length)

/-- Reads a number of any length whose value has 63 bits. -/
def longNumber? (text : List Char) : Option (Nat × List Char) :=
  match number? text.length text with
  | some (n, rest) => if n < UInt64.size / 2 then some (n, rest) else none
  | none => none

/-- Reads a year, which has up to four digits or a sign. -/
def year? (text : List Char) : Option (Int × List Char) :=
  match skipBlank text with
  | '-' :: rest => (longNumber? rest).map fun (n, rest) => (-(n : Int), rest)
  | '+' :: rest => (longNumber? rest).map fun (n, rest) => ((n : Int), rest)
  | text => (number? 4 text).map fun (n, rest) => ((n : Int), rest)

/-- Reads a number of one or two digits within bounds, perhaps after blanks. -/
def part? (low high : Nat) (text : List Char) : Option (Nat × List Char) := do
  let (n, rest) ← number? 2 (skipBlank text)
  if low ≤ n && n ≤ high then some (n, rest) else none

/-- Skips an expected mark, perhaps after blanks. -/
def mark? (mark : Char) (text : List Char) : Option (List Char) :=
  match skipBlank text with
  | c :: rest => if c = mark then some rest else none
  | [] => none

/-- Reads the decimals of a second, if there are any, as nanoseconds.  Decimals after the ninth do
not count. -/
def fraction? (text : List Char) : Option (Nat × List Char) :=
  match text with
  | '.' :: rest => do
    let (n, after) ← number? 9 rest
    let width := rest.length - after.length
    some (n * Nat.pow 10 (9 - width), after.dropWhile Char.isDigit)
  | rest => some (0, rest)

/-- Reads two digits, the first of them at most `high`. -/
def pair? (high : Char) (text : List Char) : Option (Nat × List Char) :=
  match text with
  | a :: b :: rest =>
    if a.isDigit && a ≤ high && b.isDigit then some (digitsToNat [a, b], rest) else none
  | _ => none

/-- Reads an offset from universal time in seconds. -/
def offset? (text : List Char) : Option (Int × List Char) :=
  match skipBlank text with
  | [] => none
  | c :: rest =>
    if c = 'Z' || c = 'z' then some (0, rest)
    else if ((c :: rest).take 3).map Char.toUpper = ['U', 'T', 'C'] then some (0, rest.drop 2)
    else if c = '+' || c = '-' || c = '\u2212' then do
      let (hours, rest) ← pair? '9' rest
      let (minutes, rest) ← pair? '5' (rest.dropWhile fun c => c = ':' || Text.isBlank c)
      let seconds : Int := hours * 3600 + minutes * 60
      some (if c = '+' then seconds else -seconds, rest)
    else none

/-- The point in time with the given date and time at an offset from universal time. -/
def ofLocal? (date : CalendarDate) (second nanos : Nat) (offset : Int) : Option Timestamp :=
  let total := (second : Int) - offset
  let t : Timestamp :=
    ⟨date.toDayNumber + total / secondsPerDay, (total % secondsPerDay).toNat, nanos⟩
  let year := (CalendarDate.ofDayNumber t.day).year
  if date.isValid && offset.natAbs < secondsPerDay && CalendarDate.leastYear ≤ year &&
      year ≤ CalendarDate.greatestYear then some t
  else none

/-- The point in time that a text names. -/
def parse? (text : String) : Option Timestamp := do
  let (year, rest) ← year? text.toList
  let rest ← mark? '-' rest
  let (month, rest) ← part? 1 12 rest
  let rest ← mark? '-' rest
  let (day, rest) ← part? 1 31 rest
  let rest ←
    match rest with
    | c :: rest => if c = 'T' || c = 't' || c = ' ' then some rest else none
    | [] => none
  let (hour, rest) ← part? 0 23 rest
  let rest ← mark? ':' rest
  let (minute, rest) ← part? 0 59 rest
  let rest ← mark? ':' rest
  let (second, rest) ← part? 0 60 rest
  let (nanos, rest) ← fraction? rest
  let (offset, rest) ← offset? rest
  if (skipBlank rest).isEmpty then
    let leap := second = 60
    ofLocal? ⟨year, month, day⟩ (hour * 3600 + minute * 60 + if leap then 59 else second)
      (if leap then nanos + 1000000000 else nanos) offset
  else none

end Timestamp

end FileIndexing
