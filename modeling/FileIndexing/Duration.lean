/-!
# Durations

A duration is a count of whole seconds, of 64 bits, and of nanoseconds below a second.
-/

namespace FileIndexing

/-- Nanoseconds in a second. -/
def nanosPerSecond : Nat := 1000000000

/-- A length of time. -/
structure Duration where
  seconds : UInt64
  nanos : Fin 1000000000
  deriving DecidableEq, Repr

namespace Duration

/-- No time at all. -/
def zero : Duration := ⟨0, 0⟩

instance : Inhabited Duration := ⟨zero⟩

/-- The duration in nanoseconds. -/
def toNanos (d : Duration) : Nat := d.seconds.toNat * nanosPerSecond + d.nanos.val

/-- The duration of a number of nanoseconds, whose seconds must fit in 64 bits. -/
def ofNanos (n : Nat) : Duration :=
  ⟨UInt64.ofNat (n / nanosPerSecond), Fin.ofNat 1000000000 n⟩

/-- The duration of some seconds and nanoseconds, a second's worth of nanoseconds or more being
carried; nothing if the seconds do not fit. -/
def ofParts? (seconds : UInt64) (nanos : Nat) : Option Duration :=
  let total := seconds.toNat + nanos / nanosPerSecond
  if total < UInt64.size then some ⟨UInt64.ofNat total, Fin.ofNat 1000000000 nanos⟩ else none

/-- A duration is given back by its nanoseconds. -/
theorem ofNanos_toNanos (d : Duration) : ofNanos d.toNanos = d := by
  obtain ⟨seconds, nanos⟩ := d
  have hn : nanos.val < 1000000000 := nanos.isLt
  have hdiv : (seconds.toNat * 1000000000 + nanos.val) / 1000000000 = seconds.toNat := by omega
  have hmod : (seconds.toNat * 1000000000 + nanos.val) % 1000000000 = nanos.val := by omega
  simp only [ofNanos, toNanos, nanosPerSecond, hdiv, UInt64.ofNat_toNat]
  congr
  exact Fin.ext hmod

/-- Nanoseconds whose seconds fit in 64 bits are kept by a duration. -/
theorem toNanos_ofNanos {n : Nat} (h : n / nanosPerSecond < UInt64.size) :
    (ofNanos n).toNanos = n := by
  rw [nanosPerSecond, UInt64.size] at h
  simp only [ofNanos, toNanos, UInt64.toNat_ofNat', Fin.ofNat, nanosPerSecond, Nat.mod_eq_of_lt h]
  omega

/-! ## Division -/

/-- A duration divided by a number, rounded down to nanoseconds; nothing if the number is zero.  The
seconds are divided first, and those left over are divided together with the nanoseconds. -/
def divide? (d : Duration) (n : UInt32) : Option Duration :=
  if n = 0 then none
  else
    let left := d.seconds % n.toUInt64
    let nanos := d.nanos.val / n.toNat +
      (left.toNat * nanosPerSecond + d.nanos.val % n.toNat) / n.toNat
    some ⟨d.seconds / n.toUInt64, Fin.ofNat 1000000000 nanos⟩

/-- Dividing seconds and nanoseconds apart is dividing the nanoseconds altogether. -/
theorem div_parts (seconds nanos unit : Nat) {n : Nat} (hn : 0 < n) :
    (seconds * unit + nanos) / n =
      seconds / n * unit + (nanos / n + (seconds % n * unit + nanos % n) / n) := by
  have hsplit : seconds * unit + nanos =
      n * (seconds / n * unit + nanos / n) + (seconds % n * unit + nanos % n) := by
    calc seconds * unit + nanos
        = (n * (seconds / n) + seconds % n) * unit + (n * (nanos / n) + nanos % n) := by
          rw [Nat.div_add_mod, Nat.div_add_mod]
      _ = _ := by rw [Nat.add_mul, Nat.mul_add, Nat.mul_assoc]; omega
  rw [hsplit, Nat.mul_add_div hn, Nat.add_assoc]

/-- What is left of the seconds makes less than a second more. -/
theorem div_left_lt (seconds : Nat) {nanos unit n : Nat} (hnanos : nanos < unit) (hn : 0 < n) :
    nanos / n + (seconds % n * unit + nanos % n) / n < unit := by
  have hparts := div_parts (seconds % n) nanos unit hn
  rw [Nat.mod_mod, Nat.div_eq_of_lt (Nat.mod_lt seconds hn), Nat.zero_mul, Nat.zero_add] at hparts
  rw [← hparts]
  apply Nat.div_lt_of_lt_mul
  have hleft : (seconds % n + 1) * unit ≤ n * unit := Nat.mul_le_mul_right unit (Nat.mod_lt _ hn)
  rw [Nat.add_mul] at hleft
  omega

/-- A duration is divided by dividing its nanoseconds. -/
theorem divide?_eq (d : Duration) {n : UInt32} (hn : n ≠ 0) :
    d.divide? n = some (ofNanos (d.toNanos / n.toNat)) := by
  have hpos : 0 < n.toNat := Nat.pos_of_ne_zero fun h => hn (UInt32.toNat_inj.1 h)
  have hlt := div_left_lt d.seconds.toNat d.nanos.isLt hpos
  rw [divide?, if_neg hn, Option.some_inj]
  refine (ofNanos_toNanos _).symm.trans (congrArg ofNanos ?_)
  simp only [toNanos, UInt64.toNat_div, UInt64.toNat_mod, UInt32.toNat_toUInt64, nanosPerSecond,
    Fin.ofNat, Nat.mod_eq_of_lt hlt]
  exact (div_parts _ _ _ hpos).symm

end Duration

end FileIndexing
