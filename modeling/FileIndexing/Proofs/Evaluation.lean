import FileIndexing.Metrics
import Mathlib.Algebra.Order.Ring.Nat
import Mathlib.Data.List.Induction

/-!
# Evaluation times

What the metrics say about the time spent preparing updates, in numbers without bounds.

* The average (`Metrics.averageEvaluation`) is taken over the low 32 bits of the number of
  operations.  `averageEvaluation_fair_iff` says for which counts and totals this is the average
  over all operations.
* The total is kept in 64 bits and wraps around, while every single duration is capped and the
  longest one is kept apart.  A total that wraps around falls below the duration that made it do
  so (`add_mod_lt`).  `evaluationTimes_exact` says what the total and the longest duration come to
  and when they are in order.
-/

namespace FileIndexing

/-! ## The average -/

/-- Dividing by the low 32 bits of a count is dividing by the count itself if the count has no more
bits, or if both quotients are zero. -/
theorem div_low_eq_div_iff {total count : Nat} (hlow : 0 < count % UInt32.size) :
    total / (count % UInt32.size) = total / count ↔
      count < UInt32.size ∨ total < count % UInt32.size := by
  constructor
  · intro heq
    by_contra hnot
    have hdouble : count % UInt32.size * 2 ≤ count := by
      rw [UInt32.size] at hnot ⊢
      omega
    have hone : 1 ≤ total / (count % UInt32.size) := (Nat.one_le_div_iff hlow).2 (by omega)
    have hhalf : total / count ≤ total / (count % UInt32.size) / 2 := by
      rw [Nat.div_div_eq_div_mul]
      exact Nat.div_le_div_left hdouble (by omega)
    omega
  · rintro (hcount | htotal)
    · rw [Nat.mod_eq_of_lt hcount]
    · rw [Nat.div_eq_of_lt htotal, Nat.div_eq_of_lt (htotal.trans_le (Nat.mod_le _ _))]

/-- Dividing a duration makes no duration too long to be told in nanoseconds. -/
theorem Duration.toNanos_ofNanos_div (d : Duration) (n : Nat) :
    (ofNanos (d.toNanos / n)).toNanos = d.toNanos / n := by
  refine toNanos_ofNanos (Nat.lt_of_le_of_lt (Nat.div_le_div_right (Nat.div_le_self _ _)) ?_)
  have hseconds := d.seconds.toNat_lt
  have hnanos := d.nanos.isLt
  rw [toNanos, nanosPerSecond, UInt64.size]
  omega

namespace Metrics

/-- The total evaluation time shared out among the operations, rounded down to nanoseconds. -/
def fairShare (m : Metrics) : Duration :=
  if m.operationsStarted.toNat = 0 then .zero
  else .ofNanos (m.totalEvaluationTime.toNanos / m.operationsStarted.toNat)

theorem averageEvaluation_eq (m : Metrics) :
    m.averageEvaluation =
      if m.operationsStarted.toNat = 0 then .ok .zero
      else if m.operationsStarted.toNat % UInt32.size = 0 then
        .error (.text "divide by zero error when dividing duration by scalar")
      else
        .ok (.ofNanos
          (m.totalEvaluationTime.toNanos / (m.operationsStarted.toNat % UInt32.size))) := by
  have hzero : m.operationsStarted = 0 ↔ m.operationsStarted.toNat = 0 := UInt64.toNat_inj.symm
  have hlow : m.operationsStarted.toUInt32.toNat = m.operationsStarted.toNat % UInt32.size := rfl
  rw [averageEvaluation]
  by_cases hn : m.operationsStarted.toNat = 0
  · rw [if_pos (hzero.2 hn), if_pos hn]
  rw [if_neg (mt hzero.1 hn), if_neg hn, ← hlow]
  by_cases hd : m.operationsStarted.toUInt32 = 0
  · rw [hd]
    rfl
  · have hdivisor : m.operationsStarted.toUInt32.toNat ≠ 0 := fun h => hd (UInt32.toNat_inj.1 h)
    rw [Duration.divide?_eq _ hd, if_neg hdivisor]

/-- The average is the total shared out among all operations exactly if their number fits in 32
bits, or if the total has fewer nanoseconds than the low 32 bits of the number say; and there is
none at all exactly if these bits are zero although the number is not. -/
theorem averageEvaluation_fair_iff (m : Metrics) :
    (m.averageEvaluation = .ok m.fairShare ↔
        m.operationsStarted.toNat < UInt32.size ∨
          m.totalEvaluationTime.toNanos < m.operationsStarted.toNat % UInt32.size) ∧
      ((∃ payload, m.averageEvaluation = .error payload) ↔
        m.operationsStarted.toNat ≠ 0 ∧ m.operationsStarted.toNat % UInt32.size = 0) := by
  rw [averageEvaluation_eq, fairShare]
  by_cases hn : m.operationsStarted.toNat = 0
  · simp [hn, UInt32.size]
  by_cases hlow : m.operationsStarted.toNat % UInt32.size = 0
  · have hlarge : ¬ m.operationsStarted.toNat < UInt32.size := fun hlt =>
      hn (Nat.mod_eq_of_lt hlt ▸ hlow)
    simp [hn, hlow, hlarge]
  · have hsame : (Duration.ofNanos
          (m.totalEvaluationTime.toNanos / (m.operationsStarted.toNat % UInt32.size)) =
        .ofNanos (m.totalEvaluationTime.toNanos / m.operationsStarted.toNat)) ↔
        m.totalEvaluationTime.toNanos / (m.operationsStarted.toNat % UInt32.size) =
          m.totalEvaluationTime.toNanos / m.operationsStarted.toNat :=
      ⟨fun h => by simpa only [Duration.toNanos_ofNanos_div] using congrArg Duration.toNanos h,
        congrArg Duration.ofNanos⟩
    rw [if_neg hn, if_neg hn, if_neg hlow, Except.ok.injEq, hsame,
      div_low_eq_div_iff (Nat.pos_of_ne_zero hlow)]
    exact ⟨Iff.rfl, ⟨fun ⟨_, h⟩ => (nomatch h), fun h => absurd h.2 hlow⟩⟩

/-- Five seconds spent in a number of operations. -/
def fiveSeconds (operations : UInt64) : Metrics :=
  { zero with operationsStarted := operations, totalEvaluationTime := .ofNanos 5000000000 }

/-- There is no average over 2^32 operations, and that over one more is the total. -/
theorem averageEvaluation_unfair :
    ((fiveSeconds 4294967296).averageEvaluation =
          .error (.text "divide by zero error when dividing duration by scalar") ∧
        (fiveSeconds 4294967296).fairShare = .ofNanos 1) ∧
      (fiveSeconds 4294967297).averageEvaluation = .ok (.ofNanos 5000000000) ∧
        (fiveSeconds 4294967297).fairShare = .ofNanos 1 := by
  refine ⟨⟨rfl, ?_⟩, ?_, ?_⟩ <;> decide

end Metrics

/-! ## The total and the longest time -/

namespace Counters

/-- The nanoseconds of a duration as far as they can be recorded. -/
def recordable (d : Duration) : Nat := min d.toNanos (UInt64.size - 1)

/-- Records evaluation times one after the other. -/
def recordEvaluations (c : Counters) (times : List Duration) : Counters :=
  times.foldl (fun c d => c.recordEvaluation d) c

theorem recordEvaluations_cons (c : Counters) (d : Duration) (rest : List Duration) :
    c.recordEvaluations (d :: rest) = (c.recordEvaluation d).recordEvaluations rest := rfl

theorem toNat_totalNanos_recordEvaluation (c : Counters) (d : Duration) :
    (c.recordEvaluation d).totalNanos.toNat =
      (c.totalNanos.toNat + recordable d) % UInt64.size := by
  rw [recordable, ← toNat_cappedNanos, recordEvaluation, raiseMax, addToTotal, UInt64.toNat_add]

theorem toNat_max (a b : UInt64) : (max a b).toNat = max a.toNat b.toNat := by
  change (if a ≤ b then b else a).toNat = _
  split
  · next h => exact (Nat.max_eq_right (UInt64.le_iff_toNat_le.1 h)).symm
  · next h => exact (Nat.max_eq_left (Nat.le_of_not_le (mt UInt64.le_iff_toNat_le.2 h))).symm

theorem toNat_maxNanos_recordEvaluation (c : Counters) (d : Duration) :
    (c.recordEvaluation d).maxNanos.toNat = max c.maxNanos.toNat (recordable d) := by
  rw [recordable, ← toNat_cappedNanos, ← toNat_max, recordEvaluation, raiseMax, addToTotal]

/-- The total is the sum of all times, less as many times 2^64 nanoseconds as it holds. -/
theorem toNat_totalNanos_recordEvaluations (times : List Duration) (c : Counters) :
    (c.recordEvaluations times).totalNanos.toNat =
      (c.totalNanos.toNat + (times.map recordable).sum) % UInt64.size := by
  induction times generalizing c with
  | nil => exact (Nat.mod_eq_of_lt c.totalNanos.toNat_lt).symm
  | cons d rest ih =>
    rw [recordEvaluations_cons, ih, toNat_totalNanos_recordEvaluation, List.map_cons,
      List.sum_cons, Nat.mod_add_mod, Nat.add_assoc]

/-- The longest time is the longest of all, whatever the total does. -/
theorem toNat_maxNanos_recordEvaluations (times : List Duration) (c : Counters) :
    (c.recordEvaluations times).maxNanos.toNat =
      max c.maxNanos.toNat ((times.map recordable).foldr max 0) := by
  induction times generalizing c with
  | nil => exact (Nat.max_zero _).symm
  | cons d rest ih =>
    rw [recordEvaluations_cons, ih, toNat_maxNanos_recordEvaluation, List.map_cons,
      List.foldr_cons, Nat.max_assoc]

end Counters

/-- A total that wraps around falls below what was added to it. -/
theorem add_mod_lt {total added bound : Nat} (htotal : total < bound) (hadded : added < bound)
    (hwraps : bound ≤ total + added) : (total + added) % bound < added := by
  rw [Nat.mod_eq_sub_mod hwraps, Nat.mod_eq_of_lt (by omega)]
  omega

theorem foldr_max_le_sum (l : List Nat) : l.foldr max 0 ≤ l.sum := by
  induction l with
  | nil => exact Nat.le_refl _
  | cons n rest ih =>
    rw [List.foldr_cons, List.sum_cons]
    omega

theorem le_foldr_max {l : List Nat} {n : Nat} (h : n ∈ l) : n ≤ l.foldr max 0 := by
  induction l with
  | nil => nomatch h
  | cons m rest ih =>
    rw [List.foldr_cons]
    obtain rfl | hrest := List.mem_cons.1 h
    · exact Nat.le_max_left _ _
    · exact (ih hrest).trans (Nat.le_max_right _ _)

/-- Numbers whose sum reaches a bound that none of them reaches make a total that is kept below the
bound fall below one of them at some moment. -/
theorem exists_prefix_lt {bound : Nat} (hbound : 0 < bound) {l : List Nat}
    (hl : ∀ n ∈ l, n < bound) (hsum : bound ≤ l.sum) :
    ∃ before, before <+: l ∧ before.sum % bound < before.foldr max 0 := by
  induction l using List.reverseRecOn with
  | nil => exact absurd hsum (Nat.not_le_of_lt hbound)
  | append_singleton init n ih =>
    by_cases hinit : bound ≤ init.sum
    · obtain ⟨before, hbefore, hlt⟩ :=
        ih (fun m hm => hl m (List.mem_append_left _ hm)) hinit
      exact ⟨before, hbefore.trans (List.prefix_append _ _), hlt⟩
    · refine ⟨init ++ [n], List.prefix_rfl, ?_⟩
      have hn : n < bound := hl n (by simp)
      rw [List.sum_append, List.sum_singleton] at hsum ⊢
      exact (add_mod_lt (by omega) hn hsum).trans_le (le_foldr_max (by simp))

namespace Metrics

/-- What the metrics show once some evaluation times were recorded, one after the other. -/
def afterEvaluations (times : List Duration) (uptime : Float) : Metrics :=
  ofCounters (Counters.zero.recordEvaluations times) uptime

theorem toNanos_totalEvaluationTime (times : List Duration) (uptime : Float) :
    (afterEvaluations times uptime).totalEvaluationTime.toNanos =
      (times.map Counters.recordable).sum % UInt64.size := by
  have htotal := Counters.toNat_totalNanos_recordEvaluations times .zero
  rw [Counters.zero, UInt64.toNat_zero, Nat.zero_add] at htotal
  exact (Counters.toNanos_totalEvaluation _).trans htotal

theorem toNanos_maxEvaluationTime (times : List Duration) (uptime : Float) :
    (afterEvaluations times uptime).maxEvaluationTime.toNanos =
      (times.map Counters.recordable).foldr max 0 := by
  have hmax := Counters.toNat_maxNanos_recordEvaluations times .zero
  rw [Counters.zero, UInt64.toNat_zero, Nat.zero_max] at hmax
  exact (Counters.toNanos_maxEvaluation _).trans hmax

/-- The longest evaluation time is the longest of all that were recorded, each as far as 64 bits of
nanoseconds go.  The total is their sum exactly if the sum fits in 64 bits, and exactly then it has
been at least the longest time at every moment; at one moment it is so if what is left of the sum
in 64 bits is. -/
theorem evaluationTimes_exact (times : List Duration) (uptime : Float) :
    let recorded := times.map Counters.recordable
    let m := afterEvaluations times uptime
    m.maxEvaluationTime.toNanos = recorded.foldr max 0 ∧
      (m.totalEvaluationTime.toNanos = recorded.sum ↔ recorded.sum < UInt64.size) ∧
      (m.maxEvaluationTime.toNanos ≤ m.totalEvaluationTime.toNanos ↔
        recorded.foldr max 0 ≤ recorded.sum % UInt64.size) ∧
      ((∀ before, before <+: times →
          (afterEvaluations before uptime).maxEvaluationTime.toNanos ≤
            (afterEvaluations before uptime).totalEvaluationTime.toNanos) ↔
        recorded.sum < UInt64.size) := by
  have hpos : 0 < UInt64.size := by decide
  simp only [toNanos_maxEvaluationTime, toNanos_totalEvaluationTime]
  refine ⟨trivial, ⟨fun h => h ▸ Nat.mod_lt _ hpos, Nat.mod_eq_of_lt⟩, trivial,
    fun hall => ?_, fun hfits before hbefore => ?_⟩
  · by_contra hover
    have hbounded : ∀ n ∈ times.map Counters.recordable, n < UInt64.size := by
      intro n hn
      obtain ⟨d, -, rfl⟩ := List.mem_map.1 hn
      rw [Counters.recordable]
      omega
    obtain ⟨_, hprefix, hlt⟩ := exists_prefix_lt hpos hbounded (Nat.le_of_not_lt hover)
    obtain ⟨before, hbefore, rfl⟩ := List.prefix_map_iff.1 hprefix
    exact Nat.not_le_of_lt hlt (hall before hbefore)
  · have hle : (before.map Counters.recordable).sum ≤ (times.map Counters.recordable).sum := by
      obtain ⟨rest, rfl⟩ := hbefore
      rw [List.map_append, List.sum_append]
      exact Nat.le_add_right _ _
    rw [Nat.mod_eq_of_lt (hle.trans_lt hfits)]
    exact foldr_max_le_sum _

/-- The longest time that can be recorded, and a nanosecond more. -/
def overflowingTimes : List Duration := [.ofNanos 18446744073709551615, .ofNanos 1]

/-- The total has come round to nothing, and the longest time is what it was. -/
theorem evaluationTimes_fallBelow :
    (afterEvaluations overflowingTimes 0).totalEvaluationTime.toNanos = 0 ∧
      (afterEvaluations overflowingTimes 0).maxEvaluationTime.toNanos = 18446744073709551615 := by
  constructor <;> decide

/-- Two times whose sum fits. -/
theorem evaluationTimes_exact_fitting :
    (afterEvaluations [.ofNanos 10, .ofNanos 30] 0).totalEvaluationTime.toNanos = 40 ∧
      (afterEvaluations [.ofNanos 10] 0).maxEvaluationTime.toNanos ≤
        (afterEvaluations [.ofNanos 10] 0).totalEvaluationTime.toNanos := by
  have h := evaluationTimes_exact [.ofNanos 10, .ofNanos 30] 0
  exact ⟨h.2.1.2 (by decide), h.2.2.2.2 (by decide) _ ⟨[.ofNanos 30], rfl⟩⟩

end Metrics

end FileIndexing
