import FileIndexing.Rebuild.Contention
import Mathlib.Logic.Relation

/-!
# The accounts of the registry under contention

What the registry has counted, and what it has moved, after any number of requests, starts and
finishes whose accesses are interleaved in any way.

The callers who have done something to one index are counted in a `Ledger`, next to the status that
the registry has for the index.  `ledger_step` says what one access does to the ledger of an index:
nothing, or one of five entries.  That the ledgers are balanced (`Ledger.Balanced`) follows from the
entries alone.

* `accounts_balance`: the moves into the scheduled state, the starts and the finishes of an index
  balance; of the requests between two starts at most one schedules a rebuild; no status is lost
  when two callers create statuses at once; and when no request is on its way, the registry has
  counted those that answered that they scheduled a rebuild, and the history holds as many of them
  as fit.
-/

namespace FileIndexing.Rebuild

/-! ## Places -/

/-- Whether a call is a request. -/
def Call.isRequest : Call → Bool
  | .request _ _ => true
  | _ => false

/-- The place that a call works on. -/
def Phase.place? : Phase → Option Nat
  | .load place => some place
  | .exchange place _ => some place
  | .transit place => some place
  | .count place => some place
  | _ => none

/-- Whether a phase is one of those that a call goes through, and what the call has seen. -/
def Call.MayBeIn (call : Call) : Phase → Prop
  | .load _ => call.isRequest = true
  | .exchange _ expected => call.isRequest = true ∧ expected ≠ .required
  | .transit _ => call.isRequest = false
  | .count _ => call.isRequest = true
  | .record => call.isRequest = true
  | _ => True

theorem Call.place?_at (call : Call) (place : Nat) : (call.at place).place? = some place := by
  cases call <;> rfl

theorem Call.mayBeIn_at (call : Call) (place : Nat) : call.MayBeIn (call.at place) := by
  cases call <;> rfl

theorem place?_seen {place other : Nat} {state : RebuildState}
    (h : (seen place state).place? = some other) : place = other := by
  unfold seen at h
  split at h
  · cases h
  · exact Option.some.inj h

theorem Call.mayBeIn_seen {call : Call} (hrequest : call.isRequest = true) (place : Nat)
    (state : RebuildState) : call.MayBeIn (seen place state) := by
  unfold seen
  split
  · trivial
  · next h => exact ⟨hrequest, h⟩

namespace Memory

variable {m : Memory} {index other : IndexId} {p : Nat}

/-- Every status has a place of its own. -/
structure Apart (m : Memory) : Prop where
  inRange : ∀ (index : IndexId) (p : Nat), m.table[index]? = some p → p < m.places.length
  inj : ∀ (index other : IndexId) (p : Nat), m.table[index]? = some p → m.table[other]? = some p →
    index = other

/-- What the registry answers is what is at the place of the index. -/
theorem status_toRegistry (m : Memory) (index : IndexId) :
    m.toRegistry.status index = (m.table[index]?.map m.status).getD .initial := by
  simp [RebuildRegistry.status, toRegistry, Std.ExtTreeMap.getElem?_map]

theorem status_toRegistry_of_place (h : m.table[index]? = some p) :
    m.toRegistry.status index = m.status p := by
  simp [status_toRegistry, h]

/-- Writing the status at the place of an index changes what the registry answers for it. -/
theorem status_setStatus (hm : m.Apart) (h : m.table[index]? = some p) (status : RebuildStatus)
    (other : IndexId) :
    (m.setStatus p status).toRegistry.status other =
      if index = other then status else m.toRegistry.status other := by
  have hin := hm.inRange index p h
  rw [status_toRegistry, status_toRegistry]
  by_cases hother : index = other
  · subst hother
    simp [setStatus, h, Memory.status, hin]
  · simp only [setStatus, if_neg hother]
    cases ho : m.table[other]? with
    | none => rfl
    | some q =>
      have hne : p ≠ q := by
        rintro rfl
        exact hother (hm.inj index other p h ho)
      simp [Memory.status, List.getElem?_set_ne hne]

theorem Apart.setStatus (hm : m.Apart) (p : Nat) (status : RebuildStatus) :
    (m.setStatus p status).Apart where
  inRange index q h := by simpa [Memory.setStatus] using hm.inRange index q h
  inj := hm.inj

/-- What the registry answers after the state of an index was changed. -/
theorem status_moveTo (hm : m.Apart) (h : m.table[index]? = some p) (state : RebuildState)
    (other : IndexId) :
    (m.moveTo index p state).toRegistry.status other =
      if index = other then { m.toRegistry.status index with state } else
        m.toRegistry.status other := by
  rw [status_toRegistry_of_place h]
  exact status_setStatus hm h { m.status p with state } other

theorem Apart.moveTo (hm : m.Apart) (index : IndexId) (p : Nat) (state : RebuildState) :
    (m.moveTo index p state).Apart :=
  ⟨(hm.setStatus p _).inRange, hm.inj⟩

/-- A status that is missing gets the place behind the others. -/
theorem place_of_none (h : m.table[index]? = none) :
    m.place index = (m.places.length,
      { m with table := m.table.insert index m.places.length, places := m.places ++ [.initial] }) := by
  simp [Memory.place, h]

theorem place_of_some (h : m.table[index]? = some p) : m.place index = (p, m) := by
  simp [Memory.place, h]

theorem moves_place (m : Memory) (index : IndexId) : (m.place index).2.moves = m.moves := by
  unfold Memory.place
  split <;> rfl

theorem history_place (m : Memory) (index : IndexId) : (m.place index).2.history = m.history := by
  unfold Memory.place
  split <;> rfl

/-- The table after a status was created. -/
theorem table_place (m : Memory) (index other : IndexId) :
    (m.place index).2.table[other]? =
      if index = other then some (m.place index).1 else m.table[other]? := by
  cases h : m.table[index]? with
  | none => simp [place_of_none h, Std.ExtTreeMap.getElem?_insert]
  | some p =>
    rw [place_of_some h]
    split
    · next he => rw [← he, h]
    · rfl

theorem table_place_self (m : Memory) (index : IndexId) :
    (m.place index).2.table[index]? = some (m.place index).1 := by
  simp [table_place]

/-- Creating a status leaves those that are there in their places. -/
theorem table_place_of_some (h : m.table[other]? = some p) (index : IndexId) :
    (m.place index).2.table[other]? = some p := by
  rw [table_place]
  split
  · next he => rw [place_of_some (he ▸ h)]
  · exact h

theorem Apart.place (hm : m.Apart) (index : IndexId) : (m.place index).2.Apart := by
  cases hnone : m.table[index]? with
  | some p => exact (place_of_some hnone).symm ▸ hm
  | none =>
    have hnew : ∀ (other : IndexId) (p : Nat), (m.place index).2.table[other]? = some p →
        (index = other ∧ m.places.length = p) ∨ m.table[other]? = some p := by
      intro other p h
      rw [table_place, place_of_none hnone] at h
      split at h
      · next he => exact .inl ⟨he, Option.some.inj h⟩
      · exact .inr h
    refine ⟨fun other p h => ?_, fun a b p ha hb => ?_⟩
    · rw [place_of_none hnone]
      obtain ⟨-, rfl⟩ | h := hnew other p h
      · simp
      · simpa using Nat.lt_succ_of_lt (hm.inRange other p h)
    · rcases hnew a p ha, hnew b p hb with ⟨⟨rfl, hp⟩ | ha, ⟨rfl, hq⟩ | hb⟩
      · rfl
      · exact absurd (hp ▸ hm.inRange b p hb) (Nat.lt_irrefl _)
      · exact absurd (hq ▸ hm.inRange a p ha) (Nat.lt_irrefl _)
      · exact hm.inj a b p ha hb

/-- Creating a status does not change what the registry answers. -/
theorem status_place (hm : m.Apart) (index other : IndexId) :
    (m.place index).2.toRegistry.status other = m.toRegistry.status other := by
  cases hnone : m.table[index]? with
  | some p => rw [place_of_some hnone]
  | none =>
    rw [status_toRegistry, status_toRegistry, table_place, place_of_none hnone]
    split
    · next he => simp [← he, hnone, Memory.status]
    · cases ho : m.table[other]? with
      | none => rfl
      | some q => simp [Memory.status, List.getElem?_append_left (hm.inRange other q ho)]

end Memory

/-! ## Ledgers -/

/-- Whether a request in this phase has scheduled a rebuild. -/
def Phase.hasScheduled : Phase → Bool
  | .count _ => true
  | .record => true
  | .returned answer => answer
  | _ => false

/-- Whether a request in this phase has been counted. -/
def Phase.hasCounted : Phase → Bool
  | .record => true
  | .returned answer => answer
  | _ => false

namespace Caller

/-- Whether a caller is a request for an index that has scheduled a rebuild. -/
def scheduled (index : IndexId) (c : Caller) : Bool :=
  c.call.isRequest && decide (c.call.index = index) && c.phase.hasScheduled

/-- Whether a caller is a request for an index that the registry has counted. -/
def counted (index : IndexId) (c : Caller) : Bool :=
  c.call.isRequest && decide (c.call.index = index) && c.phase.hasCounted

/-- Whether a caller is a request for an index that answered that it scheduled a rebuild. -/
def requested (index : IndexId) (c : Caller) : Bool :=
  c.call.isRequest && decide (c.call.index = index) && decide (c.phase = .returned true)

/-- Whether a caller is a request, for any index, that answered that it scheduled a rebuild. -/
def answered (c : Caller) : Bool := c.call.isRequest && decide (c.phase = .returned true)

/-- Whether a caller has claimed a rebuild of an index. -/
def started (index : IndexId) (c : Caller) : Bool :=
  decide (c.call = .start index) && decide (c.phase = .returned true)

/-- Whether a caller has ended a rebuild of an index. -/
def finished (index : IndexId) (c : Caller) : Bool :=
  decide (c.call = .finish index) && decide (c.phase = .returned true)

end Caller

/-- Whether a move schedules a rebuild of an index. -/
def Move.schedules (index : IndexId) (move : Move) : Bool :=
  decide (move.index = index) && decide (move.after = .required)

/-- What has happened to one index. -/
structure Ledger where
  status : RebuildStatus
  /-- How often the state moved to scheduled. -/
  moves : Nat
  /-- How many requests scheduled a rebuild, counted or not. -/
  scheduled : Nat
  counted : Nat
  started : Nat
  finished : Nat

namespace Ledger

/-- What one access can do to the ledger of an index. -/
inductive Step : Ledger → Ledger → Prop where
  | stay (l : Ledger) : Step l l
  | schedule (l : Ledger) : l.status.state ≠ .required →
      Step l { l with
        status := { l.status with state := .required }
        moves := l.moves + 1
        scheduled := l.scheduled + 1 }
  | start (l : Ledger) : l.status.state = .required →
      Step l { l with status := { l.status with state := .running }, started := l.started + 1 }
  | finish (l : Ledger) : l.status.state = .running →
      Step l { l with status := { l.status with state := .ok }, finished := l.finished + 1 }
  | count (l : Ledger) :
      Step l { l with
        status := { l.status with requests := l.status.requests + 1 }
        counted := l.counted + 1 }

/-- The moves into the scheduled state are the requests that scheduled a rebuild.  Each of them is
followed by a start, unless the index is still scheduled, and each start by at most one finish,
which has not happened while the index is running. -/
structure Balanced (l : Ledger) : Prop where
  moves : l.moves = l.scheduled
  starts : l.scheduled = l.started + if l.status.state = .required then 1 else 0
  finishes : l.finished + (if l.status.state = .running then 1 else 0) ≤ l.started
  counts : l.status.requests = UInt64.ofNat l.counted

theorem Balanced.step {l l' : Ledger} (hl : l.Balanced) (h : Step l l') : l'.Balanced := by
  obtain ⟨hmoves, hstarts, hfinishes, hcounts⟩ := hl
  cases h with
  | stay => exact ⟨hmoves, hstarts, hfinishes, hcounts⟩
  | schedule hstate =>
    rw [if_neg hstate] at hstarts
    refine ⟨by simp [hmoves], by simp [hstarts], ?_, hcounts⟩
    simp only [reduceCtorEq, if_false]
    exact Nat.le_trans (Nat.le_add_right _ _) hfinishes
  | start hstate =>
    rw [if_pos hstate] at hstarts
    refine ⟨hmoves, by simp [hstarts], ?_, hcounts⟩
    simpa [hstate] using hfinishes
  | finish hstate =>
    refine ⟨hmoves, by simpa [hstate] using hstarts, ?_, hcounts⟩
    simpa [hstate] using hfinishes
  | count => exact ⟨hmoves, hstarts, hfinishes, by simp [hcounts]⟩

end Ledger

/-! ### Counting callers -/

section Tally

variable {α : Type} {l : List α} {i : Nat} {a b : α} {p : α → Bool}

/-- Exchanging an element for one that counts the same. -/
theorem countP_set_same (h : l[i]? = some a) (hp : p b = p a) :
    (l.set i b).countP p = l.countP p := by
  obtain ⟨hi, rfl⟩ := List.getElem?_eq_some_iff.mp h
  have hpos : p l[i] = true → 0 < l.countP p := fun hpi =>
    List.countP_pos_iff.mpr ⟨_, List.getElem_mem hi, hpi⟩
  rw [List.countP_set hi, hp]
  cases hpi : p l[i]
  · simp
  · have := hpos hpi
    simp
    omega

/-- Exchanging an element that does not count for one that does. -/
theorem countP_set_succ (h : l[i]? = some a) (ha : p a = false) (hb : p b = true) :
    (l.set i b).countP p = l.countP p + 1 := by
  obtain ⟨hi, rfl⟩ := List.getElem?_eq_some_iff.mp h
  simp [List.countP_set hi, ha, hb]

end Tally

/-! ## What one access does -/

namespace Contention

variable {s t : Contention} {i : Nat} {c : Caller} {index : IndexId} {fails : Bool}

/-- The ledger of an index. -/
def ledger (s : Contention) (index : IndexId) : Ledger where
  status := s.memory.toRegistry.status index
  moves := s.memory.moves.countP (·.schedules index)
  scheduled := s.callers.countP (·.scheduled index)
  counted := s.callers.countP (·.counted index)
  started := s.callers.countP (·.started index)
  finished := s.callers.countP (·.finished index)

/-- Every status has a place of its own, and every call works on the place of its index. -/
structure Placed (s : Contention) : Prop where
  apart : s.memory.Apart
  places : ∀ c ∈ s.callers, ∀ p, c.phase.place? = some p →
    s.memory.table[c.call.index]? = some p
  phases : ∀ c ∈ s.callers, c.call.MayBeIn c.phase

/-- The state after one of the callers has gone on to a phase. -/
def turn (s : Contention) (i : Nat) (c : Caller) (phase : Phase) (memory : Memory) : Contention :=
  ⟨memory, s.callers.set i { c with phase }⟩

theorem advance_eq (h : s.callers[i]? = some c) (fails : Bool) :
    s.advance i fails =
      s.turn i c (c.access fails s.memory).1 (c.access fails s.memory).2 := by
  simp [advance, h, turn]

/-- A caller that has not brought anything about yet, and does not with this access. -/
theorem ledger_turn_quiet (h : s.callers[i]? = some c) {phase : Phase} {memory : Memory}
    (hbefore : c.phase.hasScheduled = false) (hafter : phase.hasScheduled = false)
    (hstatus : memory.toRegistry.status index = s.memory.toRegistry.status index)
    (hmoves : memory.moves = s.memory.moves) :
    (s.turn i c phase memory).ledger index = s.ledger index := by
  have hcounted : ∀ p : Phase, p.hasScheduled = false → p.hasCounted = false := by
    intro p hp
    cases p <;> simp_all [Phase.hasScheduled, Phase.hasCounted]
  have hreturned : ∀ p : Phase, p.hasScheduled = false → p ≠ .returned true := by
    rintro p hp rfl
    cases hp
  simp only [ledger, turn, hstatus, hmoves]
  congr 1
  · exact countP_set_same h (by simp [Caller.scheduled, hbefore, hafter])
  · exact countP_set_same h (by simp [Caller.counted, hcounted _ hbefore, hcounted _ hafter])
  · exact countP_set_same h (by
      simp [Caller.started, hreturned _ hbefore, hreturned _ hafter])
  · exact countP_set_same h (by
      simp [Caller.finished, hreturned _ hbefore, hreturned _ hafter])

/-- A caller that works on another index. -/
theorem ledger_turn_elsewhere (h : s.callers[i]? = some c) {phase : Phase} {memory : Memory}
    (hindex : c.call.index ≠ index)
    (hstatus : memory.toRegistry.status index = s.memory.toRegistry.status index)
    (hmoves : memory.moves.countP (·.schedules index) = s.memory.moves.countP (·.schedules index)) :
    (s.turn i c phase memory).ledger index = s.ledger index := by
  have hstart : c.call ≠ .start index := by
    intro he
    exact hindex (by rw [he]; rfl)
  have hfinish : c.call ≠ .finish index := by
    intro he
    exact hindex (by rw [he]; rfl)
  simp only [ledger, turn, hstatus, hmoves]
  congr 1
  · exact countP_set_same h (by simp [Caller.scheduled, hindex])
  · exact countP_set_same h (by simp [Caller.counted, hindex])
  · exact countP_set_same h (by simp [Caller.started, hstart])
  · exact countP_set_same h (by simp [Caller.finished, hfinish])

/-- What an exchange leaves of the memory. -/
theorem compareExchange_cases (index : IndexId) (p : Nat) (expected next : RebuildState)
    (m : Memory) :
    ((m.status p).state = expected ∧
        compareExchange index p expected next m = (true, m.moveTo index p next)) ∨
      compareExchange index p expected next m = (false, m) := by
  unfold compareExchange
  split
  · next h => exact .inl ⟨h, rfl⟩
  · exact .inr rfl

/-- What one access keeps of the memory, and what it makes sure of for the phase it leads to. -/
structure Keeps (c : Caller) (m : Memory) (phase : Phase) (m' : Memory) : Prop where
  apart : m'.Apart
  table : ∀ (other : IndexId) (q : Nat), m.table[other]? = some q → m'.table[other]? = some q
  place : ∀ q, phase.place? = some q → m'.table[c.call.index]? = some q
  mayBeIn : c.call.MayBeIn phase

theorem keeps_access {m : Memory} (hm : m.Apart)
    (hplace : ∀ p, c.phase.place? = some p → m.table[c.call.index]? = some p)
    (hphase : c.call.MayBeIn c.phase) (fails : Bool) :
    Keeps c m (c.access fails m).1 (c.access fails m).2 := by
  obtain ⟨call, phase⟩ := c
  cases phase with
  | lookUp =>
    simp only [Caller.access]
    split
    · next p h =>
      refine ⟨hm, fun _ _ => id, fun q hq => ?_, call.mayBeIn_at p⟩
      rw [call.place?_at] at hq
      exact Option.some.inj hq ▸ h
    · exact ⟨hm, fun _ _ => id, nofun, trivial⟩
  | create =>
    refine ⟨hm.place _, fun other q h => Memory.table_place_of_some h _, fun q hq => ?_,
      call.mayBeIn_at _⟩
    simp only [Caller.access, call.place?_at] at hq
    rw [← Option.some.inj hq]
    exact Memory.table_place_self m call.index
  | load p =>
    refine ⟨hm, fun _ _ => id, fun q hq => ?_, Call.mayBeIn_seen hphase _ _⟩
    exact place?_seen hq ▸ hplace p rfl
  | exchange p expected =>
    have hseen : Keeps ⟨call, .exchange p expected⟩ m (seen p (m.status p).state) m :=
      ⟨hm, fun _ _ => id, fun q hq => place?_seen hq ▸ hplace p rfl,
        Call.mayBeIn_seen hphase.1 _ _⟩
    cases fails with
    | true => exact hseen
    | false =>
      obtain ⟨-, h⟩ | h := compareExchange_cases call.index p expected .required m
      · simp only [Caller.access, h, Bool.false_eq_true, if_false]
        refine ⟨hm.moveTo _ _ _, fun _ _ => id, fun q hq => ?_, hphase.1⟩
        exact Option.some.inj hq ▸ hplace p rfl
      · simpa only [Caller.access, h, Bool.false_eq_true, if_false] using hseen
  | transit p =>
    cases call with
    | request index cause => cases hphase
    | start index =>
      obtain ⟨-, h⟩ | h := compareExchange_cases index p .required .running m
      · simp only [Caller.access, h]
        exact ⟨hm.moveTo _ _ _, fun _ _ => id, nofun, trivial⟩
      · simp only [Caller.access, h]
        exact ⟨hm, fun _ _ => id, nofun, trivial⟩
    | finish index =>
      obtain ⟨-, h⟩ | h := compareExchange_cases index p .running .ok m
      · simp only [Caller.access, h]
        exact ⟨hm.moveTo _ _ _, fun _ _ => id, nofun, trivial⟩
      · simp only [Caller.access, h]
        exact ⟨hm, fun _ _ => id, nofun, trivial⟩
  | count p => exact ⟨hm.setStatus _ _, fun _ _ => id, nofun, hphase⟩
  | record =>
    cases call with
    | request index cause => exact ⟨⟨hm.inRange, hm.inj⟩, fun _ _ => id, nofun, trivial⟩
    | start index => cases hphase
    | finish index => cases hphase
  | returned answer => exact ⟨hm, fun _ _ => id, nofun, trivial⟩

/-- Moving on keeps every call at its place. -/
theorem Placed.advance (hs : s.Placed) (i : Nat) (fails : Bool) : (s.advance i fails).Placed := by
  cases h : s.callers[i]? with
  | none => simpa [Contention.advance, h] using hs
  | some c =>
    have hc := List.mem_of_getElem? h
    have hkeeps := keeps_access hs.apart (hs.places c hc) (hs.phases c hc) fails
    rw [advance_eq h]
    refine ⟨hkeeps.apart, fun d hd p hp => ?_, fun d hd => ?_⟩
    · obtain hd | rfl := List.mem_or_eq_of_mem_set hd
      · exact hkeeps.table _ _ (hs.places d hd p hp)
      · exact hkeeps.place p hp
    · obtain hd | rfl := List.mem_or_eq_of_mem_set hd
      · exact hs.phases d hd
      · exact hkeeps.mayBeIn

theorem countP_moves_moveTo (m : Memory) (index other : IndexId) (p : Nat) (state : RebuildState) :
    (m.moveTo index p state).moves.countP (·.schedules other) =
      m.moves.countP (·.schedules other) + if index = other ∧ state = .required then 1 else 0 := by
  simp [Memory.moveTo, Memory.setStatus, Move.schedules, List.countP_cons]

/-- A caller that moves its index enters that into the ledger of this index only. -/
theorem ledger_turn_moveTo (hs : s.Placed) (h : s.callers[i]? = some c) {p : Nat}
    (hplace : s.memory.table[c.call.index]? = some p) {phase : Phase} {state : RebuildState}
    (hown : Ledger.Step (s.ledger c.call.index)
      ((s.turn i c phase (s.memory.moveTo c.call.index p state)).ledger c.call.index))
    (index : IndexId) :
    Ledger.Step (s.ledger index)
      ((s.turn i c phase (s.memory.moveTo c.call.index p state)).ledger index) := by
  by_cases hindex : c.call.index = index
  · exact hindex ▸ hown
  · rw [ledger_turn_elsewhere h hindex
      (by simp [Memory.status_moveTo hs.apart hplace, hindex])
      (by simp [countP_moves_moveTo, hindex])]
    exact .stay _

/-- A request that exchanges the state it has seen. -/
theorem ledger_schedule (hs : s.Placed) (h : s.callers[i]? = some c) {p : Nat}
    {expected : RebuildState} (hphase : c.phase = .exchange p expected)
    (hstate : (s.memory.status p).state = expected) (index : IndexId) :
    Ledger.Step (s.ledger index)
      ((s.turn i c (.count p) (s.memory.moveTo c.call.index p .required)).ledger index) := by
  have hc := List.mem_of_getElem? h
  have hplace := hs.places c hc p (by rw [hphase]; rfl)
  obtain ⟨hrequest, hexpected⟩ : c.call.isRequest = true ∧ expected ≠ .required := by
    simpa [Call.MayBeIn, hphase] using hs.phases c hc
  refine ledger_turn_moveTo hs h hplace ?_ index
  have hledger : (s.turn i c (.count p) (s.memory.moveTo c.call.index p .required)).ledger
      c.call.index =
      { s.ledger c.call.index with
        status := { (s.ledger c.call.index).status with state := .required }
        moves := (s.ledger c.call.index).moves + 1
        scheduled := (s.ledger c.call.index).scheduled + 1 } := by
    simp only [ledger, turn, Memory.status_moveTo hs.apart hplace, countP_moves_moveTo]
    congr 1
    · exact countP_set_succ h (by simp [Caller.scheduled, Phase.hasScheduled, hphase])
        (by simp [Caller.scheduled, Phase.hasScheduled, hrequest])
    · exact countP_set_same h (by simp [Caller.counted, Phase.hasCounted, hphase])
    · exact countP_set_same h (by simp [Caller.started, hphase])
    · exact countP_set_same h (by simp [Caller.finished, hphase])
  rw [hledger]
  refine .schedule _ ?_
  simpa [ledger, Memory.status_toRegistry_of_place hplace, hstate] using hexpected

/-- A start that claims the rebuild. -/
theorem ledger_start (hs : s.Placed) {claimed : IndexId} {p : Nat}
    (h : s.callers[i]? = some ⟨.start claimed, .transit p⟩)
    (hstate : (s.memory.status p).state = .required) (index : IndexId) :
    Ledger.Step (s.ledger index)
      ((s.turn i ⟨.start claimed, .transit p⟩ (.returned true)
        (s.memory.moveTo claimed p .running)).ledger index) := by
  have hplace : s.memory.table[claimed]? = some p :=
    hs.places _ (List.mem_of_getElem? h) p rfl
  refine ledger_turn_moveTo hs h hplace ?_ index
  have hledger : (s.turn i ⟨.start claimed, .transit p⟩ (.returned true)
      (s.memory.moveTo claimed p .running)).ledger claimed =
      { s.ledger claimed with
        status := { (s.ledger claimed).status with state := .running }
        started := (s.ledger claimed).started + 1 } := by
    simp only [ledger, turn, Memory.status_moveTo hs.apart hplace, countP_moves_moveTo]
    congr 1
    · exact countP_set_same h (by simp [Caller.scheduled, Call.isRequest])
    · exact countP_set_same h (by simp [Caller.counted, Call.isRequest])
    · exact countP_set_succ h (by simp [Caller.started]) (by simp [Caller.started])
    · exact countP_set_same h (by simp [Caller.finished])
  have hbefore : (s.ledger claimed).status.state = .required := by
    rw [← hstate, ← Memory.status_toRegistry_of_place hplace]
    rfl
  exact Eq.mpr (congrArg _ hledger) (.start _ hbefore)

/-- A finish that ends the rebuild. -/
theorem ledger_finish (hs : s.Placed) {ended : IndexId} {p : Nat}
    (h : s.callers[i]? = some ⟨.finish ended, .transit p⟩)
    (hstate : (s.memory.status p).state = .running) (index : IndexId) :
    Ledger.Step (s.ledger index)
      ((s.turn i ⟨.finish ended, .transit p⟩ (.returned true)
        (s.memory.moveTo ended p .ok)).ledger index) := by
  have hplace : s.memory.table[ended]? = some p :=
    hs.places _ (List.mem_of_getElem? h) p rfl
  refine ledger_turn_moveTo hs h hplace ?_ index
  have hledger : (s.turn i ⟨.finish ended, .transit p⟩ (.returned true)
      (s.memory.moveTo ended p .ok)).ledger ended =
      { s.ledger ended with
        status := { (s.ledger ended).status with state := .ok }
        finished := (s.ledger ended).finished + 1 } := by
    simp only [ledger, turn, Memory.status_moveTo hs.apart hplace, countP_moves_moveTo]
    congr 1
    · exact countP_set_same h (by simp [Caller.scheduled, Call.isRequest])
    · exact countP_set_same h (by simp [Caller.counted, Call.isRequest])
    · exact countP_set_same h (by simp [Caller.started])
    · exact countP_set_succ h (by simp [Caller.finished]) (by simp [Caller.finished])
  have hbefore : (s.ledger ended).status.state = .running := by
    rw [← hstate, ← Memory.status_toRegistry_of_place hplace]
    rfl
  exact Eq.mpr (congrArg _ hledger) (.finish _ hbefore)

/-- A request that counts itself. -/
theorem ledger_count (hs : s.Placed) (h : s.callers[i]? = some c) {p : Nat}
    (hphase : c.phase = .count p) (index : IndexId) :
    Ledger.Step (s.ledger index)
      ((s.turn i c .record (s.memory.setStatus p
        { s.memory.status p with requests := (s.memory.status p).requests + 1 })).ledger index) := by
  have hc := List.mem_of_getElem? h
  have hplace := hs.places c hc p (by rw [hphase]; rfl)
  have hrequest : c.call.isRequest = true := by simpa [Call.MayBeIn, hphase] using hs.phases c hc
  by_cases hindex : c.call.index = index
  · subst hindex
    have hledger : (s.turn i c .record (s.memory.setStatus p
        { s.memory.status p with requests := (s.memory.status p).requests + 1 })).ledger
          c.call.index =
        { s.ledger c.call.index with
          status := { (s.ledger c.call.index).status with
            requests := (s.ledger c.call.index).status.requests + 1 }
          counted := (s.ledger c.call.index).counted + 1 } := by
      simp only [ledger, turn, Memory.status_setStatus hs.apart hplace,
        Memory.status_toRegistry_of_place hplace]
      congr 1
      · exact countP_set_same h (by simp [Caller.scheduled, Phase.hasScheduled, hphase])
      · exact countP_set_succ h (by simp [Caller.counted, Phase.hasCounted, hphase])
          (by simp [Caller.counted, Phase.hasCounted, hrequest])
      · exact countP_set_same h (by simp [Caller.started, hphase])
      · exact countP_set_same h (by simp [Caller.finished, hphase])
    rw [hledger]
    exact .count _
  · have hstatus := Memory.status_setStatus hs.apart hplace
      { s.memory.status p with requests := (s.memory.status p).requests + 1 } index
    rw [if_neg hindex] at hstatus
    rw [ledger_turn_elsewhere h hindex hstatus rfl]
    exact .stay _

/-- A request that has been counted and records itself changes no ledger. -/
theorem ledger_record (hs : s.Placed) (h : s.callers[i]? = some c) (hphase : c.phase = .record)
    (history : RebuildHistory) (index : IndexId) :
    (s.turn i c (.returned true) { s.memory with history }).ledger index = s.ledger index := by
  have hrequest : c.call.isRequest = true := by
    simpa [Call.MayBeIn, hphase] using hs.phases c (List.mem_of_getElem? h)
  have hstart : c.call ≠ .start index := by
    intro he
    simp [he, Call.isRequest] at hrequest
  have hfinish : c.call ≠ .finish index := by
    intro he
    simp [he, Call.isRequest] at hrequest
  simp only [ledger, turn]
  congr 1
  · exact countP_set_same h (by simp [Caller.scheduled, Phase.hasScheduled, hphase])
  · exact countP_set_same h (by simp [Caller.counted, Phase.hasCounted, hphase])
  · exact countP_set_same h (by simp [Caller.started, hstart])
  · exact countP_set_same h (by simp [Caller.finished, hfinish])

/-- What one access does to the ledger of an index. -/
theorem ledger_step (hs : s.Placed) (h : s.callers[i]? = some c) (fails : Bool) (index : IndexId) :
    Ledger.Step (s.ledger index) ((s.advance i fails).ledger index) := by
  have hc := List.mem_of_getElem? h
  rw [advance_eq h]
  obtain ⟨call, phase⟩ := c
  have hquiet : ∀ (next : Phase) (memory : Memory), phase.hasScheduled = false →
      next.hasScheduled = false →
      memory.toRegistry.status index = s.memory.toRegistry.status index →
      memory.moves = s.memory.moves →
      Ledger.Step (s.ledger index) ((s.turn i ⟨call, phase⟩ next memory).ledger index) := by
    intro next memory hbefore hafter hstatus hmoves
    rw [ledger_turn_quiet h hbefore hafter hstatus hmoves]
    exact .stay _
  have hat : ∀ p, (call.at p).hasScheduled = false := by
    intro p
    cases call <;> rfl
  have hseen : ∀ p state, (seen p state).hasScheduled = false := by
    intro p state
    unfold seen
    split <;> rfl
  cases phase with
  | lookUp =>
    cases hfound : s.memory.table[call.index]? with
    | some p =>
      simp only [Caller.access, hfound]
      exact hquiet _ _ rfl (hat _) rfl rfl
    | none =>
      simp only [Caller.access, hfound]
      exact hquiet _ _ rfl rfl rfl rfl
  | create =>
    exact hquiet _ _ rfl (hat _) (Memory.status_place hs.apart _ _) (Memory.moves_place _ _)
  | load p => exact hquiet _ _ rfl (hseen _ _) rfl rfl
  | exchange p expected =>
    cases fails with
    | true => exact hquiet _ _ rfl (hseen _ _) rfl rfl
    | false =>
      obtain ⟨hstate, he⟩ | he :=
        compareExchange_cases call.index p expected .required s.memory
      · simp only [Caller.access, he, Bool.false_eq_true, if_false]
        exact ledger_schedule hs h rfl hstate index
      · simp only [Caller.access, he, Bool.false_eq_true, if_false]
        exact hquiet _ _ rfl (hseen _ _) rfl rfl
  | transit p =>
    cases call with
    | request _ _ => exact absurd (hs.phases _ hc) (by simp [Call.MayBeIn, Call.isRequest])
    | start claimed =>
      obtain ⟨hstate, he⟩ | he := compareExchange_cases claimed p .required .running s.memory
      · simp only [Caller.access, he]
        exact ledger_start hs h hstate index
      · simp only [Caller.access, he]
        exact hquiet _ _ rfl rfl rfl rfl
    | finish ended =>
      obtain ⟨hstate, he⟩ | he := compareExchange_cases ended p .running .ok s.memory
      · simp only [Caller.access, he]
        exact ledger_finish hs h hstate index
      · simp only [Caller.access, he]
        exact hquiet _ _ rfl rfl rfl rfl
  | count p => exact ledger_count hs h rfl index
  | record =>
    cases call with
    | request asked cause =>
      have hsame := ledger_record hs h rfl (s.memory.history.record asked cause) index
      exact Eq.mpr (congrArg _ hsame) (.stay _)
    | start _ => exact absurd (hs.phases _ hc) (by simp [Call.MayBeIn, Call.isRequest])
    | finish _ => exact absurd (hs.phases _ hc) (by simp [Call.MayBeIn, Call.isRequest])
  | returned answer =>
    have hsame : (s.turn i ⟨call, .returned answer⟩ (.returned answer) s.memory).ledger index =
        s.ledger index := by
      simp only [ledger, turn]
      congr 1 <;> exact countP_set_same h rfl
    exact Eq.mpr (congrArg _ hsame) (.stay _)

/-! ## Runs -/

theorem ledger_arrive (s : Contention) (call : Call) (index : IndexId) :
    (s.arrive call).ledger index = s.ledger index := by
  simp [ledger, arrive, Caller.scheduled, Caller.counted, Caller.started, Caller.finished,
    Phase.hasScheduled, Phase.hasCounted]

theorem Placed.arrive (hs : s.Placed) (call : Call) : (s.arrive call).Placed where
  apart := hs.apart
  places c hc p hp := by
    obtain hc | hc := List.mem_append.mp hc
    · exact hs.places c hc p hp
    · obtain rfl := List.mem_singleton.mp hc
      cases hp
  phases c hc := by
    obtain hc | hc := List.mem_append.mp hc
    · exact hs.phases c hc
    · obtain rfl := List.mem_singleton.mp hc
      trivial

/-- One step keeps every call at its place and makes an entry into each ledger. -/
theorem Placed.step (hs : s.Placed) (h : Step s t) :
    t.Placed ∧ ∀ index, Ledger.Step (s.ledger index) (t.ledger index) := by
  cases h with
  | arrive call =>
    refine ⟨hs.arrive call, fun index => ?_⟩
    rw [ledger_arrive]
    exact .stay _
  | advance i fails hi =>
    exact ⟨hs.advance i fails, ledger_step hs (List.getElem?_eq_getElem hi) fails⟩

/-- A registry that has seen no index and no call. -/
def blank (limit : Nat) : Contention := ⟨.ofRegistry (.empty limit), []⟩

theorem memory_blank (limit : Nat) : (blank limit).memory = ⟨∅, [], .empty limit, []⟩ := by
  simp only [blank, Memory.ofRegistry, RebuildRegistry.empty]
  rfl

theorem placed_blank (limit : Nat) : (blank limit).Placed where
  apart := by
    rw [memory_blank]
    exact ⟨fun _ _ h => by simp at h, fun _ _ _ h => by simp at h⟩
  places := nofun
  phases := nofun

theorem balanced_blank (limit : Nat) (index : IndexId) :
    ((blank limit).ledger index).Balanced := by
  have hledger : (blank limit).ledger index = ⟨.initial, 0, 0, 0, 0, 0⟩ := by
    simp only [ledger, memory_blank]
    rfl
  rw [hledger]
  exact ⟨rfl, rfl, Nat.le_refl _, rfl⟩

/-- What holds of every state that can be reached. -/
theorem placed_of_reachable {limit : Nat} (h : Relation.ReflTransGen Step (blank limit) s) :
    s.Placed ∧ ∀ index, (s.ledger index).Balanced := by
  induction h with
  | refl => exact ⟨placed_blank limit, balanced_blank limit⟩
  | tail _ hstep ih =>
    obtain ⟨hplaced, hledgers⟩ := ih.1.step hstep
    exact ⟨hplaced, fun index => (ih.2 index).step (hledgers index)⟩

/-- A status stays at its place, whatever other callers create. -/
theorem table_of_reachable (hs : s.Placed) (h : Relation.ReflTransGen Step s t) (index : IndexId)
    (p : Nat) (hp : s.memory.table[index]? = some p) : t.memory.table[index]? = some p := by
  have hboth : t.Placed ∧ t.memory.table[index]? = some p := by
    induction h with
    | refl => exact ⟨hs, hp⟩
    | tail _ hstep ih =>
      refine ⟨(ih.1.step hstep).1, ?_⟩
      cases hstep with
      | arrive call => exact ih.2
      | advance i fails hi =>
        have hc := List.getElem?_eq_getElem hi
        have hmem := List.mem_of_getElem? hc
        rw [advance_eq hc]
        exact (keeps_access ih.1.apart (ih.1.places _ hmem) (ih.1.phases _ hmem) fails).table
          index p ih.2
  exact hboth.2

/-! ### The callers that have arrived since -/

/-- A request that has scheduled a rebuild goes on having done so. -/
theorem scheduled_access (c : Caller) (index : IndexId) (fails : Bool) (m : Memory)
    (h : c.scheduled index = true) :
    Caller.scheduled index { c with phase := (c.access fails m).1 } = true := by
  obtain ⟨call, phase⟩ := c
  simp only [Caller.scheduled, Bool.and_eq_true, decide_eq_true_eq] at h ⊢
  refine ⟨h.1, ?_⟩
  cases phase with
  | lookUp => cases h.2
  | create => cases h.2
  | load p => cases h.2
  | exchange p expected => cases h.2
  | transit p => cases h.2
  | count p => rfl
  | record => cases call <;> rfl
  | returned answer => exact h.2

theorem countP_set_le {α : Type} {l : List α} {i : Nat} {a b : α} {p : α → Bool}
    (h : l[i]? = some a) (hp : p a = true → p b = true) :
    l.countP p ≤ (l.set i b).countP p := by
  cases ha : p a with
  | true => exact Nat.le_of_eq (countP_set_same h ((hp ha).trans ha.symm)).symm
  | false =>
    cases hb : p b with
    | true => exact (countP_set_succ h ha hb) ▸ Nat.le_succ _
    | false => exact Nat.le_of_eq (countP_set_same h (hb.trans ha.symm)).symm

/-- The callers of a later state are those of the state, of whom no fewer have scheduled a rebuild,
and those who have arrived since. -/
theorem callers_of_reachable (h : Relation.ReflTransGen Step s t) (index : IndexId) :
    ∃ kept more, t.callers = kept ++ more ∧ kept.length = s.callers.length ∧
      s.callers.countP (·.scheduled index) ≤ kept.countP (·.scheduled index) := by
  induction h with
  | refl => exact ⟨s.callers, [], by simp, rfl, Nat.le_refl _⟩
  | tail _ hstep ih =>
    obtain ⟨kept, more, hcallers, hlength, hcount⟩ := ih
    cases hstep with
    | arrive call =>
      refine ⟨kept, more ++ [⟨call, .lookUp⟩], ?_, hlength, hcount⟩
      simp [arrive, hcallers]
    | advance i fails hi =>
      obtain ⟨c, hc⟩ : ∃ c, (_ : List Caller)[i]? = some c := ⟨_, List.getElem?_eq_getElem hi⟩
      rw [advance_eq hc]
      simp only [turn, hcallers]
      obtain hkept | hmore := Nat.lt_or_ge i kept.length
      · rw [hcallers, List.getElem?_append_left hkept] at hc
        rw [List.set_append_left _ _ hkept]
        exact ⟨_, more, rfl, by simpa using hlength,
          Nat.le_trans hcount (countP_set_le hc (scheduled_access c index fails _))⟩
      · rw [List.set_append_right _ _ hmore]
        exact ⟨kept, _, rfl, hlength, hcount⟩

/-! ### The history -/

/-- A request that has not scheduled a rebuild before goes on without an answer or with the answer
that it did not; only the one that has recorded itself answers that it did. -/
theorem answered_access (hphase : c.phase ≠ .record) (fails : Bool) (m : Memory) :
    Caller.answered { c with phase := (c.access fails m).1 } = c.answered := by
  obtain ⟨call, phase⟩ := c
  have hseen : ∀ p state, seen p state ≠ .returned true := by
    intro p state
    unfold seen
    split <;> simp
  cases call with
  | start index => rfl
  | finish index => rfl
  | request index cause =>
    cases phase with
    | lookUp =>
      simp only [Caller.access]
      split <;> rfl
    | create => rfl
    | load p => simp [Caller.answered, Caller.access, hseen]
    | exchange p expected =>
      cases fails with
      | true => simp [Caller.answered, Caller.access, hseen]
      | false =>
        obtain ⟨-, h⟩ | h := compareExchange_cases index p expected .required m
        · simp [Caller.answered, Caller.access, Call.index, h]
        · simp [Caller.answered, Caller.access, Call.index, h, hseen]
    | transit p => rfl
    | count p => rfl
    | record => exact absurd rfl hphase
    | returned answer => rfl

theorem history_access (hphase : c.phase ≠ .record) (fails : Bool) (m : Memory) :
    (c.access fails m).2.history = m.history := by
  obtain ⟨call, phase⟩ := c
  have hexchange : ∀ index p expected next,
      (compareExchange index p expected next m).2.history = m.history := by
    intro index p expected next
    unfold compareExchange
    split <;> rfl
  cases phase with
  | lookUp =>
    simp only [Caller.access]
    split <;> rfl
  | create => exact Memory.history_place m _
  | load p => rfl
  | exchange p expected =>
    cases fails with
    | true => rfl
    | false =>
      obtain ⟨-, h⟩ | h := compareExchange_cases call.index p expected .required m
      · simp only [Caller.access, h]
        rfl
      · simp only [Caller.access, h]
        rfl
  | transit p =>
    cases call with
    | request index cause => rfl
    | start index => exact hexchange index p .required .running
    | finish index => exact hexchange index p .running .ok
  | count p => rfl
  | record => exact absurd rfl hphase
  | returned answer => rfl

theorem size_record (h : RebuildHistory) (index : IndexId) (cause : RebuildCause) {n : Nat}
    (hpos : 0 < h.limit) (hsize : h.size = min h.limit n) :
    (h.record index cause).size = min h.limit (n + 1) := by
  simp only [RebuildHistory.size, RebuildHistory.record] at *
  split <;> simp only [List.length_append, List.length_drop, List.length_singleton] <;> omega

/-- The history holds as many of the requests that answered as fit. -/
def Recorded (limit : Nat) (s : Contention) : Prop :=
  s.memory.history.limit = max limit 1 ∧
    s.memory.history.size = min (max limit 1) (s.callers.countP Caller.answered)

theorem Recorded.step {limit : Nat} (hr : Recorded limit s) (hs : s.Placed) (h : Step s t) :
    Recorded limit t := by
  cases h with
  | arrive call =>
    refine ⟨hr.1, hr.2.trans ?_⟩
    simp [arrive, Caller.answered]
  | advance i fails hi =>
    have hc := List.getElem?_eq_getElem hi
    have hphases := hs.phases _ (List.mem_of_getElem? hc)
    rw [advance_eq hc]
    generalize s.callers[i] = c at hc hphases
    by_cases hphase : c.phase = .record
    · obtain ⟨call, phase⟩ := c
      obtain rfl : phase = .record := hphase
      cases call with
      | start index => cases hphases
      | finish index => cases hphases
      | request index cause =>
        have hone : (s.callers.set i ⟨.request index cause, .returned true⟩).countP
            Caller.answered = s.callers.countP Caller.answered + 1 :=
          countP_set_succ hc rfl rfl
        have hpos : 0 < s.memory.history.limit := by
          rw [hr.1]
          omega
        refine ⟨hr.1, ?_⟩
        have hsize := size_record s.memory.history index cause hpos (hr.1 ▸ hr.2)
        rw [hr.1] at hsize
        exact hone ▸ hsize
    · refine ⟨(history_access hphase fails s.memory) ▸ hr.1, ?_⟩
      have hsame := countP_set_same hc (answered_access hphase fails s.memory)
      simp only [turn, history_access hphase, hsame]
      exact hr.2

theorem recorded_of_reachable {limit : Nat} (h : Relation.ReflTransGen Step (blank limit) s) :
    Recorded limit s := by
  induction h with
  | refl =>
    rw [Recorded, memory_blank]
    exact ⟨rfl, by simp [RebuildHistory.empty, RebuildHistory.size, blank]⟩
  | tail hreach hstep ih => exact ih.step (placed_of_reachable hreach).1 hstep

/-! ### What follows -/

/-- Of the requests that arrive while no rebuild of the index is claimed, at most one answers that
it scheduled a rebuild, and the state moves to scheduled at most once. -/
theorem one_between_starts {limit : Nat} (hs : Relation.ReflTransGen Step (blank limit) s)
    (h : Relation.ReflTransGen Step s t) (index : IndexId)
    (hstarts : t.callers.countP (·.started index) = s.callers.countP (·.started index)) :
    t.memory.moves.countP (·.schedules index) ≤ s.memory.moves.countP (·.schedules index) + 1 ∧
      (t.callers.drop s.callers.length).countP (·.requested index) ≤ 1 := by
  have hbefore := (placed_of_reachable hs).2 index
  have hafter := (placed_of_reachable (hs.trans h)).2 index
  obtain ⟨kept, more, hcallers, hlength, hkept⟩ := callers_of_reachable h index
  have hfew : t.callers.countP (·.scheduled index) ≤ s.callers.countP (·.scheduled index) + 1 := by
    have hb : s.callers.countP (·.scheduled index) = s.callers.countP (·.started index) + _ :=
      hbefore.starts
    have ha : t.callers.countP (·.scheduled index) = t.callers.countP (·.started index) + _ :=
      hafter.starts
    have hone : (if (t.ledger index).status.state = .required then 1 else 0) ≤ 1 := by
      split <;> omega
    omega
  refine ⟨?_, ?_⟩
  · have hb : s.memory.moves.countP (·.schedules index) = _ := hbefore.moves
    have ha : t.memory.moves.countP (·.schedules index) = _ := hafter.moves
    rw [ha, hb]
    exact hfew
  · have hdrop : t.callers.drop s.callers.length = more := by
      rw [hcallers, ← hlength, List.drop_left]
    have hrequested : more.countP (·.requested index) ≤ more.countP (·.scheduled index) := by
      refine List.countP_mono_left fun c _ hc => ?_
      simp only [Caller.requested, Bool.and_eq_true, decide_eq_true_eq] at hc
      simp [Caller.scheduled, hc.1.1, hc.1.2, hc.2, Phase.hasScheduled]
    rw [hcallers, List.countP_append] at hfew
    rw [hdrop]
    omega

/-- For every interleaving of the accesses of requests, starts and finishes of any indices, in
every state and for every index: the moves to scheduled are the starts, and one more exactly if the
index is scheduled; there are no more finishes than starts; between two starts the state moves to
scheduled at most once, and at most one of the requests made meanwhile answers that it scheduled a
rebuild; a status stays at its place, which no other index has and at which every call for the
index works; and when every request has returned, the registry has counted those for the index
that answered that they scheduled a rebuild, in 64 bits, and the history holds as many of those for
all indices as its limit, which is at least one, admits. -/
theorem accounts_balance {limit : Nat} (hs : Relation.ReflTransGen Step (blank limit) s)
    (index : IndexId) :
    s.memory.moves.countP (·.schedules index) =
        s.callers.countP (·.started index) +
          (if s.memory.toRegistry.state index = .required then 1 else 0) ∧
      s.callers.countP (·.finished index) ≤ s.callers.countP (·.started index) ∧
      (∀ t, Relation.ReflTransGen Step s t →
        t.callers.countP (·.started index) = s.callers.countP (·.started index) →
          t.memory.moves.countP (·.schedules index) ≤
              s.memory.moves.countP (·.schedules index) + 1 ∧
            (t.callers.drop s.callers.length).countP (·.requested index) ≤ 1) ∧
      (∀ place, s.memory.table[index]? = some place →
        (∀ t, Relation.ReflTransGen Step s t → t.memory.table[index]? = some place) ∧
          ∀ other, s.memory.table[other]? = some place → other = index) ∧
      (∀ c ∈ s.callers, c.call.index = index → ∀ place, c.phase.place? = some place →
        s.memory.table[index]? = some place) ∧
      ((∀ c ∈ s.callers, c.call.isRequest = true → hasReturned c = true) →
        (s.memory.toRegistry.requestCount index).toNat =
            s.callers.countP (·.requested index) % UInt64.size ∧
          s.memory.history.size = min (max limit 1) (s.callers.countP Caller.answered)) := by
  obtain ⟨hplaced, hbalanced⟩ := placed_of_reachable hs
  obtain ⟨hmoves, hstarts, hfinishes, hcounts⟩ := hbalanced index
  refine ⟨hmoves.trans hstarts, Nat.le_trans (Nat.le_add_right _ _) hfinishes, ?_, ?_, ?_, ?_⟩
  · exact fun t h heq => one_between_starts hs h index heq
  · refine fun place hplace => ⟨fun t h => table_of_reachable hplaced h index place hplace, ?_⟩
    exact fun other hother => hplaced.apart.inj other index place hother hplace
  · exact fun c hc hindex place hplace => hindex ▸ hplaced.places c hc place hplace
  · intro hreturned
    have hsame : s.callers.countP (·.counted index) = s.callers.countP (·.requested index) := by
      refine List.countP_congr fun c hc => ?_
      cases hrequest : c.call.isRequest with
      | false => simp [Caller.counted, Caller.requested, hrequest]
      | true =>
        have hr := hreturned c hc hrequest
        unfold hasReturned at hr
        split at hr
        · next answer hphase =>
          simp [Caller.counted, Caller.requested, hrequest, hphase, Phase.hasCounted]
        · cases hr
    refine ⟨?_, (recorded_of_reachable hs).2⟩
    have hcount : s.memory.toRegistry.requestCount index =
        UInt64.ofNat (s.callers.countP (·.requested index)) := hsame ▸ hcounts
    simp [hcount]

/-- The state after the callers have taken turns in a given order. -/
def turns (s : Contention) (order : List (Nat × Bool)) : Contention :=
  order.foldl (fun s step => s.advance step.1 step.2) s

theorem reaches_turns (s : Contention) (order : List (Nat × Bool))
    (h : ∀ step ∈ order, step.1 < s.callers.length) :
    Relation.ReflTransGen Step s (s.turns order) := by
  induction order generalizing s with
  | nil => exact .refl
  | cons step order ih =>
    have hstep : Step s (s.advance step.1 step.2) :=
      .advance s step.1 step.2 (h step List.mem_cons_self)
    have hlength : (s.advance step.1 step.2).callers.length = s.callers.length := by
      unfold advance
      split <;> simp
    refine (Relation.ReflTransGen.single hstep).trans (ih _ fun other ho => ?_)
    rw [hlength]
    exact h other (List.mem_cons_of_mem _ ho)

/-- The index that two requests are made for at once. -/
def contended : IndexId := ⟨"words"⟩

/-- Two requests that find no status, create it and read it at once.  The exchange of the first one
fails for no reason, then the second one schedules the rebuild, which a start claims. -/
def sampleRace : Contention :=
  ((((blank 64).arrive (.request contended ⟨"one"⟩)).arrive
    (.request contended ⟨"two"⟩)).arrive (.start contended)).turns
      [(0, false), (1, false), (0, false), (1, false), (0, false), (1, false), (0, true),
        (1, false), (0, false), (1, false), (1, false), (2, false), (2, false)]

theorem reaches_sampleRace : Relation.ReflTransGen Step (blank 64) sampleRace := by
  have harrive := ((Relation.ReflTransGen.single
    (Step.arrive (blank 64) (.request contended ⟨"one"⟩))).tail
    (.arrive _ (.request contended ⟨"two"⟩))).tail (.arrive _ (.start contended))
  exact harrive.trans (reaches_turns _ _ (by decide))

theorem accounts_balance_sampleRace :
    sampleRace.memory.moves.countP (·.schedules contended) = 1 ∧
      (sampleRace.memory.toRegistry.requestCount contended).toNat = 1 ∧
      sampleRace.memory.history.size = 1 := by
  have h := accounts_balance reaches_sampleRace contended
  have hcounts := h.2.2.2.2.2 (by decide)
  exact ⟨h.1.trans (by decide), hcounts.1.trans (by decide), hcounts.2.trans (by decide)⟩

end Contention

end FileIndexing.Rebuild
