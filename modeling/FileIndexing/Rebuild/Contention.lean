import FileIndexing.Rebuild.Registry

/-!
# The registry under contention

Calls on one registry by many callers at once, at the grain of single accesses to shared memory.
Every status has a place of its own, which a table maps its index to; callers find the place first
and then work on it without the table.  A status comes into being when a caller that did not find
it looks again, now alone, and it is created only if it is still missing then.

A request reads the state of its index and tries to exchange the state it read for the scheduled
one.  The exchange fails if the state has changed meanwhile, and it may fail for no reason; a
caller whose exchange failed goes on with the state that it found.  Counting and recording a
successful request are steps of their own.

`Contention.Step` is the relation between a state and the states that one access can lead to, and
`Contention.settle` lets the callers take turns until all calls have returned.
-/

namespace FileIndexing.Rebuild

/-- A call on the registry. -/
inductive Call where
  | request (index : IndexId) (cause : RebuildCause)
  | start (index : IndexId)
  | finish (index : IndexId)
  deriving DecidableEq, Repr

/-- The index a call is about. -/
def Call.index : Call → IndexId
  | .request index _ => index
  | .start index => index
  | .finish index => index

/-- How far a call has come. -/
inductive Phase where
  /-- About to look for the place of the status. -/
  | lookUp
  /-- About to look again, alone, and to create the status if it is missing. -/
  | create
  /-- About to read the state. -/
  | load (place : Nat)
  /-- About to exchange the expected state for the scheduled one. -/
  | exchange (place : Nat) (expected : RebuildState)
  /-- About to claim or to end a rebuild. -/
  | transit (place : Nat)
  /-- About to count a request that scheduled a rebuild. -/
  | count (place : Nat)
  /-- About to put a request that scheduled a rebuild into the history. -/
  | record
  /-- Done. -/
  | returned (answer : Bool)
  deriving DecidableEq, Repr

/-- A call and how far it has come. -/
structure Caller where
  call : Call
  phase : Phase
  deriving DecidableEq, Repr

/-- A change of the state of an index. -/
structure Move where
  index : IndexId
  before : RebuildState
  after : RebuildState
  deriving DecidableEq, Repr

/-- The registry as laid out in memory. -/
structure Memory where
  table : Std.ExtTreeMap IndexId Nat
  places : List RebuildStatus
  history : RebuildHistory
  /-- The changes of state so far, the latest first. -/
  moves : List Move

namespace Memory

/-- The status at a place. -/
def status (m : Memory) (place : Nat) : RebuildStatus := m.places[place]?.getD .initial

/-- Replaces the status at a place. -/
def setStatus (m : Memory) (place : Nat) (status : RebuildStatus) : Memory :=
  { m with places := m.places.set place status }

/-- Changes the state of an index at its place. -/
def moveTo (m : Memory) (index : IndexId) (place : Nat) (state : RebuildState) : Memory :=
  let before := m.status place
  { m.setStatus place { before with state } with
    moves := ⟨index, before.state, state⟩ :: m.moves }

/-- The place of the status of an index, which is created if it is missing. -/
def place (m : Memory) (index : IndexId) : Nat × Memory :=
  match m.table[index]? with
  | some place => (place, m)
  | none =>
    (m.places.length,
      { m with table := m.table.insert index m.places.length, places := m.places ++ [.initial] })

/-- Lays a registry out in memory. -/
def ofRegistry (r : RebuildRegistry) : Memory :=
  r.statuses.toList.foldl
    (fun m (index, status) =>
      let (place, m) := m.place index
      m.setStatus place status)
    ⟨∅, [], r.history, []⟩

/-- The registry that is laid out in memory. -/
def toRegistry (m : Memory) : RebuildRegistry :=
  ⟨m.table.map fun _ place => m.status place, m.history⟩

end Memory

/-- The phase in which a call works on a place that has been found. -/
def Call.at (call : Call) (place : Nat) : Phase :=
  match call with
  | .request _ _ => .load place
  | _ => .transit place

/-- How a request goes on once it has seen a state. -/
def seen (place : Nat) (state : RebuildState) : Phase :=
  if state = .required then .returned false else .exchange place state

/-- Changes a state to another one if it is the expected one, and answers whether it did. -/
def compareExchange (index : IndexId) (place : Nat) (expected next : RebuildState) (m : Memory) :
    Bool × Memory :=
  if (m.status place).state = expected then (true, m.moveTo index place next) else (false, m)

/-- One access by a call in a phase.  `fails` makes an exchange that could succeed fail. -/
def Caller.access (c : Caller) (fails : Bool) (m : Memory) : Phase × Memory :=
  match c.phase with
  | .lookUp =>
    match m.table[c.call.index]? with
    | some place => (c.call.at place, m)
    | none => (.create, m)
  | .create =>
    let (place, m) := m.place c.call.index
    (c.call.at place, m)
  | .load place => (seen place (m.status place).state, m)
  | .exchange place expected =>
    if fails then (seen place (m.status place).state, m)
    else
      match compareExchange c.call.index place expected .required m with
      | (true, m) => (.count place, m)
      | (false, m) => (seen place (m.status place).state, m)
  | .transit place =>
    match c.call with
    | .start index =>
      let (answer, m) := compareExchange index place .required .running m
      (.returned answer, m)
    | .finish index =>
      let (answer, m) := compareExchange index place .running .ok m
      (.returned answer, m)
    | .request _ _ => (.returned false, m)
  | .count place =>
    let status := m.status place
    (.record, m.setStatus place { status with requests := status.requests + 1 })
  | .record =>
    match c.call with
    | .request index cause => (.returned true, { m with history := m.history.record index cause })
    | _ => (.returned true, m)
  | .returned answer => (.returned answer, m)

/-- The registry in memory and the calls made on it. -/
structure Contention where
  memory : Memory
  callers : List Caller

namespace Contention

/-- A new call is made. -/
def arrive (s : Contention) (call : Call) : Contention :=
  { s with callers := s.callers ++ [⟨call, .lookUp⟩] }

/-- One access by one of the callers. -/
def advance (s : Contention) (i : Nat) (fails : Bool) : Contention :=
  match s.callers[i]? with
  | none => s
  | some c =>
    let (phase, memory) := c.access fails s.memory
    ⟨memory, s.callers.set i { c with phase }⟩

/-- What one access, or the arrival of a call, can lead to. -/
inductive Step : Contention → Contention → Prop where
  | arrive (s : Contention) (call : Call) : Step s (s.arrive call)
  | advance (s : Contention) (i : Nat) (fails : Bool) : i < s.callers.length →
      Step s (s.advance i fails)

/-- Whether a call has returned. -/
def hasReturned (c : Caller) : Bool :=
  match c.phase with
  | .returned _ => true
  | _ => false

/-- Lets every caller take a step. -/
def round (s : Contention) : Contention :=
  (List.range s.callers.length).foldl (fun s i => s.advance i false) s

/-- Lets the callers take turns until all have returned, for a number of rounds at most. -/
def settle : Nat → Contention → Contention
  | 0, s => s
  | rounds + 1, s => if s.callers.all hasReturned then s else settle rounds s.round

/-- The rounds after which every caller has returned, if exchanges fail only for a reason: a failed
exchange has met the scheduled state or another caller's success. -/
def roundsFor (s : Contention) : Nat := 8 + s.callers.length

/-- The answers of the calls that have returned. -/
def answers (s : Contention) : List Bool :=
  s.callers.filterMap fun c =>
    match c.phase with
    | .returned answer => some answer
    | _ => none

end Contention

/-- Makes calls on a registry at once and answers what they returned. -/
def callAtOnce (r : RebuildRegistry) (calls : List Call) : List Bool × RebuildRegistry :=
  let start : Contention := ⟨.ofRegistry r, calls.map fun call => ⟨call, .lookUp⟩⟩
  let final := start.settle start.roundsFor
  (final.answers, final.memory.toRegistry)

end FileIndexing.Rebuild
