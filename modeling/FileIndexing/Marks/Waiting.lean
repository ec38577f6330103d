import FileIndexing.Marks.Table

/-!
# Waiting for marks

The mark table at the grain of the mutex that protects it and of the one condition on which callers
wait for a release.  A call to take a mark that finds its pair marked parks and lets go of the
mutex in one step.  A release first removes the mark inside the mutex and, after leaving it, wakes
everybody who is parked, whatever pair they wait for; a parked call may also wake for no reason.
Whoever wakes has to enter the mutex and look again.

`Monitor.Step` is the relation between a state and the states that one step can lead to.  The live
guards of a state are those that callers own, those about to be handed to them and those whose drop
has not removed the mark yet.
-/

namespace FileIndexing.Marks

/-- What a call is for. -/
inductive Purpose where
  /-- To take the mark, waiting for it as long as it takes. -/
  | take
  /-- To take the mark unless it is held. -/
  | tryTake
  /-- To drop a guard. -/
  | drop
  deriving DecidableEq, Repr

/-- How far a call has come. -/
inductive Phase where
  /-- About to enter the mutex. -/
  | outside
  /-- In the mutex, about to look at the table. -/
  | inside
  /-- Parked until it is woken. -/
  | parked
  /-- In the mutex, about to leave it with an answer. -/
  | leaving (answer : Bool)
  /-- Out of the mutex, about to wake everybody who is parked. -/
  | notifying
  /-- Done. -/
  | returned (answer : Bool)
  deriving DecidableEq, Repr

/-- A call on the table. -/
structure Call where
  purpose : Purpose
  mark : WriteMark
  phase : Phase
  deriving DecidableEq, Repr

/-- The live guard that a call is in charge of, if any. -/
def Call.guard? (c : Call) : Option WriteMark :=
  match c.purpose, c.phase with
  | .take, .leaving true => some c.mark
  | .tryTake, .leaving true => some c.mark
  | .drop, .outside => some c.mark
  | .drop, .inside => some c.mark
  | _, _ => none

/-- A call that is parked wakes up. -/
def Call.wake (c : Call) : Call := if c.phase = .parked then { c with phase := .outside } else c

/-- The table, who is in its mutex, the guards that callers own, and the calls made so far. -/
structure Monitor where
  table : MarkTable
  inMutex : Option Nat
  owned : List WriteMark
  calls : List Call

namespace Monitor

/-- The state with the given marks held and owned. -/
def ofTable (table : MarkTable) : Monitor := ⟨table, none, table.held, []⟩

/-- All live guards. -/
def liveGuards (s : Monitor) : List WriteMark := s.owned ++ s.calls.filterMap Call.guard?

/-- A new call to take a mark. -/
def arrive (s : Monitor) (mark : WriteMark) (waits : Bool) : Monitor :=
  { s with calls := s.calls ++ [⟨if waits then .take else .tryTake, mark, .outside⟩] }

/-- The owner of a guard begins to drop it. -/
def dropGuard (s : Monitor) (mark : WriteMark) : Monitor :=
  { s with owned := s.owned.erase mark, calls := s.calls ++ [⟨.drop, mark, .outside⟩] }

/-- Moves a call to a phase. -/
def setPhase (s : Monitor) (i : Nat) (phase : Phase) : Monitor :=
  { s with calls := s.calls.modify i fun c => { c with phase } }

/-- Everybody who is parked wakes up. -/
def wakeAll (s : Monitor) : Monitor := { s with calls := s.calls.map Call.wake }

/-- What a call does when it looks at the table. -/
def look (s : Monitor) (i : Nat) (c : Call) : Monitor :=
  match c.purpose with
  | .take =>
    if s.table.isMarked c.mark then { s with inMutex := none }.setPhase i .parked
    else { s with table := s.table.take c.mark }.setPhase i (.leaving true)
  | .tryTake =>
    if s.table.isMarked c.mark then s.setPhase i (.leaving false)
    else { s with table := s.table.take c.mark }.setPhase i (.leaving true)
  | .drop => { s with table := s.table.release c.mark }.setPhase i (.leaving true)

/-- What a call does when it leaves the mutex. -/
def leave (s : Monitor) (i : Nat) (c : Call) (answer : Bool) : Monitor :=
  let s := { s with inMutex := none }
  match c.purpose with
  | .drop => s.setPhase i .notifying
  | _ =>
    { s with owned := if answer then c.mark :: s.owned else s.owned }.setPhase i (.returned answer)

/-- The next step of a call, unless it has to wait or has returned. -/
def advance? (s : Monitor) (i : Nat) : Option Monitor :=
  match s.calls[i]? with
  | none => none
  | some c =>
    match c.phase with
    | .outside =>
      if s.inMutex.isNone then some ({ s with inMutex := some i }.setPhase i .inside) else none
    | .inside => some (s.look i c)
    | .parked => none
    | .leaving answer => some (s.leave i c answer)
    | .notifying => some (s.wakeAll.setPhase i (.returned true))
    | .returned _ => none

/-- What one step can lead to. -/
inductive Step : Monitor → Monitor → Prop where
  | arrive (s : Monitor) (mark : WriteMark) (waits : Bool) : Step s (s.arrive mark waits)
  | dropGuard (s : Monitor) (mark : WriteMark) : mark ∈ s.owned → Step s (s.dropGuard mark)
  | advance (s t : Monitor) (i : Nat) : s.advance? i = some t → Step s t
  | wake (s : Monitor) (i : Nat) (c : Call) : s.calls[i]? = some c → c.phase = .parked →
      Step s (s.setPhase i .outside)

/-- The number of calls that are parked. -/
def parkedCount (s : Monitor) : Nat := s.calls.countP (·.phase = .parked)

/-- Lets the calls take turns, each as far as it gets, for a number of rounds at most. -/
def settle : Nat → Monitor → Monitor
  | 0, s => s
  | rounds + 1, s =>
    settle rounds
      ((List.range s.calls.length).foldl (fun s i => (s.advance? i).getD s) s)

/-- The rounds after which all calls have returned or are parked: a call takes four steps between
two parkings, and only one call at a time is in the mutex. -/
def roundsFor (s : Monitor) : Nat := 8 * (s.calls.length + 1)

/-- Drops the guard of a pair and then, until nobody waits for the pair any more, the guard of
whoever got it.  Answers how often somebody got it. -/
def passOn : Nat → WriteMark → Monitor → Nat × Monitor
  | 0, _, s => (0, s)
  | waiters + 1, mark, s =>
    let s := s.dropGuard mark
    let s := s.settle s.roundsFor
    if s.owned.contains mark then
      let (count, s) := passOn waiters mark s
      (count + 1, s)
    else (0, s)

end Monitor

/-- What became of calls that waited for a marked pair. -/
structure HandOff where
  /-- How many were parked before the mark was released. -/
  waiting : Nat
  /-- How many got the mark afterwards. -/
  got : Nat
  table : MarkTable

/-- Lets a number of calls wait for a marked pair, releases the mark, and lets each of them drop
the mark as soon as it got it. -/
def handOff (table : MarkTable) (mark : WriteMark) (waiters : Nat) : HandOff :=
  let s := (List.range waiters).foldl (fun s _ => s.arrive mark true) (Monitor.ofTable table)
  let parked := s.settle s.roundsFor
  let (got, final) := Monitor.passOn (waiters + 1) mark parked
  ⟨parked.parkedCount, got, final.table⟩

end FileIndexing.Marks
