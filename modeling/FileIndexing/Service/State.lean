import FileIndexing.Concurrent.Action
import FileIndexing.Config
import FileIndexing.Metrics
import FileIndexing.Rebuild.Registry
import FileIndexing.Service.Event
import FileIndexing.Service.Locks

/-!
# The shared state of a service

All that the threads of an indexing service share: the storage of the registered indices, the
rebuild states, the marks and locks, the listeners, the counters, the journal and the operations
left to the workers.  `S` is the type of one index's storage and `C` holds whatever the embedding
program shares in addition.
-/

namespace FileIndexing

/-- What became of deferred operations. -/
inductive Delivery where
  | arrived (result : FileApplicationResult)
  /-- The worker ended without a result. -/
  | lost
  deriving Repr

/-- Operations left to the workers.  The caller holds a ticket for each application. -/
structure DeferredWork where
  /-- Applications that no worker has taken yet, the oldest first. -/
  queue : List (Nat × FileApplication)
  nextTicket : Nat
  deliveries : List (Nat × Delivery)
  /-- Tickets that were thrown away. -/
  abandoned : List Nat

namespace DeferredWork

/-- Nothing to do. -/
def empty : DeferredWork := ⟨[], 0, [], []⟩

/-- Adds an application and answers its ticket. -/
def submit (d : DeferredWork) (application : FileApplication) : Nat × DeferredWork :=
  (d.nextTicket,
    { d with queue := d.queue ++ [(d.nextTicket, application)], nextTicket := d.nextTicket + 1 })

/-- What was delivered for a ticket. -/
def delivery? (d : DeferredWork) (ticket : Nat) : Option Delivery := d.deliveries.lookup ticket

/-- Delivers the end of an application, unless its ticket was thrown away.  Tells whether it was
delivered. -/
def deliver (d : DeferredWork) (ticket : Nat) (delivery : Delivery) : Bool × DeferredWork :=
  if d.abandoned.contains ticket then (false, d)
  else (true, { d with deliveries := (ticket, delivery) :: d.deliveries })

/-- Throws a ticket away. -/
def abandon (d : DeferredWork) (ticket : Nat) : DeferredWork :=
  { d with abandoned := ticket :: d.abandoned }

end DeferredWork

/-- The shared state of a service. -/
structure ServiceState (S C : Type) where
  stores : Std.ExtTreeMap IndexId S
  registry : RebuildRegistry
  marks : MarkTable
  locks : IndexLocks
  coordination : Coordination
  listeners : List Listener
  counters : Counters
  modCount : UInt64
  /-- How many runs of rebuilds claimed an index; the next run gets this number. -/
  runs : Nat
  /-- What happened so far, the latest first. -/
  journal : List Event
  deferred : DeferredWork
  client : C

namespace ServiceState

variable {S C : Type}

/-- A service with some indices, in which nothing has happened, and with the listener that every
service has. -/
def ofStores (config : Config) (stores : Std.ExtTreeMap IndexId S) (writersFirst : Bool)
    (client : C) : ServiceState S C where
  stores := stores
  registry := .empty config.historyLimit.toNat
  marks := .empty
  locks := .empty
  coordination := .free writersFirst
  listeners := [.logging]
  counters := .zero
  modCount := 0
  runs := 0
  journal := []
  deferred := .empty
  client := client

/-- A service without indices. -/
def initial (config : Config) (writersFirst : Bool) (client : C) : ServiceState S C :=
  ofStores config ∅ writersFirst client

/-- Adds to the journal. -/
def note (s : ServiceState S C) (event : Event) : ServiceState S C :=
  { s with journal := event :: s.journal }

/-- Whether an index is registered. -/
def isRegistered (s : ServiceState S C) (index : IndexId) : Bool := s.stores.contains index

/-- The ids of all registered indices, in order. -/
def registeredIndices (s : ServiceState S C) : List IndexId := s.stores.keys

/-- Replaces the rebuild states, noting how the state of an index moved. -/
def moveRegistry (s : ServiceState S C) (index : IndexId) (registry : RebuildRegistry) :
    ServiceState S C :=
  let before := s.registry.state index
  let after := registry.state index
  let s := { s with registry }
  if before = after then s else s.note (.moved index before after)

/-- Ends a running rebuild of an index, or notes in which state the index was found instead. -/
def endRebuild (s : ServiceState S C) (index : IndexId) : ServiceState S C :=
  let t := s.moveRegistry index (s.registry.markFinished index)
  if s.registry.canFinish index then t
  else t.note (.finishRefused index (s.registry.state index))

/-- The service in debugging output. -/
def debugText (s : ServiceState S C) (config : Config) : String :=
  let indices := String.intercalate ", " (s.registeredIndices.map IndexId.debugText)
  s!"FileBasedIndex \x7b config: {config.debugText}, indices: [{indices}], " ++
    s!"local_mod_count: {s.modCount}, write_marks: {s.marks.size} \x7d"

end ServiceState

/-- What a thread of a service does. -/
abbrev ServiceAction (S C α : Type) := Action (ServiceState S C) α

end FileIndexing
