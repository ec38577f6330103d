import FileIndexing.Rehearsal.Step
import FileIndexing.Service.Workers

/-!
# The stage of a rehearsal

What a rehearsal shares with its service, and the oracle and the handle by which its service works.
Both play their scripts and otherwise do the usual work: the oracle asks the registry of the
service, and an index works on its storage.
-/

namespace FileIndexing.Rehearsal

/-- What a rehearsal shares with its service. -/
structure Stage where
  /-- Whether the oracle plays a script, instead of only asking the registry of the service. -/
  scripted : Bool
  oracleScript : OracleScript
  arrivals : Nat
  gateOpen : Bool
  slots : List (String × Slot)
  /-- The entries of the rebuilds that are going on, the innermost first, each in reverse. -/
  inner : List (List Entry)
  /-- How many events have been shown by entries. -/
  shown : Nat

/-- The stage before anything has happened. -/
def Stage.initial (scripted : Bool) : Stage := ⟨scripted, .empty, 0, false, [], [], 0⟩

/-- The state of the service in a rehearsal. -/
abbrev State := ServiceState Store Stage

/-- What a thread of a rehearsal does. -/
abbrev Act (α : Type) := ServiceAction Store Stage α

/-- Changes the stage and answers what the change says. -/
def onStage {α : Type} (f : Stage → α × Stage) : Act α :=
  .access fun s =>
    let (a, client) := f s.client
    (a, { s with client })

/-! ## Oracle -/

/-- Plays a reply, or does the usual work. -/
def playReply {α : Type} (take : Stage → Reply α × Stage) (usual : Act α) : Act α := do
  match ← onStage take with
  | .answer value => pure value
  | .pass => usual
  | .panic => Action.panic (.text "oracle panic")

/-- The oracle that plays the script of the stage. -/
def scriptedOracle : Oracle Store Stage where
  state index :=
    playReply
      (fun t => (OracleScript.next t.oracleScript.states,
        { t with oracleScript := { t.oracleScript with states := t.oracleScript.states.drop 1 } }))
      (Oracle.registry.state index)
  request index cause :=
    playReply
      (fun t => (OracleScript.next t.oracleScript.request,
        { t with oracleScript := { t.oracleScript with request := t.oracleScript.request.drop 1 } }))
      (Oracle.registry.request index cause)
  start index :=
    playReply
      (fun t => (OracleScript.next t.oracleScript.start,
        { t with oracleScript := { t.oracleScript with start := t.oracleScript.start.drop 1 } }))
      (Oracle.registry.start index)
  finish index :=
    playReply
      (fun t => (OracleScript.next t.oracleScript.finish,
        { t with oracleScript := { t.oracleScript with finish := t.oracleScript.finish.drop 1 } }))
      (Oracle.registry.finish index)
  requestCount := Oracle.registry.requestCount

/-- The oracle of a rehearsal. -/
def oracle (scripted : Bool) : Oracle Store Stage := if scripted then scriptedOracle else .registry

/-! ## Scripted indices -/

/-- Works on a scripted index. -/
def onScripted {α : Type} [Inhabited α] (index : IndexId) (f : ScriptedIndex → α × ScriptedIndex) :
    Act α :=
  .access fun s =>
    match s.stores[index]? with
    | some (.scripted store) =>
      let (a, store) := f store
      (a, { s with stores := s.stores.insert index (.scripted store) })
    | _ => (default, s)

/-- Plays a hook of a scripted index. -/
def playHook (oracle : Oracle Store Stage) (index : IndexId) : Hook → Act Unit
  | .request => do
    let _ ← oracle.request index ⟨"hook"⟩
  | .start => do
    let _ ← oracle.start index
  | .finish => do
    let _ ← oracle.finish index
  | .gate => do
    onStage fun t => ((), { t with arrivals := t.arrivals + 1 })
    Action.await (fun s => s.client.gateOpen) id
  | .delay => pure ()

instance : Inhabited Behaviour := ⟨.usual⟩

/-- Plays a phase of a scripted index: its hooks, and then its turn. -/
def playPhase {α : Type} (oracle : Oracle Store Stage) (index : IndexId) (input : InputId)
    (phase : Phase) (usual : Option Bool → Act α) : Act α := do
  let behaviour ← onScripted index (·.play phase)
  Action.each (playHook oracle index) behaviour.hooks
  match behaviour.turn with
  | .usual => usual none
  | .error cause => Action.raise cause
  | .mapping message => Action.raise (.mapping (.plain index input message))
  | .panic payload => Action.panic payload
  | .answer value => usual (some value)

/-! ## Handle -/

/-- The indexer of an index in memory, if the index is one. -/
def indexerOf (index : IndexId) : Act (Option IndexerKind) :=
  .read fun s =>
    match s.stores[index]? with
    | some (.memory kind _) => some kind
    | _ => none

/-- Lets an action work on an index in memory. -/
def onMemory {α : Type} (index : IndexId) (a : Action (MemoryIndex String Nat) α) : Act α :=
  ExceptT.mk
    (a.program.focus
      (fun s : State =>
        match s.stores[index]? with
        | some (.memory _ store) => store
        | _ => .empty)
      fun s store =>
        match s.stores[index]? with
        | some (.memory kind _) =>
          { s with stores := s.stores.insert index (.memory kind store) }
        | _ => s)

/-- Prepares an update of a scripted index. -/
def prepareScripted (oracle : Oracle Store Stage) (index : IndexId) (input : InputId)
    (content : Option FileContent) : Act (PreparedUpdate Change) :=
  playPhase oracle index input .prepare fun answer =>
    pure ⟨index, input,
      if answer = some false then .nothing else if content.isSome then .insert else .remove⟩

/-- Applies an update of a scripted index. -/
def applyScripted (oracle : Oracle Store Stage) (index : IndexId) (input : InputId)
    (work : ScriptedIndex → Bool × ScriptedIndex) : Act Bool := do
  onScripted index fun s => ((), s.beginApply)
  (playPhase oracle index input .apply fun answer =>
    match answer with
    | some value => pure value
    | none => onScripted index work).ensuring
      (onScripted index fun s => ((), s.endApply))

/-- The handle of a rehearsal. -/
def handle (oracle : Oracle Store Stage) : Handle Store Change Stage where
  prepare index input content := do
    match ← indexerOf index with
    | some kind =>
      let update ← onMemory index ((StoreHandle.memory kind.indexer index).prepare input content)
      pure ⟨update.index, update.input, .replace update.change⟩
    | none => prepareScripted oracle index input content
  apply update :=
    match update.change with
    | .nothing => pure false
    | .insert => applyScripted oracle update.index update.input (·.insert update.input)
    | .remove => applyScripted oracle update.index update.input (·.remove update.input)
    | .replace data =>
      onMemory update.index
        ((StoreHandle.memory (fun _ => .ok ∅) update.index).apply
          ⟨update.index, update.input, data⟩)
  setIndexed index input := do
    match ← indexerOf index with
    | some kind => onMemory index ((StoreHandle.memory kind.indexer index).setIndexed input)
    | none =>
      playPhase oracle index input .setIndexed fun _ =>
        onScripted index fun s => ((), s.setIndexed input)
  setUnindexed index input := do
    match ← indexerOf index with
    | some kind => onMemory index ((StoreHandle.memory kind.indexer index).setUnindexed input)
    | none =>
      playPhase oracle index input .setUnindexed fun _ =>
        onScripted index fun s => ((), s.setUnindexed input)
  indexingState index input := do
    match ← indexerOf index with
    | some kind => onMemory index ((StoreHandle.memory kind.indexer index).indexingState input)
    | none => onScripted index fun s => (s.state input, s)
  clear index := do
    match ← indexerOf index with
    | some kind => onMemory index (StoreHandle.memory kind.indexer index).clear
    | none =>
      playPhase oracle index ⟨0⟩ .clear fun _ =>
        onScripted index fun s => ((), s.clear)

/-- The environment of a rehearsal. -/
def environment (config : Config) (scripted : Bool) : Environment Store Change Stage where
  config := config
  handle := handle (oracle scripted)
  oracle := oracle scripted
  preparationTime := .zero

end FileIndexing.Rehearsal
