import FileIndexing.Rehearsal.Stage

/-!
# Running a rehearsal

Every step is an action of the thread that conducts the rehearsal; `rehearse` runs the whole of it
with the workers of the service at its side and answers one entry for each step.  A panic ends only
the step in which it happens, except inside a rebuild where a step says otherwise.
-/

namespace FileIndexing.Rehearsal

/-- The environment type of rehearsals. -/
abbrev Env := Environment Store Change Stage

/-! ## Entries -/

/-- The events that no entry has shown yet, the oldest first. -/
def unshown (s : State) : List Event := (s.journal.take (s.journal.length - s.client.shown)).reverse

/-- The mapping failures among some events that went to listeners with a tag. -/
def deliveries (events : List Event) : List Delivered :=
  events.filterMap fun event =>
    match event with
    | .delivered (.recording tag _) notice => some ⟨tag, notice⟩
    | _ => none

/-- The log records among some events. -/
def records (events : List Event) : List LogRecord :=
  events.filterMap fun event =>
    match event with
    | .logged record => some record
    | _ => none

/-- Makes the entry of a step, which shows all events that no entry has shown yet. -/
def makeEntry (answer : Answer) : Act Entry :=
  .access fun s =>
    let events := unshown s
    (.mk answer s.modCount s.marks.size (deliveries events) (records events),
      { s with client := { s.client with shown := s.journal.length } })

/-- Begins to collect the entries of a rebuild. -/
def openInner : Act Unit := onStage fun t => ((), { t with inner := [] :: t.inner })

/-- Adds an entry to those of the innermost rebuild. -/
def addInner (entry : Entry) : Act Unit :=
  onStage fun t =>
    match t.inner with
    | entries :: outer => ((), { t with inner := (entry :: entries) :: outer })
    | [] => ((), t)

/-- Ends collecting the entries of the innermost rebuild. -/
def closeInner : Act (List Entry) :=
  onStage fun t =>
    match t.inner with
    | entries :: outer => (entries.reverse, { t with inner := outer })
    | [] => ([], t)

/-! ## Names and slots -/

/-- Looks something up by its name.  A name that nothing is kept under is a panic. -/
def lookUp {α : Type} (find : State → Option α) : Act α := do
  match ← Action.read find with
  | some found => pure found
  | none => Action.panic (.text "no entry found for key")

/-- The handle in a slot, if it holds one. -/
def Slot.handle? : Slot → Option ApplicationHandle
  | .handle h => some h
  | _ => none

/-- Throws away what a slot held. -/
def Slot.discard (slot : Slot) : Act Unit :=
  match slot.handle? with
  | some h => Service.discard h
  | none => pure ()

/-- What a slot holds. -/
def getSlot (name : String) : Act Slot := lookUp fun s => s.client.slots.lookup name

/-- Empties a slot and answers what it held. -/
def takeSlot (name : String) : Act (Option Slot) :=
  onStage fun t => (t.slots.lookup name, { t with slots := t.slots.filter (·.1 != name) })

/-- Puts something into a slot and throws away what it held before. -/
def setSlot (name : String) (slot : Slot) : Act Unit := do
  let before ← takeSlot name
  onStage fun t => ((), { t with slots := (name, slot) :: t.slots })
  match before with
  | some before => before.discard
  | none => pure ()

/-! ## Operations for files -/

/-- Starts the operations for a file. -/
def startItem (env : Env) : FileItem → Act ApplicationHandle
  | .update content input mode => env.updateFile content input mode
  | .remove file input mode => env.removeFile file input mode
  | .apply application => env.apply application

/-- Starts the operations for several files.  If one cannot be started, the handles of those before
it are thrown away. -/
def startItems (env : Env) : List FileItem → Act (List ApplicationHandle)
  | [] => pure []
  | item :: items => do
    let handle ← startItem env item
    match ← (startItems env items).outcome with
    | .ok handles => pure (handle :: handles)
    | .error failure => do
      Service.discard handle
      Action.resume (.error failure)

/-- Waits for the operations for a file. -/
def collectFile (find : Option IndexId) (showPending : Bool) (handle : ApplicationHandle) :
    Act FileAnswer := do
  let result ← Service.wait handle
  pure
    ⟨result, find.map result.outcome?, if showPending then some handle.isPending else none⟩

/-- Starts the operations for a file, waits for them and answers how the wait ended. -/
def performItem (env : Env) (find : Option IndexId) (item : FileItem) :
    Act (Except Failure FileAnswer) := do
  let handle ← startItem env item
  (collectFile find false handle).outcome

/-! ## Steps -/

/-- Runs an action and answers how it ended. -/
def answering {α : Type} (a : Act α) (answer : α → Answer) : Act Answer := do
  match ← a.outcome with
  | .ok value => pure (answer value)
  | .error failure => pure (.failed failure)

/-- Runs an action on a prepared update in a slot. -/
def onUpdate (slot : String) (f : PreparedUpdate Change → Act Answer) : Act Answer := do
  match ← getSlot slot with
  | .update update => f update
  | _ => pure .nothing

/-- Runs an action on an operation in a slot. -/
def onOperation (slot : String) (f : Operation → Act Answer) : Act Answer := do
  match ← getSlot slot with
  | .operation op => f op
  | _ => pure .nothing

/-- Runs an action if an index is registered. -/
def ifRegistered (index : IndexId) (a : Act Answer) : Act Answer := do
  if ← Service.isRegistered index then a else pure .nothing

/-- Looks at an index in memory. -/
def viewMemory (index : IndexId) (f : IndexData String Nat → Answer) : Act Answer := do
  let store ← lookUp fun s => s.stores[index]?.bind Store.memory?
  pure (f store.data)

/-- Changes a scripted index. -/
def changeScripted (index : IndexId) (f : ScriptedIndex → ScriptedIndex) : Act Unit := do
  let _ ← lookUp fun s => s.stores[index]?.bind Store.scripted?
  onScripted index fun store => ((), f store)

/-- What can be seen of an index in memory. -/
def memoryView (index : IndexId) (inputs : List InputId) (keys : List String)
    (d : IndexData String Nat) : MemoryView where
  forward := inputs.filterMap fun input => (d.forward? input).map fun data => (input, data)
  keys := keys.map fun key => (key, d.valuesForKey key)
  inputCount := d.inputCount
  keyCount := d.keyCount
  debugText := d.debugText index

/-- What can be seen of a scripted index. -/
def scriptedView (s : ScriptedIndex) : ScriptedView where
  entries := s.entries.keys
  calls := (Phase.all.map fun phase => (phase, s.calls phase)).filter fun (_, n) => n != 0
  maxInFlight := s.maxInFlight

/-- What can be seen of the storage of an index. -/
def storeView (index : IndexId) (inputs : List InputId) (keys : List String) : Store → StoreView
  | .memory _ store => .memory (memoryView index inputs keys store.data)
  | .scripted store => .scripted (scriptedView store)

/-- What can be seen of an index. -/
def viewIndex (env : Env) (inputs : List InputId) (keys : List String) (index : IndexId) :
    Act IndexView := do
  let state ← env.oracle.state index
  let requests ← env.oracle.requestCount index
  let states ← Action.collect
    (fun input => do pure (input, ← env.indexingState index input)) inputs
  let store ← Action.read fun s => s.stores[index]?
  pure ⟨index, state, requests, states, store.map (storeView index inputs keys)⟩

/-- Waits until a number of arrivals at the gate have happened. -/
def awaitArrivals (n : Nat) : Act Unit := .await (fun s => n ≤ s.client.arrivals) id

/-- Takes the handle out of a slot, waits for it and answers how the wait ended. -/
def collectSlot (find : Option IndexId) (slot : String) : Act (Except Failure FileAnswer) := do
  let held ← getSlot slot
  let _ ← takeSlot slot
  match held with
  | .handle handle => (collectFile find false handle).outcome
  | _ => Action.panic .other

/-- The gate of a prepared update: a fixed answer, or that of the service. -/
def gateOf (env : Env) (gated : Option Bool) (index : IndexId) : Act Bool :=
  match gated with
  | some gated => pure gated
  | none => env.isGated index

/-- Carries out a step that has no inner steps. -/
def performSimple (env : Env) (session : Option IndexId) : Step → Act Answer
  | .register spec =>
    answering (Service.register spec.index spec.store) fun _ => .text "registered"
  | .registered => do pure (.texts ((← Service.registeredIndices).map (·.name)))
  | .hasIndex index => ifRegistered index (pure (.text index.name))
  | .debug => .read fun s => .text (s.debugText env.config)
  | .traces index => pure (.flag (env.config.traces index))
  | .bump => do pure (.number (← Service.increaseModCount))
  | .metrics => .read fun s => .counters s.counters
  | .operate op => do pure (.outcome (← env.execute op))
  | .keep slot op => do
    setSlot slot (.operation op)
    pure (.operation op)
  | .execute slot => onOperation slot fun op => do pure (.outcome (← env.execute op))
  | .succeed slot => onOperation slot fun op => do pure (.flag (← env.execute op).isSuccess)
  | .applyFile item find => do
    let handle ← startItem env item
    answering (collectFile find true handle) .file
  | .sizeOf application => pure (.size application.size)
  | .batch items find => do
    let handles ← startItems env items
    let answers ← Action.collect (fun handle => (collectFile find false handle).outcome) handles
    pure (.files answers)
  | .submit slot item arrivals => do
    let handle ← startItem env item
    match arrivals with
    | some n => awaitArrivals n
    | none => pure ()
    setSlot slot (.handle handle)
    pure (.submitted handle.isPending arrivals.isSome)
  | .openGate slots next find => do
    onStage fun t => ((), { t with gateOpen := true })
    let answers ← Action.collect (collectSlot find) slots
    match next with
    | none => pure (.files answers)
    | some item => do
      let last ← performItem env find item
      pure (.files (answers ++ [last]))
  | .discard slot => do
    match ← takeSlot slot with
    | none => pure (.flag false)
    | some held => do
      held.discard
      pure (.flag true)
  | .race ops => do
    let endings ← Action.collect (fun op => (env.execute op).outcome) ops
    let outcomes ← Action.collect Action.resume endings
    pure (.texts ((outcomes.map Outcome.kind).mergeSort))
  | .gated index => do pure (.flag (← env.isGated index))
  | .state index => do pure (.text (← env.oracle.state index).text)
  | .isOk index => do pure (.flag (← env.oracle.isOk index))
  | .request index cause => do pure (.flag (← env.oracle.request index cause))
  | .start index => do pure (.flag (← env.oracle.start index))
  | .finish index => do pure (.flag (← env.oracle.finish index))
  | .requestCount index => do pure (.number (← env.oracle.requestCount index))
  | .reportError index cause => do
    env.requestRebuildOnError cause index
    pure .nothing
  | .recent =>
    .read fun s => .history (if s.client.scripted then s.registry.history.entries else [])
  | .rebuild _ _ => pure .nothing
  | .fail cause => Action.raise cause
  | .panic message => Action.panic (.text message)
  | .indexFile input content _ =>
    match session with
    | some index => do pure (.flag (← env.indexFile index input content))
    | none => pure .nothing
  | .rebuilding => pure ((session.map fun index => Answer.text index.name).getD .nothing)
  | .indexingState index input => do
    match ← env.indexingState index input with
    | some state => pure (.text state.text)
    | none => pure .nothing
  | .setIndexed index input =>
    ifRegistered index (answering (env.handle.setIndexed index input) fun _ => .nothing)
  | .setUnindexed index input =>
    ifRegistered index (answering (env.handle.setUnindexed index input) fun _ => .nothing)
  | .clear index =>
    ifRegistered index
      (answering (Service.withStructuralLock (env.clearIndex index)) fun _ => .nothing)
  | .prepare slot index input content =>
    ifRegistered index (answering
      (do
        let update ← env.handle.prepare index input content
        setSlot slot (.update update)
        pure update)
      fun update => .text update.debugText)
  | .applyUpdate slot =>
    onUpdate slot fun update => answering (env.applyUpdate .direct update) .flag
  | .runUpdate slot =>
    onUpdate slot fun update => answering (env.runUpdate .direct update) .flag
  | .runGated slot gated =>
    onUpdate slot fun update =>
      answering (env.runUpdateUnless .direct update (gateOf env gated)) fun changed =>
        (changed.map Answer.flag).getD .nothing
  | .query index key =>
    viewMemory index fun d => .values (d.valuesForKey key) (d.inputsForKey key)
  | .forward index input =>
    viewMemory index fun d => ((d.forward? input).map Answer.mapping).getD .nothing
  | .isMarked mark => .read fun s => .flag (s.marks.isMarked mark)
  | .script index behaviours => do
    changeScripted index fun store =>
      behaviours.foldl (fun store (phase, list) => store.script phase list) store
    pure .nothing
  | .seed index inputs => do
    changeScripted index (·.seed inputs)
    pure .nothing
  | .scriptOracle script => do
    onStage fun t => ((), { t with oracleScript := t.oracleScript.append script })
    pure .nothing
  | .addListener listener => do
    let count ← Service.addListener listener
    .read fun s => .listeners count (listenersDebugText s.listeners)
  | .notify notice toNobody => do
    if toNobody then pure (.listeners 0 (listenersDebugText []))
    else
      Service.notify notice
      pure .nothing
  | .dump inputs keys => do
    pure (.dump (← Action.collect (viewIndex env inputs keys) (← Service.registeredIndices)))

/-- Whether a failure of a step inside a rebuild ends the inner steps. -/
def Step.escapes : Step → Bool
  | .fail _ => true
  | .panic _ => true
  | .indexFile _ _ propagate => propagate
  | _ => false

/-- Carries out a step inside a rebuild and adds its entry to those of the rebuild. -/
def performInner (step : Step) (a : Act Answer) : Act Unit := do
  let answer ← if step.escapes then a else answering a id
  addInner (← makeEntry answer)

mutual

/-- Carries out a step; `session` is the index that is being rebuilt, if any. -/
def performStep (env : Env) (session : Option IndexId) : Step → Act Answer
  | .rebuild index steps => do
    openInner
    let run ← (env.rebuildIndex index (performSteps env index steps)).outcome
    pure (.rebuilt run (← closeInner))
  | step => performSimple env session step

/-- Carries out the inner steps of a rebuild. -/
def performSteps (env : Env) (index : IndexId) : List Step → Act Unit
  | [] => pure ()
  | step :: rest => do
    performInner step (performStep env (some index) step)
    performSteps env index rest

end

/-- Carries out a step and makes its entry. -/
def performOuter (env : Env) (step : Step) : Act Entry := do
  makeEntry (← answering (performStep env none step) id)

/-- A rehearsal: the settings of the service, its indices and what is done. -/
structure Plan where
  config : Config
  /-- Whether the oracle plays a script, instead of only asking the registry of the service. -/
  scripted : Bool
  indices : List IndexSpec
  steps : List Step

/-- Registers the indices, adds a listener and hides what has happened so far from the entries. -/
def setUp (indices : List IndexSpec) : Act Unit := do
  Action.each
    (fun spec => do
      let _ ← answering (Service.register spec.index spec.store) fun _ => .nothing)
    indices
  let _ ← Service.addListener (.recording "main" false)
  Action.update fun s => { s with client := { s.client with shown := s.journal.length } }

/-- The program of a rehearsal. -/
def program (env : Env) (plan : Plan) : Act (List Entry) := do
  setUp plan.indices
  Action.collect (performOuter env) plan.steps

/-- How a rehearsal ends. -/
inductive Ending where
  | entries (entries : List Entry)
  | failed (failure : Failure)
  /-- All threads wait for ever. -/
  | stuck

/-- Runs a rehearsal. -/
def rehearse (plan : Plan) : Ending :=
  match plan.config.validate with
  | .error cause => .failed (.error cause)
  | .ok () =>
    let env := environment plan.config plan.scripted
    let workers := (plan.config.effectiveWorkers 1).toNat
    let start : State := .initial plan.config true (.initial plan.scripted)
    match Crew.perform env workers (program env plan).program start with
    | none => .stuck
    | some (.ok entries, _) => .entries entries
    | some (.error failure, _) => .failed failure

end FileIndexing.Rehearsal
