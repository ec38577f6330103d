import FileIndexing.Proofs.Alone
import FileIndexing.Proofs.Session

/-!
# Rebuilding an index and updating it file by file

An index in memory comes to hold files in two ways: by updates, one for every file, and by a rebuild
whose program puts the files back.  The two ways are written apart from each other and differ in
what they look at, but come to the same.

* `IndexData.putAll` puts files into data one after the other; both ways are compared with it.
* `performAll_updates` says that updates do so, and `Filling.Puts.run` that a session does, by
  induction on the files.
* `run_claimAndClear` says that the session starts with an empty index.
* `rebuildIndex_eq_updates` is the result.
-/

namespace FileIndexing

open FileIndexing.Action Service

/-- A file that is put into an index, under the id of its input. -/
abbrev InputFile := InputId × FileContent

variable {K V C : Type} [Ord K]

/-! ## Putting files into data -/

section Data

variable [Std.TransOrd K] [BEq V] (indexer : Indexer K V)

/-- Puts a file into the data of an index, if it can be mapped, and tells whether that changes
them. -/
def IndexData.put (d : IndexData K V) (file : InputFile) : Bool × IndexData K V :=
  match indexer file.2 with
  | .ok data => d.replace file.1 data
  | .error _ => (false, d)

/-- Puts files into the data of an index, one after the other. -/
def IndexData.putAll (d : IndexData K V) : List InputFile → List Bool × IndexData K V
  | [] => ([], d)
  | file :: rest =>
    let r := d.put indexer file
    let q := r.2.putAll rest
    (r.1 :: q.1, q.2)

/-- Puts a file back into an index, which is then up to date for its input. -/
def MemoryIndex.putBack (m : MemoryIndex K V) (file : InputFile) : Bool × MemoryIndex K V :=
  match indexer file.2 with
  | .ok data =>
    let r := m.replace file.1 data
    (r.1, r.2.setIndexed file.1)
  | .error _ => (false, m)

theorem MemoryIndex.data_putBack (m : MemoryIndex K V) (file : InputFile) :
    (m.putBack indexer file).1 = (m.data.put indexer file).1 ∧
      (m.putBack indexer file).2.data = (m.data.put indexer file).2 := by
  unfold putBack IndexData.put
  cases indexer file.2 with
  | ok data => exact ⟨(m.data_replace _ _).1, (m.data_replace _ _).2⟩
  | error refusal => exact ⟨rfl, rfl⟩

theorem MemoryIndex.state_putBack (m : MemoryIndex K V) (file : InputFile) (input : InputId) :
    (m.putBack indexer file).2.state input = .upToDate ↔
      (file.1 = input ∧ ∃ data, indexer file.2 = .ok data) ∨ m.state input = .upToDate := by
  unfold putBack
  cases indexer file.2 with
  | ok data =>
    simp only [state_setIndexed, state_replace]
    split <;> simp_all
  | error refusal => simp

/-- Puts files back into an index, one after the other. -/
def MemoryIndex.putBackAll (m : MemoryIndex K V) : List InputFile → MemoryIndex K V
  | [] => m
  | file :: rest => (m.putBack indexer file).2.putBackAll rest

theorem MemoryIndex.data_putBackAll (m : MemoryIndex K V) (files : List InputFile) :
    (m.putBackAll indexer files).data = (m.data.putAll indexer files).2 := by
  induction files generalizing m with
  | nil => rfl
  | cons file rest ih => rw [putBackAll, ih, (m.data_putBack indexer file).2]; rfl

/-- An index is up to date for the inputs of the files that could be mapped, and for those for which
it was before. -/
theorem MemoryIndex.state_putBackAll (m : MemoryIndex K V) (files : List InputFile)
    (input : InputId) :
    (m.putBackAll indexer files).state input = .upToDate ↔
      (∃ content data, (input, content) ∈ files ∧ indexer content = .ok data) ∨
        m.state input = .upToDate := by
  induction files generalizing m with
  | nil => simp [putBackAll]
  | cons file rest ih =>
    obtain ⟨i, c⟩ := file
    rw [putBackAll, ih, state_putBack]
    simp only [List.mem_cons, Prod.mk.injEq]
    grind

end Data

/-! ## Updates -/

/-- The update that puts a file into an index. -/
def InputFile.update (index : IndexId) (mode : ApplicationMode) (file : InputFile) : Operation :=
  .update index file.2 file.1 mode

section Updates

variable [Std.TransOrd K] [BEq V] (indexers : IndexId → Indexer K V) (index : IndexId)
  (mode : ApplicationMode)

/-- The update of a file puts it into the data of the index. -/
theorem perform_update (file : InputFile) {stores : Stores K V}
    (hregistered : stores.contains index = true) :
    ((file.update index mode).perform indexers stores).1.storageChanged =
        ((storeAt stores index).data.put (indexers index) file).1 ∧
      (storeAt ((file.update index mode).perform indexers stores).2 index).data =
        ((storeAt stores index).data.put (indexers index) file).2 := by
  have hmapped : (file.update index mode).mapped indexers =
      StoreHandle.mapped (indexers index) index file.1 (some file.2) := rfl
  rw [StoreHandle.mapped] at hmapped
  unfold IndexData.put
  cases hcontent : indexers index file.2 with
  | ok data =>
    rw [hcontent] at hmapped
    rw [Operation.perform_of_mapped hregistered hmapped]
    refine ⟨(MemoryIndex.data_replace _ _ _).1, ?_⟩
    have hindex : (file.update index mode).index = index := rfl
    rw [storeAt_insert, if_pos hindex, Operation.data_effect]
    exact (MemoryIndex.data_replace _ _ _).2
  | error refusal =>
    rw [hcontent] at hmapped
    have hcontains : stores.contains (file.update index mode).index = true := hregistered
    unfold Operation.perform
    rw [if_pos hcontains, hmapped]
    cases refusal <;> exact ⟨rfl, rfl⟩

/-- Updates put the files into the data of the index one after the other. -/
theorem performAll_updates (files : List InputFile) {stores : Stores K V}
    (hregistered : stores.contains index = true) :
    (performAll indexers (files.map (·.update index mode)) stores).1.map (·.storageChanged) =
        ((storeAt stores index).data.putAll (indexers index) files).1 ∧
      (storeAt (performAll indexers (files.map (·.update index mode)) stores).2 index).data =
        ((storeAt stores index).data.putAll (indexers index) files).2 := by
  induction files generalizing stores with
  | nil => exact ⟨rfl, rfl⟩
  | cons file rest ih =>
    obtain ⟨hchanged, hdata⟩ := perform_update indexers index mode file hregistered
    obtain ⟨hrest, hleft⟩ := ih ((Operation.contains_perform ..).trans hregistered)
    rw [hdata] at hrest hleft
    refine ⟨?_, hleft⟩
    rw [List.map_cons, performAll, List.map_cons, hchanged, hrest]
    rfl

end Updates

/-! ## Putting one file back -/

section Calls

variable {S U : Type} {env : Environment S U C} {b : Behaviour S U C} {x : Scene S C}
  {index : IndexId} {input : InputId} {content : FileContent}

omit [Ord K] in
/-- Applying an update under the lock of its index. -/
theorem runUpdate_yields (hperforms : env.handle.Performs b) (origin : Origin)
    (hheld : x.held = []) {update : PreparedUpdate U} {r : Except Failure Bool} {w : World S C}
    (happlied : b.apply update x.world = (r, w)) :
    (env.runUpdate origin update).Yields x r
      { x with
        world := w
        deeds := .applyEnded update.index update.input origin r.toOption ::
          .applyBegan update.index update.input origin :: x.deeds } := by
  obtain ⟨world, registry, marks, held, coordination, listeners, deeds⟩ := x
  obtain rfl : held = [] := hheld
  refine yields_withIndexLock update.index rfl (y := ⟨_, _, _, [], _, _, _⟩) fun lock => ?_
  exact applyUpdate_yields hperforms origin happlied

omit [Ord K] in
/-- A file that can be mapped, stored and noted as indexed is put back. -/
theorem indexMarked_yields (hperforms : env.handle.Performs b) (hheld : x.held = [])
    (hshareable : x.coordination.canShare = true) {update : PreparedUpdate U} {changed : Bool}
    {w w₁ w₂ : World S C}
    (hprepared : b.prepare index input (some content) x.world = (.ok update, w))
    (happlied : b.apply update w = (.ok changed, w₁))
    (hsettled : b.setIndexed index input w₁ = (.ok (), w₂)) :
    ∃ deeds, (env.indexMarked index input content).Yields x (.ok changed)
      { x with world := w₂, deeds } := by
  have hprepare : ((env.handle.prepare index input (some content)).result).Yields x
      (.ok (.ok update)) { x with world := w } := by
    have hphase := hperforms.prepare index input (some content) x
    rw [hprepared] at hphase
    exact Yields.result (r := .ok update) hphase
  have hrun := runUpdate_yields (x := { x with world := w }) hperforms .rebuild hheld happlied
  have hset : ∀ deeds, (withReadLock (env.handle.setIndexed index input)).Yields
      { x with world := w₁, deeds } (.ok ()) { x with world := w₂, deeds } := by
    intro deeds
    refine yields_withReadLock (y := { x with world := w₂, deeds }) hshareable ?_
    have hphase := hperforms.setIndexed index input
      { x with world := w₁, coordination := x.coordination.share, deeds }
    rw [hsettled] at hphase
    exact hphase
  exact ⟨_, hprepare.bind (hrun.bind ((hset _).bind (yields_pure changed _)))⟩

omit [Ord K] in
/-- A file that is refused is brought to the listeners, and a panic of theirs goes on. -/
theorem indexMarked_yields_told (hperforms : env.handle.Performs b) {refusal : MappingFailure}
    {w : World S C} {told : Except Failure Unit} {deeds : List Event}
    (hprepared : b.prepare index input (some content) x.world =
      (.error (.error (.mapping refusal)), w))
    (hnotify : (notify ⟨input, some content.file, index, refusal⟩ :
      ServiceAction S C Unit).Yields { x with world := w } told { x with world := w, deeds }) :
    (env.indexMarked index input content).Yields x (told.map fun _ => false)
      { x with world := w, deeds } := by
  have hprepare : ((env.handle.prepare index input (some content)).result).Yields x
      (.ok (.error (.mapping refusal))) { x with world := w } := by
    have hphase := hperforms.prepare index input (some content) x
    rw [hprepared] at hphase
    exact Yields.result (r := .error (.mapping refusal)) hphase
  refine hprepare.bind ?_
  cases told with
  | ok _ => exact hnotify.bind (yields_pure false _)
  | error failure => exact hnotify.bind_error

omit [Ord K] in
/-- A file that is refused is brought to the listeners. -/
theorem indexMarked_yields_refused (hperforms : env.handle.Performs b)
    (hquiet : ∀ tag, Listener.recording tag true ∉ x.listeners) {refusal : MappingFailure}
    {w : World S C}
    (hprepared : b.prepare index input (some content) x.world =
      (.error (.error (.mapping refusal)), w)) :
    ∃ deeds, (env.indexMarked index input content).Yields x (.ok false)
      { x with world := w, deeds } :=
  ⟨_, indexMarked_yields_told hperforms hprepared (yields_notify (x := { x with world := w }) _ hquiet)⟩

omit [Ord K] in
/-- Putting a file back is what is done while its mark is held. -/
theorem indexFile_yields_marked {r : Except Failure Bool} {w : World S C} {deeds : List Event}
    (hmark : x.marks.isMarked ⟨index, input⟩ = false)
    (hmarked : (env.indexMarked index input content).Yields
      { x with marks := x.marks.take ⟨index, input⟩ } r
      { x with marks := x.marks.take ⟨index, input⟩, world := w, deeds }) :
    (env.indexFile index input content).Yields x r { x with world := w, deeds } := by
  have hwork := yields_withMark (y := { x with world := w, deeds }) hmark hmarked
  exact hwork.outcome.bind ((yields_note rfl _).bind (yields_resume r _))

omit [Ord K] in
theorem indexFile_yields {r : Except Failure Bool} {w : World S C}
    (hmark : x.marks.isMarked ⟨index, input⟩ = false)
    (hmarked : ∃ deeds, (env.indexMarked index input content).Yields
      { x with marks := x.marks.take ⟨index, input⟩ } r
      { x with marks := x.marks.take ⟨index, input⟩, world := w, deeds }) :
    ∃ deeds, (env.indexFile index input content).Yields x r { x with world := w, deeds } :=
  hmarked.imp fun _ => indexFile_yields_marked hmark

end Calls

/-! ## Putting all files back -/

section Sessions

variable [Std.TransOrd K] [BEq V] {config : Config} {indexers : IndexId → Indexer K V}
  {index : IndexId}

/-- A file that can be mapped, or is refused with no listener panicking at that. -/
def InputFile.IsHarmless (indexer : Indexer K V) (listeners : List Listener) (file : InputFile) :
    Prop :=
  (∃ data, indexer file.2 = .ok data) ∨
    (∃ message, indexer file.2 = .error (.error message)) ∧
      ∀ tag, Listener.recording tag true ∉ listeners

/-- Putting a file back into an index in memory. -/
theorem indexFile_yields_putBack (config : Config) (file : InputFile)
    {x : Scene (MemoryIndex K V) C} (hheld : x.held = [])
    (hshareable : x.coordination.canShare = true)
    (hmark : x.marks.isMarked ⟨index, file.1⟩ = false)
    (hfile : file.IsHarmless (indexers index) x.listeners) :
    ∃ stores deeds,
      ((Environment.memory config indexers : Environment _ _ C).indexFile index file.1
          file.2).Yields x (.ok ((storeAt x.world.stores index).putBack (indexers index) file).1)
        { x with world := ⟨stores, x.world.client⟩, deeds } ∧
      storeAt stores index = ((storeAt x.world.stores index).putBack (indexers index) file).2 := by
  have hprepare : (Behaviour.memory indexers : Behaviour _ _ C).prepare index file.1 (some file.2)
      x.world = ((StoreHandle.mapped (indexers index) index file.1 (some file.2)).map fun data =>
        ⟨index, file.1, data⟩, x.world) := rfl
  rw [StoreHandle.mapped] at hprepare
  unfold MemoryIndex.putBack
  rcases hfile with ⟨data, hdata⟩ | ⟨⟨message, hmessage⟩, hquiet⟩
  · rw [hdata] at hprepare ⊢
    obtain ⟨deeds, hindex⟩ := indexFile_yields hmark
      (indexMarked_yields (x := { x with marks := x.marks.take ⟨index, file.1⟩ })
        performs_memory hheld hshareable hprepare rfl rfl)
    refine ⟨_, deeds, hindex, ?_⟩
    simp [storeAt_insert]
  · rw [hmessage] at hprepare ⊢
    obtain ⟨deeds, hindex⟩ := indexFile_yields hmark
      (indexMarked_yields_refused (x := { x with marks := x.marks.take ⟨index, file.1⟩ })
        performs_memory hquiet hprepare)
    exact ⟨_, deeds, hindex, rfl⟩

/-- A session that puts files back. -/
theorem Filling.Puts.run (config : Config) {f : Filling (MemoryIndex K V) C}
    {files : List InputFile} (hf : f.Puts files) {s : MemoryState K V C} (hs : s.IsUnlocked)
    (hmarks : s.marks = .empty)
    (hfiles : ∀ file ∈ files, file.IsHarmless (indexers index) s.listeners) :
    ∃ filled, f.run (.memory config indexers) index s = some filled ∧ filled.result = .ok () ∧
      filled.calls = ((storeAt s.stores index).data.putAll (indexers index) files).1.map .ok ∧
      storeAt filled.state.stores index =
        (storeAt s.stores index).putBackAll (indexers index) files ∧
      filled.state.registry = s.registry := by
  induction hf generalizing s with
  | done => exact ⟨_, rfl, rfl, rfl, rfl, rfl⟩
  | @step files ready act next hready hact _ ih =>
    obtain ⟨client, hclient⟩ := hact s
    rw [Filling.run, if_pos (hready s), hclient]
    exact ih s ⟨hs.held, hs.shareable⟩ hmarks hfiles
  | @call input content rest next _ ih =>
    have hmark : s.marks.isMarked ⟨index, input⟩ = false := by
      rw [hmarks]
      exact MarkTable.isMarked_empty _
    obtain ⟨stores, deeds, hindex, hstore⟩ := indexFile_yields_putBack config (input, content)
      (x := s.scene) hs.held hs.shareable hmark (hfiles _ List.mem_cons_self)
    obtain ⟨t, hrun, ht⟩ := hindex s rfl
    have hunlocked : t.IsUnlocked := ⟨(congrArg Scene.held ht).trans hs.held,
      (congrArg (·.coordination.canShare) ht).trans hs.shareable⟩
    have hlisteners : t.listeners = s.listeners := congrArg Scene.listeners ht
    have hput : storeAt t.stores index =
        ((storeAt s.stores index).putBack (indexers index) (input, content)).2 := by
      rw [show t.stores = stores from congrArg (·.world.stores) ht, hstore]
      rfl
    obtain ⟨hchanged, hdata⟩ :=
      (storeAt s.stores index).data_putBack (indexers index) (input, content)
    obtain ⟨filled, hfilled, hresult, hcalls, hleft, hregistry⟩ := ih _ hunlocked
      ((congrArg Scene.marks ht).trans hmarks)
      fun file hfile => by rw [hlisteners]; exact hfiles file (List.mem_cons_of_mem _ hfile)
    refine ⟨_, Filling.run_call_eq_some.2 ⟨_, t, filled, hrun, hfilled, rfl⟩, hresult, ?_, ?_,
      hregistry.trans (congrArg Scene.registry ht)⟩
    · rw [IndexData.putAll, List.map_cons, hcalls, hput, hdata, ← hchanged]
      rfl
    · rw [hleft, hput, MemoryIndex.putBackAll]

/-- Clearing an index in memory leaves neither data nor indexing states. -/
theorem clearIndex_yields (config : Config) (indexers : IndexId → Indexer K V) (index : IndexId)
    (x : Scene (MemoryIndex K V) C) :
    ((Environment.memory config indexers : Environment _ _ C).clearIndex index).Yields x (.ok ())
      { x with world := ⟨x.world.stores.insert index .empty, x.world.client⟩ } := by
  have hclear : ((Environment.memory config indexers : Environment _ _ C).handle.clear
      index).Yields x (.ok ())
        { x with world := ⟨x.world.stores.insert index .empty, x.world.client⟩ } := by
    rw [memory_clear]
    refine (performs_onStore index (fun m => ((), m.dropData)) x).bind ?_
    have hstates := performs_onStore (C := C) index (fun m : MemoryIndex K V => ((), m.dropStates))
      { x with
        world := ⟨x.world.stores.insert index (storeAt x.world.stores index).dropData,
          x.world.client⟩ }
    simp only [storeAt_insert, if_true, insert_insert] at hstates
    exact hstates
  exact (yields_note rfl x).bind
    (hclear.outcome.bind ((yields_note rfl _).bind (yields_resume _ _)))

/-- Claiming a scheduled index. -/
theorem start_yields {S U : Type} {env : Environment S U C} (horacle : env.oracle = .registry)
    {x : Scene S C} (hscheduled : x.registry.state index = .required) :
    (env.oracle.start index).Yields x (.ok true)
      { x with registry := x.registry.markRunning index } := by
  rw [horacle]
  refine (yields_access (v := true) (y := { x with registry := x.registry.markRunning index })
    ?_).bind ((yields_log _ _).bind (yields_pure true _))
  rintro s rfl
  have hrequired : s.registry.state index = .required := hscheduled
  exact ⟨by simp [RebuildRegistry.canStart, hrequired], s.scene_moveRegistry index _⟩

/-- The claim of a scheduled index in memory empties it. -/
theorem run_claimAndClear (config : Config) (indexers : IndexId → Indexer K V)
    {s : MemoryState K V C} (hs : s.AtRest)
    (hscheduled : s.registry.state index = .required) :
    ∃ run t, ((Environment.memory config indexers : Environment _ _ C).claimAndClear index).run s =
        some (.ok (some (run, .ok ())), t) ∧
      t.scene = { s.scene with
        world := ⟨s.stores.insert index .empty, s.client⟩
        registry := s.registry.markRunning index } := by
  obtain ⟨lock, locked, hlocked, hrun⟩ := run_withIndexLock index _ hs.unheld
  have hrequired : locked.scene.registry.state index = .required := by
    rw [hlocked]
    exact hscheduled
  have horacle : (Environment.memory config indexers : Environment _ _ C).oracle = .registry := rfl
  obtain ⟨t, hstart, ht⟩ := start_yields horacle hrequired locked rfl
  -- The number of the run is not part of the scene, so the run is followed up to that point.
  have hnumbered : ({ t with runs := t.runs + 1 }.note (.rebuildBegan index t.runs)).scene =
      t.scene := ServiceState.scene_note _ rfl
  have hhold : t.scene.coordination.canHold = true := by
    obtain ⟨writersFirst, hfree⟩ := hs.coordination
    rw [ht, hlocked]
    simp [ServiceState.scene, hfree, Coordination.free, Coordination.canHold]
  have hclear := yields_withStructuralLock (y := { t.scene with
    world := ⟨t.scene.world.stores.insert index .empty, t.scene.world.client⟩ }) hhold
      (clearIndex_yields config indexers index _)
  obtain ⟨u, hend, hu⟩ := hclear.outcome _ hnumbered
  refine ⟨t.runs, { u with locks := u.locks.release lock }, ?_, ?_⟩
  · refine hrun.trans ?_
    rw [run_bind, hstart]
    simp only [Option.bind_some, if_true]
    rw [Environment.numberRun, run_bind, run_access]
    simp only [Option.bind_some]
    rw [run_bind, hend]
    rfl
  · have hheld : u.locks.held = [lock] := by
      rw [show u.locks.held = t.scene.held from congrArg Scene.held hu, ht, hlocked]
    show { u.scene with held := u.locks.held.erase lock } = _
    rw [hheld, List.erase_cons_head, hu, ht, hlocked, ← hs.unheld]
    rfl

end Sessions

/-! ## The result -/

/-- A service at rest that can take some files into one of its indices. -/
structure ServiceState.Welcomes (s : MemoryState K V C) (indexer : Indexer K V) (index : IndexId)
    (files : List InputFile) : Prop where
  rest : s.AtRest
  registered : s.isRegistered index = true
  harmless : ∀ file ∈ files, file.IsHarmless indexer s.listeners

section Result

variable [Std.TransOrd K] [BEq V]

omit [Std.TransOrd K] [BEq V] in
theorem InputFile.IsHarmless.update {indexers : IndexId → Indexer K V} {index : IndexId}
    {listeners : List Listener} {file : InputFile}
    (h : file.IsHarmless (indexers index) listeners) (mode : ApplicationMode) :
    (file.update index mode).IsHarmless indexers listeners := by
  have hmapped : (file.update index mode).mapped indexers =
      StoreHandle.mapped (indexers index) index file.1 (some file.2) := rfl
  rw [StoreHandle.mapped] at hmapped
  rcases h with ⟨data, hdata⟩ | ⟨⟨message, hmessage⟩, hquiet⟩
  · exact .inl ⟨data, by rw [hmapped, hdata]⟩
  · exact .inr ⟨⟨_, by rw [hmapped, hmessage]⟩, hquiet⟩

/-- A rebuild that puts files back empties the index and puts the files into it. -/
theorem rebuildIndex_puts (config : Config) (indexers : IndexId → Indexer K V) {index : IndexId}
    {files : List InputFile} {f : Filling (MemoryIndex K V) C} (hf : f.Puts files)
    {s : MemoryState K V C} (hs : s.Welcomes (indexers index) index files)
    (hscheduled : s.registry.state index = .required) :
    ∃ session t,
      (Environment.memory config indexers).session index f s = some session ∧
      ((Environment.memory config indexers).rebuildIndex index
          (f.action (.memory config indexers) index)).run s = some (.ok .completed, t) ∧
      session.calls = (IndexData.empty.putAll (indexers index) files).1.map .ok ∧
      storeAt t.stores index = MemoryIndex.empty.putBackAll (indexers index) files := by
  obtain ⟨run, cleared, hclaim, hcleared⟩ := run_claimAndClear config indexers hs.rest hscheduled
  have hunlocked : cleared.IsUnlocked :=
    ⟨(congrArg Scene.held hcleared).trans hs.rest.unheld,
      (congrArg (·.coordination.canShare) hcleared).trans hs.rest.isUnlocked.shareable⟩
  have hlisteners : cleared.listeners = s.listeners := congrArg Scene.listeners hcleared
  have hstores : storeAt cleared.stores index = .empty := by
    rw [show cleared.stores = _ from congrArg (·.world.stores) hcleared, storeAt_insert, if_pos rfl]
  obtain ⟨session, hfilled, hresult, hcalls, hleft, hregistry⟩ := hf.run config hunlocked
    ((congrArg Scene.marks hcleared).trans hs.rest.marks)
    fun file hfile => by rw [hlisteners]; exact hs.harmless file hfile
  have hsession := Environment.session_eq_some.2 ⟨hs.registered, run, cleared, hclaim, hfilled⟩
  have hrunning : session.state.registry.state index = .running := by
    rw [hregistry, show cleared.registry = _ from congrArg Scene.registry hcleared,
      RebuildRegistry.state_markRunning]
    exact if_pos ⟨rfl, hscheduled⟩
  obtain ⟨t, hrun, ht⟩ := completed_of_session rfl hsession hresult hrunning
  have hend : t.stores = session.state.stores := congrArg World.stores ht
  rw [hstores] at hcalls hleft
  exact ⟨session, t, hsession, hrun, hcalls, by rw [hend, hleft]⟩

/-- Updates of files put them into an empty index. -/
theorem collect_updates_puts (config : Config) (indexers : IndexId → Indexer K V) {index : IndexId}
    {files : List InputFile} {s : MemoryState K V C}
    (hs : s.Welcomes (indexers index) index files) (hempty : storeAt s.stores index = .empty)
    (hopen : (Environment.memory config indexers : Environment _ _ C).gates s.registry index =
      false)
    (mode : ApplicationMode) :
    ∃ outcomes t,
      (Action.collect (Environment.memory config indexers : Environment _ _ C).execute
          (files.map (·.update index mode))).run s = some (.ok outcomes, t) ∧
      outcomes.map (·.storageChanged) = (IndexData.empty.putAll (indexers index) files).1 ∧
      (storeAt t.stores index).data = (IndexData.empty.putAll (indexers index) files).2 := by
  obtain ⟨deeds, hcollect⟩ := collect_execute_yields config (x := s.scene)
    (files.map (·.update index mode)) hs.rest.unheld hs.rest.isUnlocked.shareable hs.rest.marks
    (List.forall_mem_map.2 fun _ _ => hopen)
    (List.forall_mem_map.2 fun file hfile _ => (hs.harmless file hfile).update mode)
  obtain ⟨t, hrun, ht⟩ := hcollect s rfl
  obtain ⟨hchanged, hdata⟩ := performAll_updates indexers index mode files hs.registered
  rw [hempty] at hchanged hdata
  have hstores : t.stores = _ := congrArg (·.world.stores) ht
  exact ⟨_, t, hrun, hchanged, by rw [hstores]; exact hdata⟩

/-- A rebuild that puts files back into an index, whatever the index held before, leaves the data
that updates of the same files leave in an empty index, and answers for every file whether storage
changed as the update of the file does.  The index is then up to date for the files that could be
mapped and for no others. -/
theorem rebuildIndex_eq_updates {C' : Type} (config config' : Config)
    (indexers indexers' : IndexId → Indexer K V) (index : IndexId)
    (hindexer : indexers' index = indexers index) (files : List InputFile)
    (f : Filling (MemoryIndex K V) C) (hf : f.Puts files)
    (s : MemoryState K V C) (hs : s.Welcomes (indexers index) index files)
    (hscheduled : s.registry.state index = .required)
    (fresh : MemoryState K V C') (hfresh : fresh.Welcomes (indexers index) index files)
    (hempty : storeAt fresh.stores index = .empty)
    (hopen : (Environment.memory config' indexers' : Environment _ _ C').gates fresh.registry
      index = false)
    (mode : ApplicationMode) :
    ∃ session t outcomes u,
      (Environment.memory config indexers).session index f s = some session ∧
      ((Environment.memory config indexers).rebuildIndex index
          (f.action (.memory config indexers) index)).run s = some (.ok .completed, t) ∧
      (Action.collect (Environment.memory config' indexers' : Environment _ _ C').execute
          (files.map (·.update index mode))).run fresh = some (.ok outcomes, u) ∧
      session.calls = outcomes.map (fun outcome => .ok outcome.storageChanged) ∧
      (storeAt t.stores index).data = (storeAt u.stores index).data ∧
      ∀ input, (storeAt t.stores index).state input = .upToDate ↔
        ∃ content data, (input, content) ∈ files ∧ indexers index content = .ok data := by
  obtain ⟨session, t, hsession, hrun, hcalls, hleft⟩ := rebuildIndex_puts config indexers hf hs
    hscheduled
  rw [← hindexer] at hfresh
  obtain ⟨outcomes, u, hcollect, hchanged, hdata⟩ := collect_updates_puts config' indexers' hfresh
    hempty hopen mode
  rw [hindexer] at hchanged hdata
  refine ⟨session, t, outcomes, u, hsession, hrun, hcollect, ?_, ?_, fun input => ?_⟩
  · rw [hcalls, ← hchanged, List.map_map]
    rfl
  · rw [hleft, hdata, MemoryIndex.data_putBackAll]
    rfl
  · rw [hleft, MemoryIndex.state_putBackAll]
    simp [MemoryIndex.state, MemoryIndex.empty]

end Result

namespace Sample

/-- The service with an outdated file in its index, which is scheduled for a rebuild. -/
def outdated : MemoryState Nat Nat Unit :=
  let s : MemoryState Nat Nat Unit := .ofStores .standard (Std.ExtTreeMap.empty.insert sizes
    (MemoryIndex.empty.replace ⟨2⟩ (Std.ExtTreeMap.empty.insert 5 1)).2) true ()
  { s with registry := (s.registry.request sizes ⟨"damage"⟩).2 }

/-- Two versions of one file. -/
def versions : List InputFile := [(⟨1⟩, content 3), (⟨1⟩, content 4)]

theorem atRest_outdated : outdated.AtRest :=
  have h := ServiceState.atRest_ofStores .standard (Std.ExtTreeMap.empty.insert sizes
    (MemoryIndex.empty.replace ⟨2⟩ (Std.ExtTreeMap.empty.insert 5 1)).2) true ()
  ⟨h.marks, h.coordination, h.unheld, h.numbered, h.apart, h.idle⟩

theorem welcomes_versions {s : MemoryState Nat Nat Unit} (hs : s.AtRest)
    (hregistered : s.isRegistered sizes = true) :
    s.Welcomes (fun content => .ok (Std.ExtTreeMap.empty.insert content.size 1)) sizes
      versions where
  rest := hs
  registered := hregistered
  harmless _ _ := .inl ⟨_, rfl⟩

end Sample

/-- Of an outdated file nothing is left. -/
theorem rebuildIndex_eq_updates_outdated : ∃ t u outcomes,
    (Sample.environment.rebuildIndex Sample.sizes
        ((Filling.ofFiles Sample.versions).action Sample.environment Sample.sizes)).run
          Sample.outdated = some (.ok .completed, t) ∧
      (Action.collect Sample.environment.execute
        (Sample.versions.map (·.update Sample.sizes .synchronous))).run Sample.state =
          some (.ok outcomes, u) ∧
      (storeAt t.stores Sample.sizes).data = (storeAt u.stores Sample.sizes).data ∧
      (storeAt t.stores Sample.sizes).state ⟨2⟩ = .notIndexed := by
  obtain ⟨session, t, outcomes, u, -, hrun, hcollect, -, hdata, hstates⟩ :=
    rebuildIndex_eq_updates .standard .standard
      (fun _ content => .ok (Std.ExtTreeMap.empty.insert content.size 1))
      (fun _ content => .ok (Std.ExtTreeMap.empty.insert content.size 1)) Sample.sizes rfl
      Sample.versions (.ofFiles Sample.versions) (Filling.puts_ofFiles _) Sample.outdated
      (Sample.welcomes_versions Sample.atRest_outdated (by decide +kernel)) (by decide +kernel)
      Sample.state
      (Sample.welcomes_versions (ServiceState.atRest_ofStores .standard _ true ())
        (by decide +kernel))
      ((storeAt_insert _ _ _ _).trans (if_pos rfl)) (by decide +kernel) .synchronous
  refine ⟨t, u, outcomes, hrun, hcollect, hdata, ?_⟩
  have hother : (storeAt t.stores Sample.sizes).state ⟨2⟩ ≠ .upToDate := by
    rw [ne_eq, hstates]
    simp [Sample.versions]
  cases hstate : (storeAt t.stores Sample.sizes).state ⟨2⟩ with
  | upToDate => exact absurd hstate hother
  | notIndexed => rfl

end FileIndexing
