import FileIndexing.Proofs.Presence
import FileIndexing.Proofs.Refilling

/-!
# Files that are refused during a rebuild

A file that cannot be mapped while an index is being rebuilt is brought to the listeners, and
nothing else is done about it.  It should be left unindexed, but what is left of it depends on the
calls that the session made before.  This module says when it is.

* `Call` is one call of a session, with the states that it finds and leaves, and `Filling.calls`
  lists the calls that a filling makes when it is run alone.
* `indexFile_yields_any` says what any call comes to, whatever the indexer and the listeners do.
* `Filling.OnlyPutsBack.run` is the walk along the calls of a session: each finds the index as the
  calls before it left it.
* `leavesUnindexed_iff` is the result: a refused file is left unindexed exactly if no earlier call
  of the session put the same input back, and no listener panics.
-/

namespace FileIndexing

open ServiceState FileIndexing.Action Service

/-! ## The calls of a session -/

/-- A call that puts a file back: what it answers, and the states that it finds and leaves. -/
structure Call (S C : Type) where
  file : InputFile
  answer : Except Failure Bool
  before : ServiceState S C
  after : ServiceState S C

namespace Filling

variable {S U C : Type}

/-- The calls that a filling makes when it is run alone, the first one first. -/
def calls (env : Environment S U C) (index : IndexId) :
    Filling S C → ServiceState S C → List (Call S C)
  | .done _, _ => []
  | .step ready act next, s => if ready s then (next s).calls env index (act s) else []
  | .call input content next, s =>
    match (env.indexFile index input content).run s with
    | some (r, t) => ⟨(input, content), r, s, t⟩ :: (next r).calls env index t
    | none => []

/-- A filling that puts files back, whatever they come to.  Other than that it only works on what
the embedding program shares. -/
inductive OnlyPutsBack : Filling S C → Prop where
  | done (result : Except Failure Unit) : OnlyPutsBack (.done result)
  | step {ready : ServiceState S C → Bool} {act : ServiceState S C → ServiceState S C}
      {next : ServiceState S C → Filling S C} :
      (∀ s, ready s = true) → (∀ s, ∃ client, act s = { s with client }) →
      (∀ s, OnlyPutsBack (next s)) → OnlyPutsBack (.step ready act next)
  | call {input : InputId} {content : FileContent} {next : Except Failure Bool → Filling S C} :
      (∀ r, OnlyPutsBack (next r)) → OnlyPutsBack (.call input content next)

theorem onlyPutsBack_ofFiles (files : List InputFile) :
    (ofFiles files : Filling S C).OnlyPutsBack := by
  induction files with
  | nil => exact .done _
  | cons file rest ih =>
    refine .call fun r => ?_
    cases r with
    | ok changed => exact ih
    | error failure => exact .done _

/-- The calls of a filling answer what the run of the filling keeps of them. -/
theorem map_answer_calls {env : Environment S U C} {index : IndexId} {f : Filling S C}
    {s : ServiceState S C} {filled : Filled S C} (h : f.run env index s = some filled) :
    (f.calls env index s).map (·.answer) = filled.calls := by
  induction f generalizing s filled with
  | done result =>
    obtain rfl := Option.some.inj h
    rfl
  | step ready act next ih =>
    rw [run] at h
    split at h
    · next hready =>
      rw [calls, if_pos hready]
      exact ih s h
    · cases h
  | call input content next ih =>
    obtain ⟨r, t, rest, hfile, hrest, rfl⟩ := run_call_eq_some.1 h
    simp [calls, hfile, ih r hrest]

end Filling

/-! ## One call -/

/-- The news that a file was refused. -/
def InputFile.notice (index : IndexId) (file : InputFile) (message : String) : Notice :=
  ⟨file.1, some file.2.file, index, .caused index file.1 message⟩

variable {K V C : Type} [Ord K] [Std.TransOrd K] [BEq V] {config : Config}
  {indexers : IndexId → Indexer K V} {index : IndexId}

/-- What putting a file back comes to, whatever the indexer and the listeners do. -/
theorem indexFile_yields_any (config : Config) (indexers : IndexId → Indexer K V) (index : IndexId)
    (file : InputFile) {x : Scene (MemoryIndex K V) C} (hheld : x.held = [])
    (hshareable : x.coordination.canShare = true)
    (hmark : x.marks.isMarked ⟨index, file.1⟩ = false) :
    ∃ answer stores deeds,
      ((Environment.memory config indexers : Environment _ _ C).indexFile index file.1
          file.2).Yields x answer { x with world := ⟨stores, x.world.client⟩, deeds } ∧
      storeAt stores index = ((storeAt x.world.stores index).putBack (indexers index) file).2 ∧
      ∀ message, indexers index file.2 = .error (.error message) →
        (answer = .ok false ↔ ∀ tag, Listener.recording tag true ∉ x.listeners) ∧
        (answer = .ok false →
          deeds = (x.listeners.map fun listener =>
            .delivered listener (file.notice index message)).reverse ++ x.deeds) := by
  have hprepare : (Behaviour.memory indexers : Behaviour _ _ C).prepare index file.1 (some file.2)
      x.world = ((StoreHandle.mapped (indexers index) index file.1 (some file.2)).map fun data =>
        ⟨index, file.1, data⟩, x.world) := rfl
  rw [StoreHandle.mapped] at hprepare
  rcases hcontent : indexers index file.2 with ⟨message | payload⟩ | data
  · have hput : ((storeAt x.world.stores index).putBack (indexers index) file).2 =
        storeAt x.world.stores index := by simp [MemoryIndex.putBack, hcontent]
    rw [hcontent] at hprepare
    rw [hput]
    by_cases hquiet : ∀ tag, Listener.recording tag true ∉ x.listeners
    · refine ⟨.ok false, x.world.stores, _, indexFile_yields_marked hmark
        (indexMarked_yields_told (x := { x with marks := x.marks.take ⟨index, file.1⟩ })
          performs_memory hprepare (yields_notify _ hquiet)), rfl, ?_⟩
      rintro _ ⟨⟩
      exact ⟨by simpa using hquiet, fun _ => rfl⟩
    · obtain ⟨tag, hpanics⟩ := not_forall_not.1 hquiet
      obtain ⟨told, hnotify⟩ := yields_notify_panics (file.notice index message)
        (x := { x with marks := x.marks.take ⟨index, file.1⟩ }) hpanics
      refine ⟨.error (.panic (.text "listener panic")), x.world.stores, _,
        indexFile_yields_marked hmark (indexMarked_yields_told
          (x := { x with marks := x.marks.take ⟨index, file.1⟩ }) performs_memory hprepare hnotify),
        rfl, fun _ _ => ⟨by simpa using ⟨tag, hpanics⟩, fun hanswer => by cases hanswer⟩⟩
  · have hput : ((storeAt x.world.stores index).putBack (indexers index) file).2 =
        storeAt x.world.stores index := by simp [MemoryIndex.putBack, hcontent]
    rw [hcontent] at hprepare
    have hperforms : (Environment.memory config indexers : Environment _ _ C).handle.Performs
        (.memory indexers) := performs_memory
    have hpanic : ((Environment.memory config indexers : Environment _ _ C).indexMarked index file.1
        file.2).Yields { x with marks := x.marks.take ⟨index, file.1⟩ } (.error (.panic payload))
          { x with marks := x.marks.take ⟨index, file.1⟩ } := by
      have hphase := hperforms.prepare index file.1 (some file.2)
        { x with marks := x.marks.take ⟨index, file.1⟩ }
      rw [hprepare] at hphase
      exact hphase.result_panic.bind_error
    rw [hput]
    exact ⟨_, x.world.stores, x.deeds, indexFile_yields_marked hmark hpanic, rfl,
      fun message hother => by cases hother⟩
  · obtain ⟨stores, deeds, hyields, hstore⟩ := indexFile_yields_putBack config file hheld hshareable
      hmark (.inl ⟨data, hcontent⟩)
    exact ⟨_, stores, deeds, hyields, hstore, fun message hother => by cases hother⟩

/-! ## All calls -/

/-- Files that cannot be mapped leave the data of an input as they are, and so do files of other
inputs. -/
theorem MemoryIndex.forward?_putBackAll {indexer : Indexer K V} {input : InputId}
    {files : List InputFile}
    (hfiles : ∀ file ∈ files, file.1 = input → ∀ data, indexer file.2 ≠ .ok data)
    (m : MemoryIndex K V) :
    (m.putBackAll indexer files).data.forward? input = m.data.forward? input := by
  induction files generalizing m with
  | nil => rfl
  | cons file rest ih =>
    rw [putBackAll, ih (fun other hother => hfiles other (List.mem_cons_of_mem _ hother))]
    unfold putBack
    cases hcontent : indexer file.2 with
    | error refusal => rfl
    | ok data =>
      have hother : file.1 ≠ input := fun heq => hfiles file List.mem_cons_self heq data hcontent
      rw [data_setIndexed, MemoryIndex.forward?_replace, if_neg fun h => hother h.2]

/-- A call of a session that started in some state and has put some files back before. -/
structure Call.Continues (config : Config) (indexers : IndexId → Indexer K V) (index : IndexId)
    (s : MemoryState K V C) (files : List InputFile) (call : Call (MemoryIndex K V) C) : Prop where
  run : ((Environment.memory config indexers : Environment _ _ C).indexFile index call.file.1
    call.file.2).run call.before = some (call.answer, call.after)
  unlocked : call.before.IsUnlocked
  marks : call.before.marks = .empty
  listeners : call.before.listeners = s.listeners
  store : storeAt call.before.stores index =
    (storeAt s.stores index).putBackAll (indexers index) files

/-- The run of a filling comes to its end, and each of its calls finds the index as the calls before
it left it. -/
theorem Filling.OnlyPutsBack.run (config : Config) (indexers : IndexId → Indexer K V)
    (index : IndexId) {f : Filling (MemoryIndex K V) C} (hf : f.OnlyPutsBack)
    {s : MemoryState K V C} (hs : s.IsUnlocked) (hmarks : s.marks = .empty) :
    (∃ filled, f.run (.memory config indexers) index s = some filled) ∧
      ∀ earlier call later,
        f.calls (.memory config indexers) index s = earlier ++ call :: later →
        call.Continues config indexers index s (earlier.map (·.file)) := by
  induction hf generalizing s with
  | done result => exact ⟨⟨_, rfl⟩, fun earlier call later h => by simp [Filling.calls] at h⟩
  | @step ready act next hready hact _ ih =>
    obtain ⟨client, hclient⟩ := hact s
    rw [Filling.run, Filling.calls, if_pos (hready s), if_pos (hready s), hclient]
    obtain ⟨hfilled, hcalls⟩ := @ih s { s with client } ⟨hs.held, hs.shareable⟩ hmarks
    refine ⟨hfilled, fun earlier call later h => ?_⟩
    obtain ⟨hrun, hunlocked, hfree, hlisteners, hstore⟩ := hcalls earlier call later h
    exact ⟨hrun, hunlocked, hfree, hlisteners, hstore⟩
  | @call input content next _ ih =>
    have hmark : s.marks.isMarked ⟨index, input⟩ = false := by
      rw [hmarks]
      exact MarkTable.isMarked_empty _
    obtain ⟨r, stores, deeds, hyields, hstore, -⟩ := indexFile_yields_any config indexers index
      (input, content) (x := s.scene) hs.held hs.shareable hmark
    obtain ⟨t, hrun, ht⟩ := hyields s rfl
    have hunlocked : t.IsUnlocked := ⟨(congrArg Scene.held ht).trans hs.held,
      (congrArg (·.coordination.canShare) ht).trans hs.shareable⟩
    have hlisteners : t.listeners = s.listeners := congrArg Scene.listeners ht
    have hput : storeAt t.stores index =
        ((storeAt s.stores index).putBack (indexers index) (input, content)).2 := by
      rw [show t.stores = stores from congrArg (·.world.stores) ht, hstore]
      rfl
    obtain ⟨⟨filled, hfilled⟩, hcalls⟩ := ih r hunlocked ((congrArg Scene.marks ht).trans hmarks)
    refine ⟨⟨_, Filling.run_call_eq_some.2 ⟨r, t, filled, hrun, hfilled, rfl⟩⟩, ?_⟩
    intro earlier call later h
    simp only [Filling.calls, hrun] at h
    cases earlier with
    | nil =>
      obtain ⟨rfl, -⟩ := List.cons.inj h
      exact ⟨hrun, hs, hmarks, rfl, rfl⟩
    | cons first others =>
      obtain ⟨rfl, hrest⟩ := List.cons.inj h
      obtain ⟨hrun', hunlocked', hfree, hlisteners', hstore'⟩ := hcalls others call later hrest
      refine ⟨hrun', hunlocked', hfree, hlisteners'.trans hlisteners, ?_⟩
      rw [hstore', hput]
      rfl

/-! ## The result -/

/-- A call whose file was refused, with a certain message, leaves the file unindexed: it answers
that nothing changed, the input counts as not indexed and has no data, and all that was done is that
every listener was told once, in the order of the listeners. -/
structure Call.LeavesUnindexed (index : IndexId) (message : String)
    (call : Call (MemoryIndex K V) C) : Prop where
  answer : call.answer = .ok false
  state : call.after.indexingState ⟨index, call.file.1⟩ = .notIndexed
  stored : call.after.forward? ⟨index, call.file.1⟩ = none
  told : call.after.deeds =
    (call.before.listeners.map fun listener =>
      .delivered listener (call.file.notice index message)).reverse ++ call.before.deeds

/-- What a refused file leaves behind depends on the calls before. -/
theorem Call.Continues.unindexed_iff {s : MemoryState K V C} {files : List InputFile}
    {call : Call (MemoryIndex K V) C} (h : call.Continues config indexers index s files)
    (hempty : storeAt s.stores index = .empty) {message : String}
    (hrefused : indexers index call.file.2 = .error (.error message)) :
    call.LeavesUnindexed index message ↔
      (∀ file ∈ files, file.1 = call.file.1 → ∀ data, indexers index file.2 ≠ .ok data) ∧
        ∀ tag, Listener.recording tag true ∉ s.listeners := by
  obtain ⟨r, stores, deeds, hyields, hstore, htold⟩ := indexFile_yields_any config indexers index
    call.file (x := call.before.scene) h.unlocked.held h.unlocked.shareable (by
      rw [show call.before.scene.marks = .empty from h.marks]
      exact MarkTable.isMarked_empty _)
  obtain ⟨t, hrun, ht⟩ := hyields call.before rfl
  obtain ⟨rfl, rfl⟩ := Prod.mk.inj (Option.some.inj (hrun.symm.trans h.run))
  obtain ⟨hanswer, hdeeds⟩ := htold message hrefused
  have hlisteners : call.before.scene.listeners = s.listeners := h.listeners
  have hleft : storeAt call.after.stores index =
      MemoryIndex.empty.putBackAll (indexers index) files := by
    rw [show call.after.stores = stores from congrArg (·.world.stores) ht, hstore, ← hempty,
      ← h.store]
    simp [MemoryIndex.putBack, hrefused, scene, world]
  rw [hlisteners] at hanswer
  have hupToDate := MemoryIndex.state_putBackAll (indexers index) .empty files call.file.1
  constructor
  · intro hleaves
    refine ⟨fun file hfile hinput data hdata => ?_, hanswer.1 hleaves.answer⟩
    have hstate : (storeAt call.after.stores index).state call.file.1 = .notIndexed := hleaves.state
    rw [hleft, hupToDate.2 (.inl ⟨file.2, data, hinput ▸ hfile, hdata⟩)] at hstate
    cases hstate
  · rintro ⟨hearlier, hquiet⟩
    refine ⟨hanswer.2 hquiet, ?_, ?_, ?_⟩
    · show (storeAt call.after.stores index).state call.file.1 = .notIndexed
      rw [hleft]
      cases hstate : (MemoryIndex.empty.putBackAll (indexers index) files).state call.file.1 with
      | notIndexed => rfl
      | upToDate =>
        rcases hupToDate.1 hstate with ⟨content, data, hfile, hdata⟩ | hbefore
        · exact absurd hdata (hearlier _ hfile rfl data)
        · simp [MemoryIndex.state, MemoryIndex.empty] at hbefore
    · show (storeAt call.after.stores index).data.forward? call.file.1 = none
      rw [hleft, MemoryIndex.forward?_putBackAll hearlier]
      simp [MemoryIndex.empty, IndexData.empty, IndexData.forward?]
    · show call.after.scene.deeds = _
      rw [ht, hdeeds (hanswer.2 hquiet)]
      rfl

/-- However a session puts files back, a file that is refused in one of its calls is left unindexed
exactly if no earlier call of the session has put the same input back with content that could be
mapped, and no listener panics. -/
theorem leavesUnindexed_iff (config : Config) (indexers : IndexId → Indexer K V) (index : IndexId)
    (f : Filling (MemoryIndex K V) C) (hf : f.OnlyPutsBack) (s : MemoryState K V C) (hs : s.AtRest)
    (hregistered : s.isRegistered index = true)
    (hscheduled : s.registry.state index = .required) :
    ∃ run cleared filled,
      ((Environment.memory config indexers).claimAndClear index).run s =
        some (.ok (some (run, .ok ())), cleared) ∧
      (Environment.memory config indexers).session index f s = some filled ∧
      (f.calls (.memory config indexers) index cleared).map (·.answer) = filled.calls ∧
      ∀ earlier call later message,
        f.calls (.memory config indexers) index cleared = earlier ++ call :: later →
        indexers index call.file.2 = .error (.error message) →
        (call.LeavesUnindexed index message ↔
          (∀ previous ∈ earlier, previous.file.1 = call.file.1 →
            ∀ data, indexers index previous.file.2 ≠ .ok data) ∧
          ∀ tag, Listener.recording tag true ∉ s.listeners) := by
  obtain ⟨run, cleared, hclaim, hcleared⟩ := run_claimAndClear config indexers hs hscheduled
  have hunlocked : cleared.IsUnlocked :=
    ⟨(congrArg Scene.held hcleared).trans hs.unheld,
      (congrArg (·.coordination.canShare) hcleared).trans hs.isUnlocked.shareable⟩
  have hlisteners : cleared.listeners = s.listeners := congrArg Scene.listeners hcleared
  have hempty : storeAt cleared.stores index = .empty := by
    rw [show cleared.stores = _ from congrArg (·.world.stores) hcleared, storeAt_insert, if_pos rfl]
  obtain ⟨⟨filled, hfilled⟩, hcalls⟩ := hf.run config indexers index hunlocked
    ((congrArg Scene.marks hcleared).trans hs.marks)
  refine ⟨run, cleared, filled, hclaim,
    Environment.session_eq_some.2 ⟨hregistered, run, cleared, hclaim, hfilled⟩,
    Filling.map_answer_calls hfilled, fun earlier call later message hsplit hrefused => ?_⟩
  rw [(hcalls earlier call later hsplit).unindexed_iff hempty hrefused, hlisteners,
    List.forall_mem_map]

namespace Sample

/-- Indexes files by their sizes and refuses empty ones. -/
def sizeOfNonempty : Indexer Nat Nat := fun content =>
  if content.size = 0 then .error (.error "empty file")
  else .ok (Std.ExtTreeMap.empty.insert content.size 1)

/-- A service whose indexer refuses empty files. -/
def wary : Environment (MemoryIndex Nat Nat) (Mapping Nat Nat) Unit :=
  .memory .standard fun _ => sizeOfNonempty

/-- The calls of a rebuild that puts some files back. -/
def callsOf (files : List InputFile) : Option (List (Call (MemoryIndex Nat Nat) Unit)) :=
  ((wary.claimAndClear sizes).run outdated).map fun r =>
    (Filling.ofFiles files).calls wary sizes r.2

theorem sizeOfNonempty_of_empty {content : FileContent} (h : content.size = 0) :
    sizeOfNonempty content = .error (.error "empty file") := if_pos h

end Sample

/-- An empty file is put back after another file. -/
theorem leavesUnindexed_iff_other : ∃ first second,
    Sample.callsOf [(⟨2⟩, Sample.content 3), (⟨1⟩, Sample.content 0)] = some [first, second] ∧
      second.file.1 = ⟨1⟩ ∧ second.LeavesUnindexed Sample.sizes "empty file" := by
  obtain ⟨run, cleared, filled, hclaim, -, -, hleft⟩ := leavesUnindexed_iff .standard
    (fun _ => Sample.sizeOfNonempty) Sample.sizes
    (.ofFiles [(⟨2⟩, Sample.content 3), (⟨1⟩, Sample.content 0)]) (Filling.onlyPutsBack_ofFiles _)
    Sample.outdated Sample.atRest_outdated (by decide +kernel) (by decide +kernel)
  have hclaimed : (Sample.wary.claimAndClear Sample.sizes).run Sample.outdated =
      some (.ok (some (run, .ok ())), cleared) := hclaim
  have hfiles : (Sample.callsOf [(⟨2⟩, Sample.content 3), (⟨1⟩, Sample.content 0)]).map
      (·.map fun call => (call.file.1, call.file.2.size)) = some [(⟨2⟩, 3), (⟨1⟩, 0)] := by
    decide +kernel
  obtain ⟨calls, hcalls, hsplit⟩ := Option.map_eq_some_iff.1 hfiles
  obtain ⟨first, rest, rfl, hfirst, hrest⟩ := List.map_eq_cons_iff.1 hsplit
  obtain ⟨second, rfl, hsecond⟩ := List.map_eq_singleton_iff.1 hrest
  obtain ⟨hother, -⟩ := Prod.mk.inj hfirst
  obtain ⟨hinput, hempty⟩ := Prod.mk.inj hsecond
  refine ⟨first, second, hcalls, hinput, ?_⟩
  rw [Sample.callsOf, hclaimed] at hcalls
  refine (hleft [first] second [] "empty file" (Option.some.inj hcalls)
    (Sample.sizeOfNonempty_of_empty hempty)).2 ⟨fun previous hprevious hsame => ?_, by
      simp [Sample.outdated, ServiceState.ofStores]⟩
  obtain rfl := List.mem_singleton.1 hprevious
  rw [hother, hinput] at hsame
  cases hsame

/-- A file is put back and then put back again, empty this time.  The second call is told to the
listeners and changes nothing, so that the file counts as indexed with what it held before. -/
theorem refused_left_indexed : ∃ first second,
    Sample.callsOf [(⟨1⟩, Sample.content 3), (⟨1⟩, Sample.content 0)] = some [first, second] ∧
      second.file.1 = ⟨1⟩ ∧
      Sample.sizeOfNonempty second.file.2 = .error (.error "empty file") ∧
      second.answer.toOption = some false ∧ second.after.indexingState Sample.file = .upToDate ∧
      second.after.forward? Sample.file ≠ none := by
  have hfiles : (Sample.callsOf [(⟨1⟩, Sample.content 3), (⟨1⟩, Sample.content 0)]).map
      (·.map fun call => ((call.file.1, call.file.2.size), call.answer.toOption,
        call.after.indexingState Sample.file, (call.after.forward? Sample.file).isSome)) =
      some [((⟨1⟩, 3), some true, .upToDate, true), ((⟨1⟩, 0), some false, .upToDate, true)] := by
    decide +kernel
  obtain ⟨calls, hcalls, hsplit⟩ := Option.map_eq_some_iff.1 hfiles
  obtain ⟨first, rest, rfl, -, hrest⟩ := List.map_eq_cons_iff.1 hsplit
  obtain ⟨second, rfl, hsecond⟩ := List.map_eq_singleton_iff.1 hrest
  simp only [Prod.mk.injEq] at hsecond
  obtain ⟨⟨hinput, hempty⟩, hanswer, hstate, hstored⟩ := hsecond
  exact ⟨first, second, hcalls, hinput, Sample.sizeOfNonempty_of_empty hempty, hanswer, hstate,
    Option.isSome_iff_ne_none.1 hstored⟩

end FileIndexing
