import FileIndexing.Proofs.Aftermath
import FileIndexing.Proofs.Containment
import FileIndexing.Proofs.Scene
import FileIndexing.Service.Filling

/-!
# What a rebuild makes of its session

A rebuild learns of a file that could not be put back only from the program that was to put it
back: if that program ends normally, the rebuild goes by the state of its index alone.  This module
says when a rebuild completes, and what that means for the files.

* `run_rebuildIndex` and `run_refill` take the run of a rebuild apart.
* `rebuildIndex_completes_iff` says when a rebuild completes, for any handle and any filling.
* `Filling.PassesOn` is about fillings that end with the failure of a file, and
  `rebuildIndex_clean_of_passesOn` says that with them no failure is lost.
* `completed_clean_iff` is the result for fillings of any kind.
-/

namespace FileIndexing

open FileIndexing.Action Service

variable {S U C : Type} {env : Environment S U C} {index : IndexId} {s t : ServiceState S C}

/-! ## The run of a rebuild -/

/-- A rebuild that has claimed its index goes on with the refilling. -/
theorem run_rebuildIndex (hregistered : s.isRegistered index = true) {run : Nat}
    {cleared : Except Failure Unit}
    (hclaim : (env.claimAndClear index).run s = some (.ok (some (run, cleared)), t))
    (repopulate : ServiceAction S C Unit) :
    (env.rebuildIndex index repopulate).run s =
      ((env.refill index cleared repopulate).run t).map fun r =>
        (r.1, r.2.note (.rebuildEnded index run r.1.toOption)) := by
  have hread : (isRegistered index).run s = some (.ok true, s) := by
    rw [← hregistered]
    rfl
  rw [Environment.rebuildIndex, run_bind, hread]
  simp only [Option.bind_some, Bool.not_true, Bool.false_eq_true, if_false]
  rw [run_bind, hclaim]
  simp only [Option.bind_some]
  rw [run_bind, run_outcome]
  cases (env.refill index cleared repopulate).run t with
  | none => rfl
  | some r => simp [Service.note, run_bind, run_resume]

/-- What follows the program that puts the files back. -/
theorem run_refill (repopulate : ServiceAction S C Unit) :
    (env.refill index (.ok ()) repopulate).run s = (repopulate.run s).bind fun r =>
      match r.1 with
      | .ok () => (env.concludeRebuild index (.ok ())).run r.2
      | .error (.error cause) => (env.concludeRebuild index (.error cause)).run r.2
      | .error (.panic payload) => some (.error (.panic payload), r.2) := by
  have hresume : (do resume (.ok ()); repopulate) = repopulate := pure_bind () _
  rw [Environment.refill, hresume, result, run_bind, run_bind, run_outcome]
  cases repopulate.run s with
  | none => rfl
  | some r =>
    obtain ⟨(cause | payload) | _, u⟩ := r <;> rfl

/-- A rebuild whose files have been put back completes if its index is still being rebuilt. -/
theorem run_concludeRebuild (horacle : env.oracle = .registry) (index : IndexId)
    (s : ServiceState S C) :
    ∃ t, (env.concludeRebuild index (.ok ())).run s =
        some (.ok (if s.registry.canFinish index then .completed else .rescheduled), t) ∧
      t.scene = { s.scene with registry := s.registry.markFinished index } := by
  have hend : ∀ s : ServiceState S C, (s.endRebuild index).scene =
      { s.scene with registry := s.registry.markFinished index } := by
    intro s
    unfold ServiceState.endRebuild
    split
    · exact s.scene_moveRegistry index _
    · exact (ServiceState.scene_note _ rfl).trans (s.scene_moveRegistry index _)
  have hfinish : (env.oracle.finish index).Yields s.scene (.ok (s.registry.canFinish index))
      { s.scene with registry := s.registry.markFinished index } := by
    rw [horacle]
    refine (yields_access (v := s.registry.canFinish index)
      (y := { s.scene with registry := s.registry.markFinished index }) fun u hu => ?_).bind ?_
    · have hregistry : u.registry = s.registry := congrArg Scene.registry hu
      rw [hend, hregistry, hu]
      exact ⟨rfl, rfl⟩
    · split <;> exact (yields_log _ _).bind (yields_pure _ _)
  have hconclude : (env.concludeRebuild index (.ok ())).Yields s.scene
      (.ok (if s.registry.canFinish index then .completed else .rescheduled))
      { s.scene with registry := s.registry.markFinished index } := by
    refine yields_access_bind fun u hu => ⟨hu, hfinish.bind ?_⟩
    split <;> exact yields_pure _ _
  exact hconclude s rfl

/-- A rebuild whose files could not be put back ends with the error. -/
theorem concludeRebuild_error_fails (cause : Error) :
    (env.concludeRebuild index (.error cause)).Leaves s fun r _ => ∃ failure, r = .error failure :=
  leaves_bind_of_forall (fun _ _ => leaves_fail ⟨_, rfl⟩) fun failure _ => ⟨failure, rfl⟩

/-- Without a refilling there is no completion. -/
theorem refill_error_fails (failure : Failure) (repopulate : ServiceAction S C Unit) :
    (env.refill index (.error failure) repopulate).Leaves s fun r _ =>
      ∃ failure, r = .error failure := by
  refine leaves_bind (fun r _ => ∀ filled, r = .ok filled → ∃ cause, filled = .error cause)
    (leaves_result (leaves_bind (fun r _ => r = .error failure) (leaves_resume rfl) ?_ ?_)) ?_ ?_
  · rintro _ _ ⟨⟩
  · rintro (cause | payload) _ _ <;> simp
  · intro filled t hfilled
    obtain ⟨cause, rfl⟩ := hfilled filled rfl
    exact concludeRebuild_error_fails cause
  · exact fun failure _ _ => ⟨failure, rfl⟩

/-! ## When a rebuild completes -/

/-- A session that ends normally while its index is being rebuilt completes the rebuild. -/
theorem completed_of_session (horacle : env.oracle = .registry) {f : Filling S C}
    {filled : Filled S C} (hsession : env.session index f s = some filled)
    (hresult : filled.result = .ok ())
    (hrunning : filled.state.registry.state index = .running) :
    ∃ t, (env.rebuildIndex index (f.action env index)).run s = some (.ok .completed, t) ∧
      t.world = filled.state.world := by
  obtain ⟨hregistered, run, t, hclaim, hfilled⟩ := Environment.session_eq_some.1 hsession
  obtain ⟨u, hconclude, hu⟩ := run_concludeRebuild horacle index filled.state
  have hcan : filled.state.registry.canFinish index = true := by
    simpa [RebuildRegistry.canFinish] using hrunning
  rw [if_pos hcan] at hconclude
  have hworld : u.world = filled.state.world := congrArg Scene.world hu
  refine ⟨u.note (.rebuildEnded index run (some .completed)), ?_, hworld⟩
  rw [run_rebuildIndex hregistered hclaim, run_refill, Filling.run_action, hfilled]
  simp only [Option.map_some, Option.bind_some, hresult, hconclude]
  rfl

/-- What follows the program that puts the files back completes a rebuild only if that program ended
normally and the index is still being rebuilt. -/
theorem of_concludes_completed (horacle : env.oracle = .registry) {result : Except Failure Unit}
    (hrun : (match result with
      | .ok () => (env.concludeRebuild index (.ok ())).run s
      | .error (.error cause) => (env.concludeRebuild index (.error cause)).run s
      | .error (.panic payload) => some (.error (.panic payload), s)) = some (.ok .completed, t)) :
    result = .ok () ∧ s.registry.state index = .running := by
  obtain (cause | payload) | _ := result
  · obtain ⟨_, hfailed⟩ := concludeRebuild_error_fails cause _ _ hrun
    cases hfailed
  · cases hrun
  · obtain ⟨u, hconclude, -⟩ := run_concludeRebuild horacle index s
    have hended := Except.ok.inj (congrArg Prod.fst (Option.some.inj (hconclude.symm.trans hrun)))
    refine ⟨rfl, Classical.byContradiction fun hother => ?_⟩
    rw [if_neg (by simpa [RebuildRegistry.canFinish] using hother)] at hended
    cases hended

/-- A rebuild that completes had such a session. -/
theorem session_of_completed (horacle : env.oracle = .registry) {f : Filling S C}
    (hrun : (env.rebuildIndex index (f.action env index)).run s = some (.ok .completed, t)) :
    ∃ filled, env.session index f s = some filled ∧ filled.result = .ok () ∧
      filled.state.registry.state index = .running := by
  have hread : (isRegistered index).run s = some (.ok (s.isRegistered index), s) := rfl
  have hclaimed := hrun
  rw [Environment.rebuildIndex, run_bind, hread] at hclaimed
  cases hregistered : s.isRegistered index with
  | false =>
    rw [hregistered] at hclaimed
    cases hclaimed
  | true =>
    simp only [hregistered, Option.bind_some, Bool.not_true, Bool.false_eq_true,
      if_false] at hclaimed
    rw [run_bind] at hclaimed
    obtain ⟨⟨failure | _ | ⟨run, cleared⟩, u⟩, hclaim, hend⟩ := Option.bind_eq_some_iff.1 hclaimed
    · cases hend
    · cases hend
    · rw [run_rebuildIndex hregistered hclaim] at hrun
      obtain ⟨⟨r, v⟩, hrefill, hr⟩ := Option.map_eq_some_iff.1 hrun
      obtain ⟨rfl, -⟩ := Prod.mk.inj hr
      cases cleared with
      | error failure =>
        obtain ⟨_, hfailed⟩ := refill_error_fails failure _ _ _ hrefill
        cases hfailed
      | ok _ =>
        rw [run_refill, Filling.run_action] at hrefill
        obtain ⟨⟨result, w⟩, hfilling, hconclude⟩ := Option.bind_eq_some_iff.1 hrefill
        obtain ⟨filled, hfilled, hend⟩ := Option.map_eq_some_iff.1 hfilling
        obtain ⟨rfl, rfl⟩ := Prod.mk.inj hend
        obtain ⟨hresult, hrunning⟩ := of_concludes_completed horacle hconclude
        exact ⟨filled, Environment.session_eq_some.2 ⟨hregistered, run, u, hclaim, hfilled⟩,
          hresult, hrunning⟩

/-- A rebuild completes exactly if its program ends normally and its index is still being rebuilt
then.  What the files came to does not matter. -/
theorem rebuildIndex_completes_iff (horacle : env.oracle = .registry) {f : Filling S C}
    {r : Except Failure RebuildRun}
    (hrun : (env.rebuildIndex index (f.action env index)).run s = some (r, t)) :
    r = .ok .completed ↔ ∃ filled, env.session index f s = some filled ∧ filled.result = .ok () ∧
      filled.state.registry.state index = .running := by
  constructor
  · rintro rfl
    exact session_of_completed horacle hrun
  · rintro ⟨filled, hsession, hresult, hrunning⟩
    obtain ⟨t', hrun', -⟩ := completed_of_session horacle hsession hresult hrunning
    exact congrArg Prod.fst (Option.some.inj (hrun.symm.trans hrun'))

/-! ## Fillings that pass failures on -/

/-- No call of a session failed. -/
def Filled.IsClean (filled : Filled S C) : Prop :=
  ∀ call ∈ filled.calls, ∃ changed, call = .ok changed

namespace Filling

/-- A filling that does not end normally, whatever happens. -/
def Fails : Filling S C → Prop
  | .done result => result ≠ .ok ()
  | .step _ _ next => ∀ s, (next s).Fails
  | .call _ _ next => ∀ r, (next r).Fails

/-- A filling that does not end normally once a file could not be put back. -/
def PassesOn : Filling S C → Prop
  | .done _ => True
  | .step _ _ next => ∀ s, (next s).PassesOn
  | .call _ _ next =>
    (∀ changed, (next (.ok changed)).PassesOn) ∧ ∀ failure, (next (.error failure)).Fails

/-- Putting files back until one of them fails passes the failure on. -/
theorem passesOn_ofFiles (files : List (InputId × FileContent)) :
    (ofFiles files : Filling S C).PassesOn := by
  induction files with
  | nil => trivial
  | cons file rest ih => exact ⟨fun _ => ih, fun _ => by simp [Fails]⟩

theorem Fails.run {f : Filling S C} (hf : f.Fails) {filled : Filled S C}
    (hrun : f.run env index s = some filled) : filled.result ≠ .ok () := by
  induction f generalizing s filled with
  | done result =>
    obtain rfl := Option.some.inj hrun
    exact hf
  | step ready act next ih =>
    rw [Filling.run] at hrun
    split at hrun
    · exact ih s (hf s) hrun
    · cases hrun
  | call input content next ih =>
    obtain ⟨r, t, rest, -, hrest, rfl⟩ := run_call_eq_some.1 hrun
    have hfails := ih r (hf r) hrest
    exact hfails

/-- If a filling that passes failures on ends normally, there were none. -/
theorem PassesOn.run {f : Filling S C} (hf : f.PassesOn) {filled : Filled S C}
    (hrun : f.run env index s = some filled) (hresult : filled.result = .ok ()) :
    filled.IsClean := by
  induction f generalizing s filled with
  | done result =>
    obtain rfl := Option.some.inj hrun
    simp [Filled.IsClean]
  | step ready act next ih =>
    rw [Filling.run] at hrun
    split at hrun
    · exact ih s (hf s) hrun hresult
    · cases hrun
  | call input content next ih =>
    obtain ⟨r, t, rest, -, hrest, rfl⟩ := run_call_eq_some.1 hrun
    cases r with
    | error failure =>
      have hfails := (hf.2 failure).run hrest
      exact absurd hresult hfails
    | ok changed =>
      have hclean := ih (.ok changed) (hf.1 changed) hrest hresult
      exact List.forall_mem_cons.2 ⟨⟨changed, rfl⟩, hclean⟩

end Filling

/-- A rebuild that completes with a filling that passes failures on had none. -/
theorem rebuildIndex_clean_of_passesOn (horacle : env.oracle = .registry) {f : Filling S C}
    (hf : f.PassesOn)
    (hrun : (env.rebuildIndex index (f.action env index)).run s = some (.ok .completed, t)) :
    ∃ filled, env.session index f s = some filled ∧ filled.IsClean := by
  obtain ⟨filled, hsession, hresult, -⟩ := session_of_completed horacle hrun
  obtain ⟨-, _, _, -, hfilled⟩ := Environment.session_eq_some.1 hsession
  exact ⟨filled, hsession, hf.run hfilled hresult⟩

/-! ## The result -/

/-- That a rebuild completes means that all files of its session were put back, exactly if a session
in which one of them failed does not end normally with the index still being rebuilt. -/
theorem completed_clean_iff (env : Environment S U C) (horacle : env.oracle = .registry)
    (index : IndexId) (f : Filling S C) (s t : ServiceState S C) (r : Except Failure RebuildRun)
    (hrun : (env.rebuildIndex index (f.action env index)).run s = some (r, t)) :
    (r = .ok .completed → ∃ filled, env.session index f s = some filled ∧ filled.IsClean) ↔
      ∀ filled, env.session index f s = some filled → ¬ filled.IsClean →
        filled.result ≠ .ok () ∨ filled.state.registry.state index ≠ .running := by
  have hcompletes := rebuildIndex_completes_iff horacle hrun
  constructor
  · intro hclean filled hsession hdirty
    refine not_and_or.1 fun hnormal => hdirty ?_
    obtain ⟨filled', hsession', hclean'⟩ := hclean (hcompletes.2 ⟨filled, hsession, hnormal⟩)
    obtain rfl := Option.some.inj (hsession.symm.trans hsession')
    exact hclean'
  · intro hdirty hr
    obtain ⟨filled, hsession, hresult, hrunning⟩ := hcompletes.1 hr
    refine ⟨filled, hsession, Classical.byContradiction fun hnot => ?_⟩
    rcases hdirty filled hsession hnot with hfailed | hleft
    · exact hfailed hresult
    · exact hleft hrunning

namespace Sample

/-- Puts a file back that cannot be stored, and ends with the failure. -/
def heedful : Filling (MemoryIndex Nat Nat) Unit := .ofFiles [(⟨1⟩, content 3)]

/-- Puts that file back as well, but does not mind the failure. -/
def heedless : Filling (MemoryIndex Nat Nat) Unit :=
  .call ⟨1⟩ (content 3) fun _ => .done (.ok ())

end Sample

/-- A rebuild whose filling passes the failure on does not complete. -/
theorem completed_clean_iff_heedful : ∃ r t filled,
    (Sample.fragility.rebuildIndex Sample.sizes
        (Sample.heedful.action Sample.fragility Sample.sizes)).run Sample.damaged = some (r, t) ∧
      r = .error (.error (.storage "disk full")) ∧
      Sample.fragility.session Sample.sizes Sample.heedful Sample.damaged = some filled ∧
      filled.calls = [.error (.error (.storage "disk full"))] ∧
      (filled.result ≠ .ok () ∨ filled.state.registry.state Sample.sizes ≠ .running) := by
  have hend : ((Sample.fragility.rebuildIndex Sample.sizes
      (Sample.heedful.action Sample.fragility Sample.sizes)).run Sample.damaged).map Prod.fst =
        some (.error (.error (.storage "disk full"))) := rfl
  have hcalls : (Sample.fragility.session Sample.sizes Sample.heedful Sample.damaged).map
      Filled.calls = some [.error (.error (.storage "disk full"))] := rfl
  obtain ⟨⟨r, t⟩, hrun, rfl⟩ := Option.map_eq_some_iff.1 hend
  obtain ⟨filled, hsession, hcalls⟩ := Option.map_eq_some_iff.1 hcalls
  have hdirty : ¬ filled.IsClean := by simp [Filled.IsClean, hcalls]
  exact ⟨_, t, filled, hrun, rfl, hsession, hcalls,
    (completed_clean_iff Sample.fragility rfl Sample.sizes Sample.heedful Sample.damaged t _ hrun).1
      nofun filled hsession hdirty⟩

/-- A rebuild completes although the only file of its session could not be stored. -/
theorem completed_unclean : ∃ filled t,
    (Sample.fragility.rebuildIndex Sample.sizes
        (Sample.heedless.action Sample.fragility Sample.sizes)).run Sample.damaged =
          some (.ok .completed, t) ∧
      Sample.fragility.session Sample.sizes Sample.heedless Sample.damaged = some filled ∧
      filled.calls = [.error (.error (.storage "disk full"))] ∧ ¬ filled.IsClean ∧
      t.registry.state Sample.sizes = .ok := by
  have hend : ((Sample.fragility.rebuildIndex Sample.sizes
      (Sample.heedless.action Sample.fragility Sample.sizes)).run Sample.damaged).map
        (fun r => (r.1, r.2.registry.state Sample.sizes)) = some (.ok .completed, .ok) := rfl
  have hcalls : (Sample.fragility.session Sample.sizes Sample.heedless Sample.damaged).map
      Filled.calls = some [.error (.error (.storage "disk full"))] := rfl
  obtain ⟨⟨r, t⟩, hrun, hr⟩ := Option.map_eq_some_iff.1 hend
  obtain ⟨rfl, hok⟩ := Prod.mk.inj hr
  obtain ⟨filled, hsession, hcalls⟩ := Option.map_eq_some_iff.1 hcalls
  exact ⟨filled, t, hrun, hsession, hcalls, by simp [Filled.IsClean, hcalls], hok⟩

end FileIndexing
