import FileIndexing.Proofs.Overlap

/-!
# What a rebuild leaves behind

A rebuild that has claimed its index is the only one who can make the index usable again, so it
matters in which state it leaves the index on every way out.  This module looks at a rebuild that
is run alone, with any clearing and any putting back of files that neither claims nor ends a
rebuild of the same index by itself.

* `ServiceState.Spares` is the condition on the accesses of the clearing and of the caller's
  program.  `spares_runAll` says that commands meet it as long as they do not rebuild the index.
* `ServiceState.Claimed` follows the state of the index from its claim on, and `Aftermath` lists the
  ways in which the rebuild comes to its end.
* `rebuildIndex_settles_iff` is the result: a rebuild that completes leaves the index consistent,
  and one that does not leaves it scheduled, exactly when it does not panic or a rebuild was
  requested before the panic.
-/

namespace FileIndexing

variable {S U C : Type}

/-! ## Sparing an index -/

/-- Whether an event schedules a rebuild of an index. -/
def Event.schedules (index : IndexId) (event : Event) : Bool :=
  event.movesTo? index = some .required

theorem Event.schedules_of_isIncidental {event : Event} (index : IndexId)
    (h : event.isIncidental = true) : event.schedules index = false := by
  cases event <;> simp_all [isIncidental, isRemark, schedules, movesTo?]

namespace ServiceState

/-- An access, or several of them, that neither claims nor ends a rebuild of an index: the state of
the index is as it was, or a rebuild of it was scheduled. -/
def Spares (index : IndexId) (s t : ServiceState S C) : Prop :=
  ∃ events : List Event, t.journal = events ++ s.journal ∧
    t.registry.state index =
      if events.any (·.schedules index) then .required else s.registry.state index

/-- An index that was scheduled in the earlier state has been claimed since, and nobody has ended
the rebuild. -/
def Claimed (index : IndexId) (s t : ServiceState S C) : Prop :=
  ∃ events : List Event, t.journal = events ++ s.journal ∧
    t.registry.state index = if events.any (·.schedules index) then .required else .running

variable {index : IndexId} {s t u : ServiceState S C}

theorem Spares.of_eq (hjournal : t.journal = s.journal)
    (hstate : t.registry.state index = s.registry.state index) : s.Spares index t :=
  ⟨[], by simp [hjournal], by simp [hstate]⟩

theorem Spares.refl (index : IndexId) (s : ServiceState S C) : s.Spares index s := .of_eq rfl rfl

theorem Spares.trans (h : s.Spares index t) (h' : t.Spares index u) : s.Spares index u := by
  obtain ⟨events, hjournal, hstate⟩ := h
  obtain ⟨events', hjournal', hstate'⟩ := h'
  refine ⟨events' ++ events, by rw [hjournal', hjournal, List.append_assoc], ?_⟩
  rw [hstate', hstate, List.any_append]
  cases events'.any (·.schedules index) <;> simp

theorem Claimed.spares (h : s.Claimed index t) (h' : t.Spares index u) : s.Claimed index u := by
  obtain ⟨events, hjournal, hstate⟩ := h
  obtain ⟨events', hjournal', hstate'⟩ := h'
  refine ⟨events' ++ events, by rw [hjournal', hjournal, List.append_assoc], ?_⟩
  rw [hstate', hstate, List.any_append]
  cases events'.any (·.schedules index) <;> simp

/-- A claimed index is scheduled or being rebuilt, according to what was noted since. -/
theorem Claimed.state_eq (h : s.Claimed index t) :
    t.registry.state index =
      if (s.eventsUntil t).any (·.schedules index) then .required else .running := by
  obtain ⟨events, hjournal, hstate⟩ := h
  rwa [eventsUntil_of_journal events hjournal]

theorem Spares.note (s : ServiceState S C) {event : Event} (h : event.schedules index = false) :
    s.Spares index (s.note event) := ⟨[event], rfl, by simp [h]⟩

/-- What moves the state of one index spares all others, and spares that index if it schedules a
rebuild. -/
theorem Spares.moveRegistry (s : ServiceState S C) {other : IndexId} {registry : RebuildRegistry}
    (hstate : registry.state index =
      if other = index then .required else s.registry.state index) :
    s.Spares index (s.moveRegistry other registry) := by
  refine ⟨if s.registry.state other = registry.state other then [] else
    [.moved other (s.registry.state other) (registry.state other)], ?_, ?_⟩
  · rw [journal_moveRegistry]
    split <;> rfl
  · rw [registry_moveRegistry, hstate]
    by_cases hother : other = index
    · subst hother
      rw [hstate, if_pos rfl]
      by_cases hrequired : s.registry.state other = .required <;>
        simp [hrequired, Event.schedules, Event.movesTo?]
    · rw [if_neg hother]
      split <;> simp [Event.schedules, Event.movesTo?, hother]

theorem spares_numberRun (other : IndexId) (s : ServiceState S C) :
    s.Spares index ({ s with runs := s.runs + 1 }.note (.rebuildBegan other s.runs)) :=
  ⟨[_], rfl, by simp [ServiceState.note, Event.schedules, Event.movesTo?]⟩

theorem Discreet.spares (h : s.Discreet t) (index : IndexId) : s.Spares index t := by
  cases h with
  | quiet events _ hstates hincidental hjournal =>
    have hquiet : events.any (·.schedules index) = false := by
      simpa using fun event hevent =>
        Event.schedules_of_isIncidental index (hincidental event hevent)
    exact ⟨events, hjournal, by simp [hquiet, hstates]⟩
  | request other => exact .moveRegistry s (RebuildRegistry.state_markRequired _ other index)

end ServiceState

open ServiceState Service FileIndexing.Action

/-! ## Commands that spare an index -/

section Commands

variable {env : Environment S U C} {index : IndexId}

theorem spareQuietClass (horacle : env.oracle = .registry) (index : IndexId) :
    QuietClass env (Spares index) fun {_} a => a.program.Every (Spares index) where
  toActionClass := .ofEvery _
  still _ _ h := h.discreet.spares index
  request s other := Discreet.spares (.request s other) index
  oracle := horacle

theorem spareClass (horacle : env.oracle = .registry) (hhandle : env.handle.IsDiscreet)
    (index : IndexId) :
    ServiceClass env (Spares index) fun {_} a => a.program.Every (Spares index) :=
  .of_discreet (.ofEvery _) (fun _ _ h => h.spares index) horacle hhandle

theorem spares_note {event : Event} (h : event.schedules index = false) :
    (note event : ServiceAction S C Unit).program.Every (Spares index) :=
  (ActionClass.ofEvery _).update fun s => .note s h

/-- What spares an index does so under a lock as well. -/
theorem spares_withIndexLock {α : Type} (other : IndexId) {a : ServiceAction S C α}
    (ha : a.program.Every (Spares index)) : (withIndexLock other a).program.Every (Spares index) :=
  (ActionClass.ofEvery (Spares index)).mem_withIndexLock (fun _ _ => .of_eq rfl rfl) other ha

/-- Applying an update spares all indices. -/
theorem spares_applyUpdate (horacle : env.oracle = .registry) (hhandle : env.handle.IsDiscreet)
    (origin : Origin) (update : PreparedUpdate U) :
    (env.applyUpdate origin update).program.Every (Spares index) := by
  have hP := spareClass horacle hhandle index
  exact hP.calls.mem_applyUpdate (spares_note rfl) (fun _ => spares_note rfl)
    (hP.mem_of_discreet (hhandle.apply update))

/-- Rebuilding another index spares an index, if the putting back of files does. -/
theorem spares_rebuildIndex (horacle : env.oracle = .registry) (hhandle : env.handle.IsDiscreet)
    {other : IndexId} (hne : other ≠ index) {repopulate : ServiceAction S C Unit}
    (hrepopulate : repopulate.program.Every (Spares index)) :
    (env.rebuildIndex other repopulate).program.Every (Spares index) := by
  have hP := spareClass horacle hhandle index
  have hstart : (env.oracle.start other).program.Every (Spares index) :=
    hP.mem_start <| hP.access fun s =>
      .moveRegistry s (by simp [RebuildRegistry.state_markRunning, hne])
  have hfinish : (env.oracle.finish other).program.Every (Spares index) := by
    refine hP.mem_finish (hP.access fun s => ?_)
    have hmove : s.Spares index (s.moveRegistry other (s.registry.markFinished other)) :=
      .moveRegistry s (by simp [RebuildRegistry.state_markFinished, hne])
    unfold endRebuild
    split
    · exact hmove
    · exact hmove.trans (.note _ rfl)
  have hnumber : (Environment.numberRun other : ServiceAction S C Nat).program.Every
      (Spares index) := hP.access fun s => spares_numberRun other s
  have hclear : (env.clearIndex other).program.Every (Spares index) :=
    hP.calls.mem_clearIndex (spares_note rfl) (fun _ => spares_note rfl)
      (hP.mem_of_discreet (hhandle.clear other))
  have hclaim : (env.claimAndClear other).program.Every (Spares index) :=
    hP.calls.mem_claimAndClear (spares_withIndexLock other) hstart hnumber
      (hP.mem_withStructuralLock hclear)
  exact hP.calls.mem_rebuildIndex hclaim hfinish (fun _ _ => spares_note rfl) hrepopulate

/-- Commands spare an index as long as they do not rebuild it. -/
theorem spares_runAll (horacle : env.oracle = .registry) (hhandle : env.handle.IsDiscreet)
    (session : Option IndexId) {commands : List Command}
    (hcommands : Command.RebuildsOnlyAll (· ≠ index) commands) :
    (Command.runAll env session commands).program.Every (Spares index) := by
  have hP := spareClass horacle hhandle index
  have hclass : CommandClass env (· ≠ index) (Spares index)
      fun {_} a => a.program.Every (Spares index) := {
    hP.toActionClass with
    still := hP.still
    execute := hP.work.mem_execute fun update =>
      hP.calls.mem_runUpdateUnless (spares_withIndexLock update.index)
        (spares_applyUpdate horacle hhandle .operation update)
    request := hP.calls.request
    rebuild := fun _ hne _ => spares_rebuildIndex horacle hhandle hne
    indexFile := hP.work.mem_indexFile fun update =>
      spares_withIndexLock update.index (spares_applyUpdate horacle hhandle .rebuild update)
    indexingState := hP.work.mem_indexingState }
  exact hclass.mem_runAll session commands hcommands

end Commands

/-! ## The ends of a rebuild -/

/-- How a rebuild that claimed its index comes to its end, and what the state of the index is
then. -/
inductive Aftermath (index : IndexId) (s : ServiceState S C) :
    Except Failure RebuildRun → ServiceState S C → Prop where
  | completed {t : ServiceState S C} : t.registry.state index = .ok →
      Aftermath index s (.ok .completed) t
  | rescheduled {t : ServiceState S C} : t.registry.state index = .required →
      Aftermath index s (.ok .rescheduled) t
  | failed {t : ServiceState S C} {cause : Error} : t.registry.state index = .required →
      Aftermath index s (.error (.error cause)) t
  /-- Nothing is done about a panic. -/
  | panicked {t : ServiceState S C} {payload : Payload} : s.Claimed index t →
      Aftermath index s (.error (.panic payload)) t

section Ends

variable {env : Environment S U C} {index : IndexId} {s t : ServiceState S C}

/-- Noting an incidental event changes nothing about how a rebuild ended. -/
theorem Aftermath.note {r : Except Failure RebuildRun} (h : Aftermath index s r t) {event : Event}
    (hevent : event.schedules index = false) : Aftermath index s r (t.note event) := by
  cases h with
  | completed hok => exact .completed hok
  | rescheduled hrequired => exact .rescheduled hrequired
  | failed hrequired => exact .failed hrequired
  | panicked hclaimed => exact .panicked (hclaimed.spares (.note t hevent))

/-- What spares an index leaves it claimed. -/
theorem Action.leaves_claimed {α : Type} {a : ServiceAction S C α}
    (ha : a.program.Every (Spares index)) (hclaimed : s.Claimed index t) :
    a.Leaves t fun _ u => s.Claimed index u :=
  (leaves_of_every (Spares.refl index) (fun _ _ _ => Spares.trans) ha).mono
    fun _ _ hspares => hclaimed.spares hspares

/-- The claim of an index that is scheduled succeeds. -/
theorem start_leaves (horacle : env.oracle = .registry)
    (hrequired : s.registry.state index = .required) :
    (env.oracle.start index).Leaves s fun r t => r = .ok true ∧ s.Claimed index t := by
  rw [horacle]
  refine leaves_access_bind ?_
  have hcan : s.registry.canStart index = true := by simp [RebuildRegistry.canStart, hrequired]
  have hclaimed : s.Claimed index (s.moveRegistry index (s.registry.markRunning index)) := by
    refine ⟨[.moved index .required .running], ?_, ?_⟩
    · simp [journal_moveRegistry, RebuildRegistry.state_markRunning, hrequired]
    · simp [RebuildRegistry.state_markRunning, hrequired, Event.schedules, Event.movesTo?]
  simp only [hcan, if_true]
  exact leaves_access_bind (leaves_pure ⟨rfl, hclaimed.spares (.note _ rfl)⟩)

/-- A scheduled index is claimed, and stays so while it is cleared. -/
theorem claimAndClear_leaves (horacle : env.oracle = .registry)
    (hclear : (env.handle.clear index).program.Every (Spares index))
    (hrequired : s.registry.state index = .required) :
    (env.claimAndClear index).Leaves s fun r t =>
      ∃ run cleared, r = .ok (some (run, cleared)) ∧ s.Claimed index t := by
  have hP := spareQuietClass horacle index
  have hwork : (withStructuralLock (env.clearIndex index)).program.Every (Spares index) :=
    hP.mem_withStructuralLock (fun _ _ => .of_eq rfl rfl)
      (hP.calls.mem_clearIndex (spares_note rfl) (fun _ => spares_note rfl) hclear)
  refine leaves_withIndexLock fun lock locks _ _ => ?_
  have hlocked : ({ s with locks := locks.acquire lock } : ServiceState S C).registry.state index =
      .required := hrequired
  refine leaves_bind _ (start_leaves horacle hlocked) ?_ ?_
  · intro started t hend
    obtain ⟨hstarted, hclaimed⟩ := hend
    obtain rfl := Except.ok.inj hstarted
    have hnumbered : ServiceState.Claimed index { s with locks := locks.acquire lock }
        ({ t with runs := t.runs + 1 }.note (.rebuildBegan index t.runs)) :=
      hclaimed.spares (spares_numberRun index t)
    refine leaves_access_bind (leaves_outcome_bind _ (leaves_claimed hwork hnumbered) ?_)
    intro cleared u hu
    exact leaves_pure ⟨t.runs, cleared, rfl, hu⟩
  · intro failure t hend
    cases hend.1

/-- A request leaves its index scheduled. -/
theorem request_leaves (horacle : env.oracle = .registry) (cause : RebuildCause) :
    (env.oracle.request index cause).Leaves t fun r u =>
      (∃ requested, r = .ok requested) ∧ u.registry.state index = .required := by
  rw [horacle]
  refine leaves_access_bind ?_
  have hrequired : (t.moveRegistry index (t.registry.markRequired index)).registry.state index =
      .required := by simp [RebuildRegistry.state_markRequired]
  dsimp only
  split
  · exact leaves_pure ⟨⟨_, rfl⟩, hrequired⟩
  · exact leaves_access_bind (leaves_access_bind (leaves_access_bind
      (leaves_pure ⟨⟨_, rfl⟩, by simpa [ServiceState.note] using hrequired⟩)))

/-- What is treated as damage leaves its index scheduled. -/
theorem requestRebuildOnError_leaves (horacle : env.oracle = .registry) (cause : Error) :
    (env.requestRebuildOnError cause index).Leaves t fun r u =>
      r = .ok () ∧ u.registry.state index = .required := by
  refine leaves_access_bind (leaves_bind _ (request_leaves horacle _) ?_ ?_)
  · exact fun _ u hend => leaves_pure ⟨rfl, hend.2⟩
  · rintro failure u ⟨⟨_, hr⟩, -⟩
    cases hr

/-- A rebuild that failed requests a new one before it raises its error. -/
theorem concludeRebuild_error_leaves (horacle : env.oracle = .registry) (cause : Error) :
    (env.concludeRebuild index (.error cause)).Leaves t (Aftermath index s) := by
  refine leaves_bind _ (requestRebuildOnError_leaves horacle cause) ?_ ?_
  · exact fun _ u hend => leaves_fail (.failed hend.2)
  · intro failure u hend
    cases hend.1

/-- A rebuild whose files have been put back ends, unless another one was requested. -/
theorem concludeRebuild_ok_leaves (horacle : env.oracle = .registry)
    (hclaimed : s.Claimed index t) :
    (env.concludeRebuild index (.ok ())).Leaves t (Aftermath index s) := by
  refine leaves_access_bind ?_
  rw [horacle]
  -- Counting the modification leaves the index claimed, so that its state is one of two.
  have hbumped : s.Claimed index { t with modCount := t.modCount + 1 } :=
    hclaimed.spares (.of_eq rfl rfl)
  generalize ({ t with modCount := t.modCount + 1 } : ServiceState S C) = u at hbumped
  refine leaves_bind (fun r v => ∃ finished, r = .ok finished ∧
    v.registry.state index = if finished then .ok else .required) ?_ ?_ ?_
  · have hstate := hbumped.state_eq
    refine leaves_access_bind ?_
    have hended : (u.endRebuild index).registry.state index =
        if u.registry.canFinish index then .ok else .required := by
      rw [registry_endRebuild, RebuildRegistry.state_markFinished, RebuildRegistry.canFinish]
      cases hany : (s.eventsUntil u).any (·.schedules index) <;> simp [hstate, hany]
    dsimp only
    split <;>
      exact leaves_access_bind (leaves_pure ⟨_, rfl, by simpa [ServiceState.note] using hended⟩)
  · rintro finished v ⟨_, hfinished, hstate⟩
    obtain rfl := Except.ok.inj hfinished
    cases finished with
    | true => exact leaves_pure (.completed hstate)
    | false => exact leaves_pure (.rescheduled hstate)
  · rintro failure v ⟨_, hr, -⟩
    cases hr

/-- A rebuild that claims its index comes to one of its ends. -/
theorem rebuildIndex_leaves (horacle : env.oracle = .registry)
    (hclear : (env.handle.clear index).program.Every (Spares index))
    {repopulate : ServiceAction S C Unit} (hrepopulate : repopulate.program.Every (Spares index))
    (hregistered : s.isRegistered index = true) (hrequired : s.registry.state index = .required) :
    (env.rebuildIndex index repopulate).Leaves s (Aftermath index s) := by
  have hP := ActionClass.ofEvery (Spares (S := S) (C := C) index)
  have hconclude : ∀ filled t, s.Claimed index t →
      (env.concludeRebuild index filled).Leaves t (Aftermath index s) := by
    intro filled t hclaimed
    rcases filled with cause | _
    · exact concludeRebuild_error_leaves horacle cause
    · exact concludeRebuild_ok_leaves horacle hclaimed
  refine leaves_access_bind ?_
  simp only [hregistered, Bool.not_true, Bool.false_eq_true, if_false]
  refine leaves_bind _ (claimAndClear_leaves horacle hclear hrequired) ?_ ?_
  · rintro _ t ⟨run, cleared, hr, hclaimed⟩
    obtain rfl := Except.ok.inj hr
    have hfill : (do resume cleared; repopulate : ServiceAction S C Unit).program.Every
        (Spares index) := hP.bind (hP.resume cleared) fun _ => hrepopulate
    refine leaves_outcome_bind (Aftermath index s) ?_ ?_
    · refine leaves_bind (fun r u => s.Claimed index u ∧ ∀ cause, r ≠ .error (.error cause))
        (leaves_result ((leaves_claimed hfill hclaimed).mono ?_)) ?_ ?_
      · rintro ((cause | payload) | _) u hu <;> exact ⟨hu, by simp⟩
      · exact fun filled u hend => hconclude filled u hend.1
      · rintro (cause | payload) u ⟨hu, hpanic⟩
        · exact absurd rfl (hpanic cause)
        · exact .panicked hu
    · exact fun r u hend => leaves_access_bind (leaves_resume (hend.note rfl))
  · rintro failure t ⟨_, _, hr, -⟩
    cases hr

end Ends

/-! ## The result -/

/-- What a rebuild that claimed its index owes to it: the index is consistent exactly when the
rebuild completed, and scheduled otherwise. -/
structure Settles (index : IndexId) (r : Except Failure RebuildRun) (t : ServiceState S C) :
    Prop where
  ok_iff : t.registry.state index = .ok ↔ r = .ok .completed
  required : r ≠ .ok .completed → t.registry.state index = .required
  notRunning : t.registry.state index ≠ .running

/-- A rebuild that claims its index settles it, however the clearing and the putting back of files
end, exactly when a panic does not come before any further request. -/
theorem rebuildIndex_settles_iff (env : Environment S U C) (horacle : env.oracle = .registry)
    (index : IndexId) (hclear : (env.handle.clear index).program.Every (Spares index))
    (repopulate : ServiceAction S C Unit) (hrepopulate : repopulate.program.Every (Spares index))
    (s : ServiceState S C) (hregistered : s.isRegistered index = true)
    (hrequired : s.registry.state index = .required)
    (r : Except Failure RebuildRun) (t : ServiceState S C)
    (hrun : (env.rebuildIndex index repopulate).run s = some (r, t)) :
    Settles index r t ↔
      ((∃ payload, r = .error (.panic payload)) →
        ∃ event ∈ s.eventsUntil t, event.schedules index = true) := by
  have hend := rebuildIndex_leaves horacle hclear hrepopulate hregistered hrequired r t hrun
  cases hend with
  | completed hok => exact ⟨by simp, fun _ => ⟨by simp [hok], by simp, by simp [hok]⟩⟩
  | rescheduled hscheduled =>
    exact ⟨by simp, fun _ => ⟨by simp [hscheduled], fun _ => hscheduled, by simp [hscheduled]⟩⟩
  | failed hscheduled =>
    exact ⟨by simp, fun _ => ⟨by simp [hscheduled], fun _ => hscheduled, by simp [hscheduled]⟩⟩
  | panicked hclaimed =>
    have hstate := hclaimed.state_eq
    refine ⟨fun hsettles _ => ?_, fun hrequested => ?_⟩
    · refine List.any_eq_true.1 (Classical.byContradiction fun hnone => ?_)
      rw [if_neg hnone] at hstate
      exact hsettles.notRunning hstate
    · rw [if_pos (List.any_eq_true.2 (hrequested ⟨_, rfl⟩))] at hstate
      exact ⟨by simp [hstate], fun _ => hstate, by simp [hstate]⟩

namespace Sample

/-- The service with its index scheduled for a rebuild. -/
def damaged : ServiceState (MemoryIndex Nat Nat) Unit :=
  { state with registry := (state.registry.request sizes ⟨"damage"⟩).2 }

/-- A rebuild that puts one file back and then ends abnormally. -/
def interrupted (failure : Failure) : ServiceAction (MemoryIndex Nat Nat) Unit RebuildRun :=
  environment.rebuildIndex sizes
    (Command.runAll environment (some sizes) [.indexFile ⟨1⟩ (content 3) true, .fail failure])

end Sample

/-- A rebuild that raises an error is scheduled again. -/
theorem rebuildIndex_settles_iff_failed :
    ∃ r t, (Sample.interrupted (.error lostResult)).run Sample.damaged = some (r, t) ∧
      r = .error (.error lostResult) ∧ Settles Sample.sizes r t := by
  have hend : ((Sample.interrupted (.error lostResult)).run Sample.damaged).map Prod.fst =
      some (.error (.error lostResult)) := rfl
  obtain ⟨⟨r, t⟩, hrun, rfl⟩ := Option.map_eq_some_iff.1 hend
  have hdiscreet : Sample.environment.handle.IsDiscreet := Handle.isDiscreet_ofStores _
  refine ⟨_, t, hrun, rfl, ?_⟩
  refine (rebuildIndex_settles_iff Sample.environment rfl Sample.sizes
    ((hdiscreet.clear _).mono fun _ _ h => h.spares _) _
    (spares_runAll rfl hdiscreet _ (by simp [Command.RebuildsOnlyAll, Command.RebuildsOnly]))
    Sample.damaged (by decide +kernel) (by decide +kernel) _ t hrun).2 ?_
  rintro ⟨payload, hr⟩
  cases hr

/-- A panic leaves the index as being rebuilt, by nobody. -/
theorem rebuildIndex_unsettled :
    ∃ r t, (Sample.interrupted (.panic (.text "boom"))).run Sample.damaged = some (r, t) ∧
      Sample.damaged.isRegistered Sample.sizes = true ∧
      Sample.damaged.registry.state Sample.sizes = .required ∧
      t.registry.state Sample.sizes = .running ∧ ¬ Settles Sample.sizes r t := by
  have hend : ((Sample.interrupted (.panic (.text "boom"))).run Sample.damaged).map
      (·.2.registry.state Sample.sizes) = some .running := by decide +kernel
  obtain ⟨⟨r, t⟩, hrun, hrunning⟩ := Option.map_eq_some_iff.1 hend
  exact ⟨r, t, hrun, by decide +kernel, by decide +kernel, hrunning,
    fun hsettles => hsettles.notRunning hrunning⟩

end FileIndexing
