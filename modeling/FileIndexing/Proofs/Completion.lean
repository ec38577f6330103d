import FileIndexing.Proofs.Registration

/-!
# Whatever is asked of a service comes to its end

A service that is used by one thread, in which nobody holds a lock or a mark and nothing is left to
the workers, does what it is asked to do and comes to its end, whatever its handles make of it.
They may fail and panic, as long as they do not wait.  Afterwards the service is as free as before.

* `Program.Attends.exists_run` says that a program that waits in the order of the ranks never waits
  in vain if nobody else holds anything.
* `Action.Completes` is about an action that is run alone, and `completes_of_patient` is about
  actions that are patient, do not fail and have nothing to do with the workers.
* `Environment.IsTidy` are the environments in which this holds of every call, and
  `Environment.IsTidy.completes_carryAll` is the result.
-/

namespace FileIndexing

open FileIndexing.Action Service ServiceState

/-! ## Running alone -/

section Alone

variable {S C α β : Type}

/-- Run alone by the only thread that holds anything, a program that waits in the order of the ranks
comes to its end. -/
theorem Program.Attends.exists_run {post : α → List Holding → Prop}
    {p : Program (ServiceState S C) α} {s : ServiceState S C} {l : List Holding}
    (h : p.Attends post l) (hheld : ∀ holding, s.amount holding = l.count holding) :
    ∃ a t l', p.run s = some (a, t) ∧ post a l' ∧
      ∀ holding, t.amount holding = l'.count holding := by
  induction p generalizing s l with
  | done a => exact ⟨a, s, l, rfl, h, hheld⟩
  | step ready act next ih =>
    obtain ⟨hwait, hnext⟩ := h
    -- what holds a need back is held by the thread itself, which then would not wait for it
    have hready : ready s = true := by
      rcases hwait with hready | ⟨need, hbelow, hmet⟩
      · exact hready s
      · refine hmet s ?_
        by_contra hblocked
        obtain ⟨holding, hpos, hrank⟩ := need.exists_blocker (eq_false_of_ne_true hblocked)
        rw [hheld] at hpos
        have hlower := hbelow holding (List.count_pos_iff.1 hpos)
        omega
    obtain ⟨l', hmove, hrest⟩ := hnext s hready
    have hheld' : ∀ holding, (act s).amount holding = l'.count holding := fun holding => by
      have hmoved := hmove holding (hheld holding).ge
      have hbefore := hheld holding
      omega
    obtain ⟨a, t, l'', hrun, hend⟩ := ih s hrest hheld'
    exact ⟨a, t, l'', by rw [Program.run, if_pos hready]; exact hrun, hend⟩

namespace Action

/-- Run alone where nobody holds anything, a patient action comes to its end, and nobody holds
anything then. -/
theorem Patient.exists_run {a : ServiceAction S C α} (ha : a.Patient 0) {s : ServiceState S C}
    (hs : s.IsFree) : ∃ r t, a.run s = some (r, t) ∧ t.IsFree := by
  obtain ⟨r, t, l, hrun, rfl, ht⟩ := (ha [] (by simp)).exists_run fun holding => hs holding
  exact ⟨r, t, hrun, fun holding => ht holding⟩

/-- Run alone where nobody holds anything and nothing is left to the workers, an action ends with an
answer, and leaves it so. -/
def Completes (a : ServiceAction S C α) : Prop :=
  ∀ s, s.IsFree → s.deferred.IsIdle →
    ∃ v t, a.run s = some (.ok v, t) ∧ t.IsFree ∧ t.deferred.IsIdle

theorem completes_pure (v : α) : (pure v : ServiceAction S C α).Completes := fun s hs hidle =>
  ⟨v, s, rfl, hs, hidle⟩

theorem Completes.bind {a : ServiceAction S C α} {k : α → ServiceAction S C β} (ha : a.Completes)
    (hk : ∀ v, (k v).Completes) : (a >>= k).Completes := by
  intro s hs hidle
  obtain ⟨v, t, hrun, ht, hidle'⟩ := ha s hs hidle
  obtain ⟨r, u, hrun', hu⟩ := hk v t ht hidle'
  exact ⟨r, u, by rw [run_bind, hrun]; exact hrun', hu⟩

theorem completes_each {f : α → ServiceAction S C Unit} (hf : ∀ a, (f a).Completes)
    (list : List α) : (each f list).Completes := by
  induction list with
  | nil => exact completes_pure ()
  | cons a rest ih => exact (hf a).bind fun _ => ih

/-- An access that gives and takes nothing. -/
theorem completes_access {f : ServiceState S C → α × ServiceState S C}
    (hsame : ∀ s : ServiceState S C, s.SameHoldings (f s).2)
    (hdeferred : ∀ s : ServiceState S C, (f s).2.deferred = s.deferred) : (access f).Completes := by
  intro s hs hidle
  refine ⟨_, _, run_access f s, fun holding => ((hsame s).amount_eq holding).trans (hs holding), ?_⟩
  rw [hdeferred]
  exact hidle

/-- What is oblivious to the work left to the workers leaves it alone. -/
theorem deferred_eq_of_oblivious {a : ServiceAction S C α} {r : Except Failure α}
    {s t : ServiceState S C} (ha : ∀ d, a.program.IsOblivious (ServiceState.withDeferred d))
    (hrun : a.run s = some (r, t)) : t.deferred = s.deferred := by
  have hsame := (ha s.deferred).run s
  change a.run s = (a.run s).map _ at hsame
  rw [hrun] at hsame
  obtain ⟨-, ht⟩ := Prod.mk.inj (Option.some.inj hsame)
  rw [ht]
  rfl

/-- A patient action that does not fail and has nothing to do with the workers ends. -/
theorem completes_of_patient {a : ServiceAction S C α} (ha : a.Patient 0) (hsucceeds : a.Succeeds)
    (hoblivious : ∀ d, a.program.IsOblivious (ServiceState.withDeferred d)) : a.Completes := by
  intro s hs hidle
  obtain ⟨r, t, hrun, ht⟩ := ha.exists_run hs
  obtain ⟨v, rfl⟩ := hsucceeds.leaves s r t hrun
  refine ⟨v, t, hrun, ht, ?_⟩
  rw [deferred_eq_of_oblivious hoblivious hrun]
  exact hidle

end Action

end Alone

/-! ## Calls -/

/-- An environment that keeps the rebuild states in the registry of the service and whose handle
works on the world of the service only and never waits.  It may fail and panic. -/
structure Environment.IsTidy {S U C : Type} (env : Environment S U C) : Prop where
  oracle : env.oracle = .registry
  brisk : env.handle.IsBrisk
  worldly : env.handle.IsWorldly
  clear : ∀ index, (env.handle.clear index).program.IsWorldly

namespace Environment.IsTidy

section Calls

variable {S U C : Type} {env : Environment S U C} (henv : env.IsTidy)

include henv

theorem patient : CallClass env (fun _ => True) fun _ {_} a => a.Patient 0 :=
  patientCalls (henv.oracle ▸ Oracle.isBrisk_registry) henv.brisk

theorem completes_execute (op : Operation) : (env.execute op).Completes :=
  completes_of_patient (henv.patient.execute none op) (succeeds_execute henv.oracle op)
    fun _ => oblivious_execute henv.oracle henv.worldly op

theorem completes_request (index : IndexId) (cause : RebuildCause) :
    (env.oracle.request index cause).Completes := by
  refine completes_of_patient (henv.patient.request none index cause) ?_
    fun _ => oblivious_request henv.oracle index cause
  rw [henv.oracle]
  exact Oracle.succeeds_requestRebuild index cause

/-- The operations for a file that are waited for end with a result, whether or not they are left to
the workers. -/
theorem completes_attend (application : FileApplication) :
    (env.apply application >>= env.attend).Completes := by
  intro s hs hidle
  have hpatient : (env.applyNow application).Patient 0 :=
    (henv.patient.closure none).mem_applyNow (henv.patient.execute none)
      (fun _ _ => patient_note _ 0) application
  obtain ⟨r, t, hrun, ht⟩ := hpatient.exists_run hs
  obtain ⟨result, rfl⟩ := (succeeds_applyNow henv.oracle application).leaves s r t hrun
  obtain ⟨d, hd, hattend⟩ := exists_run_attend hidle
    (fun _ => oblivious_applyNow henv.oracle henv.worldly application) hrun
  refine ⟨result, t.withDeferred d, hattend, fun holding => ?_, hd⟩
  rw [← ht holding]
  cases holding <;> rfl

theorem completes_sweep (sweep : Sweep) : (sweep.carry env).Completes := by
  rw [Sweep.carry_eq]
  exact (completes_access (fun _ => ⟨rfl, rfl, rfl⟩) fun _ => rfl).bind fun indices =>
    henv.completes_attend _

/-- However a rebuild ends, it ends. -/
theorem completes_outcome_rebuildIndex (index : IndexId) {repopulate : ServiceAction S C Unit}
    (hpatient : repopulate.Patient 0)
    (hoblivious : ∀ d, repopulate.program.IsOblivious (ServiceState.withDeferred d)) :
    (env.rebuildIndex index repopulate).outcome.Completes :=
  completes_of_patient
    ((henv.patient.closure none).outcome (henv.patient.rebuild none index trivial hpatient))
    (succeeds_outcome _) fun _ => (obliviousClosure _).outcome
      (oblivious_rebuildIndex henv.oracle (henv.clear index) (hoblivious _))

end Calls

end Environment.IsTidy

/-! ## Errands -/

theorem Service.completes_write {S : Type} (entries : List Entry) :
    (write entries : ServiceAction S Diary Unit).Completes :=
  completes_access (fun _ => ⟨rfl, rfl, rfl⟩) fun _ => rfl

namespace Environment.IsTidy

section Errands

variable {S U : Type} {env : Environment S U Diary} (henv : env.IsTidy)

include henv

theorem patient_refill (index : IndexId) (refill : Refill) :
    (refill.action env index).Patient 0 := by
  have hP := patientClosure (S := S) (C := Diary) 0
  induction refill with
  | done result => exact hP.resume result
  | file input content next ih =>
    exact hP.bind (hP.outcome (henv.patient.indexFile index input content)) fun r =>
      hP.bind (patient_access (fun _ => ⟨rfl, rfl, rfl⟩) 0) fun _ => ih r

theorem oblivious_refill (index : IndexId) (refill : Refill) (d : DeferredWork) :
    (refill.action env index).program.IsOblivious (ServiceState.withDeferred d) := by
  have hP := obliviousClosure (ServiceState.withDeferred (S := S) (C := Diary) d)
  induction refill with
  | done result => exact hP.resume result
  | file input content next ih =>
    exact hP.bind (hP.outcome (oblivious_indexFile henv.oracle henv.worldly index input content))
      fun r => hP.bind (oblivious_update fun _ => rfl) fun _ => ih r

theorem completes_carry (errand : Errand) : (errand.carry env).Completes := by
  cases errand with
  | execute op => exact (henv.completes_execute op).bind fun _ => completes_write _
  | updateFile content input mode =>
    have hsweep := henv.completes_sweep (.update content input mode)
    rw [show (Errand.updateFile content input mode).carry env =
      (Sweep.update content input mode).carry env >>= fun result =>
        write (entriesFor input (.update content) result) from (bind_assoc _ _ _).symm]
    exact hsweep.bind fun _ => completes_write _
  | removeFile file input mode =>
    have hsweep := henv.completes_sweep (.removal file input mode)
    rw [show (Errand.removeFile file input mode).carry env =
      (Sweep.removal file input mode).carry env >>= fun result =>
        write (entriesFor input .removal result) from (bind_assoc _ _ _).symm]
    exact hsweep.bind fun _ => completes_write _
  | request index cause =>
    exact (henv.completes_request index cause).bind fun _ => completes_write _
  | rebuild index refill =>
    have hrebuild : (env.rebuildIndex index do
        write [.emptied index]
        refill.action env index).outcome.Completes :=
      henv.completes_outcome_rebuildIndex index
        ((patientClosure 0).bind (patient_access (fun _ => ⟨rfl, rfl, rfl⟩) 0) fun _ =>
          henv.patient_refill index refill)
        fun d => (obliviousClosure _).bind (oblivious_update fun _ => rfl) fun _ =>
          henv.oblivious_refill index refill d
    exact hrebuild.bind fun _ => completes_write _

/-- Errands that are run one after the other come to their end. -/
theorem completes_carryAll (errands : List Errand) : (Errand.carryAll env errands).Completes :=
  completes_each henv.completes_carry errands

end Errands

end Environment.IsTidy

end FileIndexing
