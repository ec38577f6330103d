import FileIndexing.Proofs.Alone
import FileIndexing.Proofs.Fanout
import FileIndexing.Proofs.NameOrder

/-!
# Registering indices in any order

Indices are registered one after the other, and then files are updated in all of them or removed
from all of them, one after the other as well.  The order in which the indices were registered
makes no difference.

* `Registers` says what becomes of a list of registrations, whatever names there are in it
  (`exists_registers`).
* `perm_keys_eq` says that sorting the names of the registered indices leads to one list only.
* `Registers.scene_eq_of_perm` compares two orders of the same registrations.
* `exists_run_attend` says that it makes no difference whether operations are left to the workers,
  as long as their result is waited for.
* `Sweep` is a call for all registered indices.  What it comes to depends on the scene alone
  (`exists_carry`), and so does what several of them come to (`exists_sweeps`).
* `registration_order_irrelevant` is the result.
-/

namespace FileIndexing

open FileIndexing.Action Service

variable {S U C α β : Type}

/-! ## Registering indices -/

/-- Why an index is not registered. -/
def alreadyRegistered (index : IndexId) : Error :=
  .invalidOperation s!"index {index.name} is already registered"

/-- Registers indices, one after the other, and answers what became of each. -/
def Service.registerAll (indices : List (IndexId × S)) :
    ServiceAction S C (List (Except Error Unit)) :=
  collect (fun entry => (register entry.1 entry.2).result) indices

/-- The state once an index that was not registered is. -/
def ServiceState.enrol (s : ServiceState S C) (index : IndexId) (store : S) : ServiceState S C :=
  { s.note (.logged (.registered index)) with stores := s.stores.insert index store }

/-- What becomes of an index that is to be registered. -/
def ServiceState.admission (s : ServiceState S C) (entry : IndexId × S) :
    Except Error Unit × ServiceState S C :=
  if s.isRegistered entry.1 then (.error (alreadyRegistered entry.1), s)
  else (.ok (), s.enrol entry.1 entry.2)

theorem run_register (entry : IndexId × S) (s : ServiceState S C) :
    (register entry.1 entry.2).run s =
      some ((s.admission entry).1.mapError .error, (s.admission entry).2) := by
  rw [register, run_bind, run_access, ServiceState.admission]
  cases s.isRegistered entry.1 <;> rfl

theorem run_result_register (entry : IndexId × S) (s : ServiceState S C) :
    (register entry.1 entry.2).result.run s =
      some (.ok (s.admission entry).1, (s.admission entry).2) := by
  rw [Action.result, run_bind, run_outcome, run_register]
  cases (s.admission entry).1 <;> rfl

/-- What becomes of indices that are registered one after the other. -/
structure Registers (s : ServiceState S C) (indices : List (IndexId × S))
    (answers : List (Except Error Unit)) (t : ServiceState S C) : Prop where
  length : answers.length = indices.length
  /-- An index is refused if one of that name has been registered before, and only then. -/
  answer : ∀ before entry after, indices = before ++ entry :: after →
    answers[before.length]? = some
      (if s.isRegistered entry.1 = true ∨ entry.1 ∈ before.map Prod.fst then
        .error (alreadyRegistered entry.1)
      else .ok ())
  /-- The first registration of a name counts. -/
  stores : ∀ index : IndexId, t.stores[index]? = s.stores[index]?.or (indices.lookup index)
  /-- Nothing else changes, apart from the log. -/
  others : ∃ records : List LogRecord,
    t = { s with stores := t.stores, journal := records.map .logged ++ s.journal }

theorem ServiceState.isRegistered_eq (s : ServiceState S C) (index : IndexId) :
    s.isRegistered index = s.stores[index]?.isSome :=
  Std.ExtTreeMap.contains_eq_isSome_getElem?

/-- The storage of an index after another one was to be registered. -/
theorem ServiceState.getElem?_admission (s : ServiceState S C) (entry : IndexId × S)
    (index : IndexId) : (s.admission entry).2.stores[index]? =
      s.stores[index]?.or (if index = entry.1 then some entry.2 else none) := by
  unfold admission
  split
  · next hold =>
    split
    · next hsame =>
      rw [isRegistered_eq, ← hsame] at hold
      rw [Option.or_of_isSome hold]
    · rw [Option.or_none]
  · next hnew =>
    simp only [enrol, Std.ExtTreeMap.getElem?_insert, Std.LawfulEqOrd.compare_eq_iff_eq,
      eq_comm (b := index)]
    split
    · next hsame =>
      rw [isRegistered_eq, ← hsame, Option.not_isSome_iff_eq_none] at hnew
      rw [hnew, Option.none_or]
    · rw [Option.or_none]

theorem ServiceState.isRegistered_admission (s : ServiceState S C) (entry : IndexId × S)
    (index : IndexId) : (s.admission entry).2.isRegistered index = true ↔
      s.isRegistered index = true ∨ index = entry.1 := by
  rw [isRegistered_eq, isRegistered_eq, getElem?_admission, Option.isSome_or, Bool.or_eq_true]
  split <;> simp [*]

/-- Every list of registrations is carried out to its end. -/
theorem exists_registers (s : ServiceState S C) (indices : List (IndexId × S)) :
    ∃ answers t, (registerAll indices).run s = some (.ok answers, t) ∧
      Registers s indices answers t := by
  -- The rest of the list is registered in the state that the first registration leaves, where one
  -- name more is taken.
  induction indices generalizing s with
  | nil => exact ⟨[], s, rfl, rfl, by simp, by simp, [], rfl⟩
  | cons entry rest ih =>
    obtain ⟨answers, t, hrun, hrest⟩ := ih (s.admission entry).2
    refine ⟨(s.admission entry).1 :: answers, t, ?_, ?_, ?_, ?_, ?_⟩
    · rw [registerAll, collect, run_bind, run_result_register]
      dsimp only [Option.bind_some]
      rw [run_bind, ← registerAll, hrun]
      rfl
    · rw [List.length_cons, List.length_cons, hrest.length]
    · rintro before later after hsplit
      cases before with
      | nil =>
        obtain ⟨rfl, rfl⟩ := List.cons.inj hsplit
        simp only [ServiceState.admission, List.length_nil, List.getElem?_cons_zero, List.map_nil,
          List.not_mem_nil, or_false]
        split <;> rfl
      | cons first before =>
        obtain ⟨rfl, rfl⟩ := List.cons.inj hsplit
        rw [List.length_cons, List.getElem?_cons_succ, hrest.answer before later after rfl]
        simp only [ServiceState.isRegistered_admission, List.map_cons, List.mem_cons, or_assoc]
    · intro index
      rw [hrest.stores, ServiceState.getElem?_admission, Option.or_assoc, List.lookup_cons]
      by_cases hsame : index = entry.1
      · simp [hsame]
      · simp [hsame, beq_false_of_ne hsame]
    · obtain ⟨records, ht⟩ := hrest.others
      rw [ht]
      unfold ServiceState.admission
      split
      · exact ⟨records, rfl⟩
      · exact ⟨records ++ [.registered entry.1], by simp [ServiceState.enrol, ServiceState.note]⟩

/-! ## The names -/

/-- There is one way to sort the names of indices. -/
theorem perm_keys_eq {stores : Std.ExtTreeMap IndexId S} {names : List IndexId}
    (hperm : names.Perm stores.keys)
    (hsorted : names.Pairwise fun a b => (compare a b).isLE = true) : names = stores.keys :=
  List.Perm.eq_of_pairwise
    (fun _ _ _ _ hle hge => Std.LawfulEqOrd.eq_of_compare (Std.OrientedCmp.isLE_antisymm hle hge))
    hsorted (Std.ExtTreeMap.ordered_keys.imp fun hlt => by rw [hlt]; rfl) hperm

theorem nodup_keys (stores : Std.ExtTreeMap IndexId S) : stores.keys.Nodup :=
  Std.ExtTreeMap.ordered_keys.imp fun hlt heq => by simp [heq, Std.ReflOrd.compare_self] at hlt

/-- Replacing the storage of an index leaves the names as they are. -/
theorem keys_insert {stores : Std.ExtTreeMap IndexId S} {index : IndexId} (store : S)
    (h : stores.contains index = true) : (stores.insert index store).keys = stores.keys := by
  refine perm_keys_eq ((List.perm_ext_iff_of_nodup (nodup_keys _) (nodup_keys _)).2 fun other => ?_)
    (Std.ExtTreeMap.ordered_keys.imp fun hlt => by rw [hlt]; rfl)
  simp only [Std.ExtTreeMap.mem_keys, Std.ExtTreeMap.mem_insert,
    Std.LawfulEqOrd.compare_eq_iff_eq, or_iff_right_iff_imp]
  rintro rfl
  exact Std.ExtTreeMap.contains_iff_mem.1 h

namespace ServiceState

variable (s : ServiceState S C)

/-- The names are listed in the order of their bytes. -/
theorem pairwise_registeredIndices :
    (s.registeredIndices.map IndexId.bytes).Pairwise (· < ·) :=
  List.pairwise_map.2 (Std.ExtTreeMap.ordered_keys.imp IndexId.bytes_lt_of_compare)

/-- In whatever order the names are found, they are listed in the same way once they are sorted. -/
theorem mergeSort_registeredIndices {names : List IndexId} (h : names.Perm s.registeredIndices) :
    names.mergeSort (fun a b => (compare a b).isLE) = s.registeredIndices := by
  refine perm_keys_eq ((List.mergeSort_perm _ _).trans h) (List.pairwise_mergeSort ?_ ?_ _)
  · exact fun _ _ _ => Std.TransCmp.isLE_trans
  · intro a b
    rw [Std.OrientedOrd.eq_swap (a := b) (b := a)]
    cases compare a b <;> rfl

theorem mem_registeredIndices (index : IndexId) :
    index ∈ s.registeredIndices ↔ s.isRegistered index = true :=
  Std.ExtTreeMap.mem_keys.trans Std.ExtTreeMap.contains_iff_mem.symm

end ServiceState

/-! ## Other orders -/

/-- If every name is there once, the order of the list makes no difference to a search. -/
theorem lookup_eq_of_perm {indices indices' : List (IndexId × S)} (hperm : indices'.Perm indices)
    (hdistinct : (indices.map Prod.fst).Nodup) (index : IndexId) :
    indices'.lookup index = indices.lookup index := by
  induction hperm with
  | nil => rfl
  | cons entry _ ih => rw [List.lookup_cons, List.lookup_cons, ih (List.nodup_cons.1 hdistinct).2]
  | swap entry other rest =>
    simp only [List.map_cons, List.nodup_cons, List.mem_cons, not_or] at hdistinct
    rw [List.lookup_cons, List.lookup_cons, List.lookup_cons, List.lookup_cons]
    by_cases hsame : index = entry.1
    · rw [hsame, beq_self_eq_true, beq_false_of_ne hdistinct.1.1]
    · rw [beq_false_of_ne hsame]
  | trans hfirst hsecond ih ih' =>
    rw [ih (((hsecond.map Prod.fst).nodup_iff).2 hdistinct), ih' hdistinct]

namespace Registers

variable {s t t' : ServiceState S C} {indices indices' : List (IndexId × S)}
  {answers answers' : List (Except Error Unit)}

theorem isRegistered_iff (h : Registers s indices answers t) (index : IndexId) :
    t.isRegistered index = true ↔
      s.isRegistered index = true ∨ index ∈ indices.map Prod.fst := by
  rw [ServiceState.isRegistered_eq, ServiceState.isRegistered_eq, h.stores, Option.isSome_or,
    Bool.or_eq_true, List.lookup_isSome_iff]
  simp only [beq_iff_eq, List.mem_map, eq_comm (a := index)]

/-- Nothing but the storage changes that can be seen. -/
theorem scene_eq (h : Registers s indices answers t) :
    t.scene = { s.scene with world := { s.world with stores := t.stores } } := by
  obtain ⟨records, ht⟩ := h.others
  have hsilent : (records.map Event.logged).filter (·.isDeed) = [] := by
    simp [List.filter_eq_nil_iff, Event.isDeed]
  rw [ht]
  simp [ServiceState.scene, ServiceState.deeds, ServiceState.world, hsilent]

theorem deferred_eq (h : Registers s indices answers t) : t.deferred = s.deferred := by
  obtain ⟨records, ht⟩ := h.others
  rw [ht]

/-- Indices of different names may be registered in any order. -/
theorem scene_eq_of_perm (h : Registers s indices answers t)
    (h' : Registers s indices' answers' t') (hperm : indices'.Perm indices)
    (hdistinct : (indices.map Prod.fst).Nodup) : t'.scene = t.scene := by
  have hstores : t'.stores = t.stores := Std.ExtTreeMap.ext_getElem? fun index => by
    rw [h.stores, h'.stores, lookup_eq_of_perm hperm hdistinct]
  rw [h.scene_eq, h'.scene_eq, hstores]

end Registers

/-! ## Waiting for a result -/

section Attend

variable {env : Environment S U C} {application : FileApplication} {s t : ServiceState S C}
  {result : FileApplicationResult}

/-- Once a result that was not thrown away is delivered, nothing is left to the workers. -/
theorem DeferredWork.IsIdle.served {d : DeferredWork} (hidle : d.IsIdle) :
    (d.after result [] true false).IsIdle where
  queue := rfl
  delivered := List.forall_mem_cons.2 ⟨Nat.lt_succ_self _,
    fun delivery hmem => Nat.lt_succ_of_lt (hidle.delivered delivery hmem)⟩
  abandoned ticket hmem := Nat.lt_succ_of_lt (hidle.abandoned ticket hmem)

/-- The operations for a file come to the same whatever is left to the workers. -/
theorem run_withDeferred
    (hoblivious : ∀ d, (env.applyNow application).program.IsOblivious (.withDeferred d))
    (hrun : (env.applyNow application).run s = some (.ok result, t)) (d : DeferredWork) :
    (env.applyNow application).run (s.withDeferred d) = some (.ok result, t.withDeferred d) := by
  refine ((hoblivious d).run s).trans ?_
  show ((env.applyNow application).run s).map (fun r => (r.1, r.2.withDeferred d)) = _
  rw [hrun]
  rfl

/-- What a worker does that takes the operations for a file, once nobody else is at work. -/
theorem run_work (hidle : s.deferred.IsIdle)
    (hoblivious : ∀ d, (env.applyNow application).program.IsOblivious (.withDeferred d))
    (hrun : (env.applyNow application).run s = some (.ok result, t)) :
    (env.work s.deferred.nextTicket application).run
        (s.withDeferred (s.deferred.after result [] false false)) =
      some (.ok (), t.withDeferred (s.deferred.after result [] true false)) := by
  obtain ⟨k, hwork, hk⟩ := exists_program_work env s.deferred.nextTicket application result
  rw [Action.run, hwork, Program.run_bind]
  show ((env.applyNow application).run
    (s.withDeferred (s.deferred.after result [] false false))).bind _ = _
  rw [run_withDeferred hoblivious hrun, Option.bind_some, hk]
  show (handIn s.deferred.nextTicket result).run
    (t.withDeferred (s.deferred.after result [] false false)) = _
  rw [handIn, run_bind, run_access]
  simp only [ServiceState.withDeferred, DeferredWork.deliver_after hidle]
  rfl

theorem run_wait {ticket : Nat}
    (hdelivered : s.deferred.delivery? ticket = some (.arrived result)) :
    (wait (.pending ticket)).run s = some (.ok result, s) := by
  rw [wait, run_bind, run_await, hdelivered]
  show ((read fun s : ServiceState S C => s.deferred.delivery? ticket) >>= _).run s = _
  rw [run_bind, run_read, hdelivered]
  rfl

/-- Whoever waits for the operations for a file, whether or not they are left to the workers, gets
the result to which they come at once. -/
theorem exists_run_attend (hidle : s.deferred.IsIdle)
    (hoblivious : ∀ d, (env.applyNow application).program.IsOblivious (.withDeferred d))
    (hrun : (env.applyNow application).run s = some (.ok result, t)) :
    ∃ d : DeferredWork, d.IsIdle ∧
      (env.apply application >>= env.attend).run s = some (.ok result, t.withDeferred d) := by
  cases hmode : application.mode with
  | synchronous =>
    refine ⟨s.deferred, hidle, ?_⟩
    have hsame : (env.applyNow application).run s =
        some (.ok result, t.withDeferred s.deferred) :=
      run_withDeferred hoblivious hrun s.deferred
    unfold Environment.apply
    rw [hmode, run_bind, run_bind, hsame]
    rfl
  | deferred =>
    refine ⟨s.deferred.after result [] true false, hidle.served, ?_⟩
    have hsubmit : (env.apply application).run s =
        some (.ok (.pending s.deferred.nextTicket),
          s.withDeferred (s.deferred.submit application).2) := by
      unfold Environment.apply
      rw [hmode]
      rfl
    have htaken : (s.deferred.submit application).2.takeLast =
        (some (s.deferred.nextTicket, application), s.deferred.after result [] false false) := by
      rw [DeferredWork.takeLast_submit, DeferredWork.after, ← hidle.queue]
      rfl
    have hwait : (wait (.pending s.deferred.nextTicket)).run
        (t.withDeferred (s.deferred.after result [] true false)) =
          some (.ok result, t.withDeferred (s.deferred.after result [] true false)) :=
      run_wait (DeferredWork.delivery?_after hidle result [] true false)
    rw [run_bind, hsubmit]
    show (env.attend (.pending s.deferred.nextTicket)).run
      (s.withDeferred (s.deferred.submit application).2) = _
    rw [Environment.attend, run_bind, run_access]
    simp only [Option.bind_some, ServiceState.withDeferred, htaken]
    show (env.work s.deferred.nextTicket application >>= fun _ =>
      wait (.pending s.deferred.nextTicket)).run
        (s.withDeferred (s.deferred.after result [] false false)) = _
    rw [run_bind, run_work hidle hoblivious hrun]
    exact hwait

end Attend

/-! ## Calls for all indices -/

/-- A call for all registered indices. -/
inductive Sweep where
  | update (content : FileContent) (input : InputId) (mode : ApplicationMode)
  | removal (file : Option Path) (input : InputId) (mode : ApplicationMode)

namespace Sweep

/-- The operations that a call leads to if there are certain indices. -/
def application (indices : List IndexId) : Sweep → FileApplication
  | .update content input mode => .updateIn indices content input mode
  | .removal file input mode => .removeFrom indices file input mode

/-- Makes a call and waits for its result. -/
def carry (env : Environment S U C) : Sweep → ServiceAction S C FileApplicationResult
  | .update content input mode => do env.attend (← env.updateFile content input mode)
  | .removal file input mode => do env.attend (← env.removeFile file input mode)

theorem carry_eq (env : Environment S U C) (sweep : Sweep) :
    sweep.carry env = registeredIndices >>= fun indices =>
      env.apply (sweep.application indices) >>= env.attend := by
  cases sweep <;> exact bind_assoc _ _ _

/-- There is an operation for each index, in their order. -/
theorem map_index_operations (indices : List IndexId) (sweep : Sweep) :
    (sweep.application indices).operations.map (·.index) = indices := by
  cases sweep <;> simp [application, Operation.update, Operation.removal, Function.comp_def]

end Sweep

/-- Nobody holds a lock or a mark. -/
structure Scene.IsCalm (x : Scene S C) : Prop where
  held : x.held = []
  shareable : x.coordination.canShare = true
  unmarked : ∀ mark, x.marks.isMarked mark = false

/-- Run alone from any state that shows a scene and in which nothing is left to the workers, an
action answers something and leaves another such state. -/
def Action.Settles (a : ServiceAction S C α) (x : Scene S C) (v : α) (y : Scene S C) : Prop :=
  ∀ s : ServiceState S C, s.scene = x → s.deferred.IsIdle →
    ∃ t, a.run s = some (.ok v, t) ∧ t.scene = y ∧ t.deferred.IsIdle

namespace Action

variable {x y z : Scene S C}

theorem settles_pure (v : α) (x : Scene S C) : (pure v : ServiceAction S C α).Settles x v x :=
  fun s hs hidle => ⟨s, rfl, hs, hidle⟩

theorem Settles.bind {a : ServiceAction S C α} {k : α → ServiceAction S C β} {v : α} {r : β}
    (ha : a.Settles x v y) (hk : (k v).Settles y r z) : (a >>= k).Settles x r z := by
  intro s hs hidle
  obtain ⟨t, hrun, ht, hidle'⟩ := ha s hs hidle
  obtain ⟨u, hrun', hu⟩ := hk t ht hidle'
  exact ⟨u, by rw [run_bind, hrun]; exact hrun', hu⟩

end Action

section Sweeps

variable {env : Environment S U C} {b : Behaviour S U C} {x : Scene S C}

/-- The operations for a file come to a result that depends on the scene alone. -/
theorem exists_applyNow (horacle : env.oracle = .registry) (hperforms : env.handle.Performs b)
    (application : FileApplication) (hx : x.IsCalm) :
    ∃ outcomes y, (env.applyNow application).Yields x (.ok (application.resultOf outcomes)) y ∧
      Batches env b application.operations x outcomes y := by
  obtain ⟨outcomes, y, hcollect, hbatches⟩ := exists_batches horacle hperforms
    application.operations hx.held hx.shareable fun op _ => hx.unmarked op.mark
  refine ⟨outcomes, y, fun s hs => ?_, hbatches⟩
  obtain ⟨t, hrun, ht⟩ := hcollect s hs
  refine ⟨_, run_applyNow hrun, ?_⟩
  rw [ServiceState.warned]
  split
  · exact ht
  · exact (ServiceState.scene_note t rfl).trans ht

/-- So does a call for all indices.  There is an outcome for each of them, in their order. -/
theorem exists_carry (horacle : env.oracle = .registry) (hhandle : env.handle.IsWorldly)
    (hperforms : env.handle.Performs b) (hkeeps : b.KeepsIndices) (sweep : Sweep) (hx : x.IsCalm) :
    ∃ result y, (sweep.carry env).Settles x result y ∧ y.IsCalm ∧
      y.world.stores.keys = x.world.stores.keys ∧
      result.outcomes.map Prod.fst = x.world.stores.keys := by
  obtain ⟨outcomes, y, hyields, hbatches⟩ :=
    exists_applyNow horacle hperforms (sweep.application x.world.stores.keys) hx
  refine ⟨(sweep.application x.world.stores.keys).resultOf outcomes, y, fun s hs hidle => ?_,
    ⟨?_, ?_, ?_⟩, hbatches.indices hkeeps, ?_⟩
  · obtain ⟨t, hrun, ht⟩ := hyields s hs
    obtain ⟨d, hd, hattend⟩ := exists_run_attend hidle
      (fun _ => oblivious_applyNow horacle hhandle _) hrun
    subst hs
    refine ⟨t.withDeferred d, ?_, ht, hd⟩
    rw [Sweep.carry_eq, run_bind]
    exact hattend
  · rw [hbatches.held, hx.held]
  · rw [hbatches.coordination, hx.shareable]
  · rw [hbatches.marks]
    exact hx.unmarked
  · rw [FileApplication.resultOf, Sweep.map_index_operations]
    refine List.map_fst_zip (Nat.le_of_eq ?_)
    rw [hbatches.length, ← List.length_map (f := Operation.index), Sweep.map_index_operations]

/-- And so do several of them, made one after the other. -/
theorem exists_sweeps (horacle : env.oracle = .registry) (hhandle : env.handle.IsWorldly)
    (hperforms : env.handle.Performs b) (hkeeps : b.KeepsIndices) (sweeps : List Sweep)
    (hx : x.IsCalm) :
    ∃ results y, (collect (Sweep.carry env) sweeps).Settles x results y ∧
      ∀ result ∈ results, result.outcomes.map Prod.fst = x.world.stores.keys := by
  induction sweeps generalizing x with
  | nil => exact ⟨[], x, settles_pure [] x, by simp⟩
  | cons sweep rest ih =>
    obtain ⟨result, y, hcarry, hy, hkeys, hlisted⟩ :=
      exists_carry horacle hhandle hperforms hkeeps sweep hx
    obtain ⟨results, z, hcollect, hrest⟩ := ih hy
    refine ⟨result :: results, z, hcarry.bind (hcollect.bind (settles_pure _ z)),
      List.forall_mem_cons.2 ⟨hlisted, ?_⟩⟩
    rwa [hkeys] at hrest

end Sweeps

/-! ## The result -/

/-- What becomes of indices that are registered one after the other, and how they are listed. -/
structure Enrols (s : ServiceState S C) (indices : List (IndexId × S))
    (answers : List (Except Error Unit)) (t : ServiceState S C) : Prop
    extends Registers s indices answers t where
  /-- Every name is listed that was registered before or is now, -/
  listed : ∀ index, index ∈ t.registeredIndices ↔
    s.isRegistered index = true ∨ index ∈ indices.map Prod.fst
  /-- in strict order of the bytes, -/
  ordered : (t.registeredIndices.map IndexId.bytes).Pairwise (· < ·)
  /-- in whatever order the names are found and then sorted. -/
  sorted : ∀ names : List IndexId, names.Perm t.registeredIndices →
    names.mergeSort (fun a b => (compare a b).isLE) = t.registeredIndices
  /-- Whoever registers one of them again is told so and changes nothing. -/
  again : ∀ index store, index ∈ t.registeredIndices →
    (register index store).run t = some (.error (.error (alreadyRegistered index)), t)

theorem Registers.enrols {s t : ServiceState S C} {indices : List (IndexId × S)}
    {answers : List (Except Error Unit)} (h : Registers s indices answers t) :
    Enrols s indices answers t where
  toRegisters := h
  listed index := (t.mem_registeredIndices index).trans (h.isRegistered_iff index)
  ordered := t.pairwise_registeredIndices
  sorted _ hperm := t.mergeSort_registeredIndices hperm
  again index store hmem := by
    have hadmission : t.admission (index, store) = (.error (alreadyRegistered index), t) :=
      if_pos ((t.mem_registeredIndices index).1 hmem)
    rw [run_register (index, store), hadmission]
    rfl

/-- Files are updated in all indices, and removed from all of them, with the same outcomes and the
same effects in two states. -/
def SweepsAlike (env : Environment S U C) (t t' : ServiceState S C) : Prop :=
  ∀ sweeps : List Sweep, ∃ results u u',
    (collect (Sweep.carry env) sweeps).run t = some (.ok results, u) ∧
    (collect (Sweep.carry env) sweeps).run t' = some (.ok results, u') ∧
    (∀ result ∈ results, result.outcomes.map Prod.fst = t.registeredIndices) ∧
    u'.stores = u.stores ∧ u'.registry = u.registry ∧ u'.client = u.client

/-- The first registration of a name counts and later ones are refused, and it makes no difference
in which order indices of different names are registered. -/
theorem registration_order_irrelevant (env : Environment S U C) (horacle : env.oracle = .registry)
    (hhandle : env.handle.IsWorldly) (b : Behaviour S U C) (hperforms : env.handle.Performs b)
    (hkeeps : b.KeepsIndices) (s : ServiceState S C) (first : List (IndexId × S)) :
    ∃ answers t, (registerAll first).run s = some (.ok answers, t) ∧ Enrols s first answers t ∧
      (s.AtRest → s.deferred.IsIdle → (first.map Prod.fst).Nodup →
        ∀ second, second.Perm first → ∃ answers' t',
          (registerAll second).run s = some (.ok answers', t') ∧ Enrols s second answers' t' ∧
            SweepsAlike env t t') := by
  obtain ⟨answers, t, hrun, hfirst⟩ := exists_registers s first
  refine ⟨answers, t, hrun, hfirst.enrols, fun hrest hidle hdistinct second hperm => ?_⟩
  obtain ⟨answers', t', hrun', hsecond⟩ := exists_registers s second
  refine ⟨answers', t', hrun', hsecond.enrols, fun sweeps => ?_⟩
  have hcalm : t.scene.IsCalm := by
    rw [hfirst.scene_eq]
    exact ⟨hrest.unheld, hrest.isUnlocked.shareable, fun mark => by
      rw [show s.scene.marks = s.marks from rfl, hrest.marks]
      rfl⟩
  obtain ⟨results, y, hsettles, hlisted⟩ :=
    exists_sweeps horacle hhandle hperforms hkeeps sweeps hcalm
  obtain ⟨u, hu, hscene, -⟩ := hsettles t rfl (by rwa [hfirst.deferred_eq])
  obtain ⟨u', hu', hscene', -⟩ := hsettles t' (hfirst.scene_eq_of_perm hsecond hperm hdistinct)
    (by rwa [hsecond.deferred_eq])
  have hsame : u'.scene = u.scene := hscene'.trans hscene.symm
  exact ⟨results, u, u', hu, hu', hlisted, congrArg (·.world.stores) hsame,
    congrArg Scene.registry hsame, congrArg (·.world.client) hsame⟩

/-- Indices in memory neither come nor go while operations run. -/
theorem Behaviour.keepsIndices_memory {K V : Type} [Ord K] [Std.TransOrd K] [BEq V]
    (indexers : IndexId → Indexer K V) :
    (memory indexers : Behaviour (MemoryIndex K V) (Mapping K V) C).KeepsIndices where
  prepare _ _ _ _ _ := rfl
  prepared index input content w update h := by
    simp only [memory] at h
    cases hmapped : StoreHandle.mapped (indexers index) index input content with
    | error failure => simp [hmapped, Except.map] at h
    | ok data =>
      simp only [hmapped, Except.map, Except.ok.injEq] at h
      rw [← h]
  apply _ _ h := keys_insert _ h
  setIndexed _ _ _ h := keys_insert _ h
  setUnindexed _ _ _ h := keys_insert _ h

namespace Sample

/-- A service without indices. -/
def blank : ServiceState (MemoryIndex Nat Nat) Unit := .initial .standard true ()

/-- Two indices of different names. -/
def pair : List (IndexId × MemoryIndex Nat Nat) := [(sizes, .empty), (⟨"names"⟩, .empty)]

end Sample

/-- Two indices may be registered in either order and are listed in one. -/
theorem registration_order_irrelevant_pair : ∃ t t',
    ((registerAll Sample.pair).run Sample.blank).map (·.2) = some t ∧
      ((registerAll Sample.pair.reverse).run Sample.blank).map (·.2) = some t' ∧
      t.registeredIndices = [⟨"names"⟩, Sample.sizes] ∧ SweepsAlike Sample.environment t t' := by
  obtain ⟨_, t, hrun, -, hother⟩ := registration_order_irrelevant Sample.environment rfl
    (Handle.isWorldly_ofStores fun _ => StoreHandle.isBrisk_memory _ _) (.memory _) performs_memory
    (Behaviour.keepsIndices_memory _) Sample.blank Sample.pair
  obtain ⟨_, t', hrun', -, halike⟩ := hother (ServiceState.atRest_ofStores _ _ _ _)
    DeferredWork.isIdle_empty
    (by decide +kernel) Sample.pair.reverse (List.reverse_perm _)
  have hlisted : ((registerAll Sample.pair).run Sample.blank).map (·.2.registeredIndices) =
      some [⟨"names"⟩, Sample.sizes] := by
    decide +kernel
  rw [hrun] at hlisted
  exact ⟨t, t', by rw [hrun]; rfl, by rw [hrun']; rfl, Option.some.inj hlisted, halike⟩

end FileIndexing
