import FileIndexing.Proofs.Completion
import FileIndexing.Proofs.Confinement

/-!
# Indices do not disturb each other

Errands are run twice, the second time with another handle for one of the indices.  This handle may
make anything of its storage, may fail and may panic, in every phase of every operation.  The users
of the other indices cannot tell the two runs apart.

* `Handle.ofOwners` is the handle of a service whose indices are each worked on through a handle of
  their own, where an update is applied by the handle that prepared it.
  Such a service is tidy if its handles do not wait, so that all errands come to their ends
  (`Environment.isTidy_ofOwners`).
* `Environment.Twins` are two environments that differ in the handle of one index.  The walk through
  the service shows that the work for an index is confined, with one lemma for every part.
* `Errand.matches_carryAll` goes on to errands, in which the work for the hidden index and for the
  others mixes.
* `others_unaffected` is the result.
-/

namespace FileIndexing

open FileIndexing.Action Service ServiceState

/-! ## Handles with owners -/

section Owners

variable {S U C : Type} [Inhabited S]

/-- The handle that works on the storage of every index through a handle of its own.  An update is
applied by the handle that prepared it, to the storage of this handle, whatever index the update
names. -/
def Handle.ofOwners (handles : IndexId → StoreHandle S U) : Handle S (IndexId × U) C where
  prepare index input content := do
    let update ← onStore index ((handles index).prepare input content)
    pure ⟨update.index, update.input, (index, update.change)⟩
  apply update :=
    onStore update.change.1
      ((handles update.change.1).apply ⟨update.index, update.input, update.change.2⟩)
  setIndexed index input := onStore index ((handles index).setIndexed input)
  setUnindexed index input := onStore index ((handles index).setUnindexed input)
  indexingState index input := onStore index ((handles index).indexingState input)
  clear index := onStore index (handles index).clear

/-- The environment with such a handle, whose rebuild states are kept in the registry of the
service. -/
def Environment.ofOwners (config : Config) (handles : IndexId → StoreHandle S U)
    (preparationTime : Duration) : Environment S (IndexId × U) C where
  config := config
  handle := .ofOwners handles
  oracle := .registry
  preparationTime := preparationTime

/-- Such an environment is tidy if none of the handles waits. -/
theorem Environment.isTidy_ofOwners {handles : IndexId → StoreHandle S U}
    (h : ∀ index, (handles index).IsBrisk) (config : Config) (preparationTime : Duration) :
    (ofOwners config handles preparationTime : Environment S (IndexId × U) C).IsTidy where
  oracle := rfl
  brisk := {
    prepare := fun index input content => (promptClosure _).bind
      (Handle.prompt_onStore index ((h index).prepare input content)) fun _ =>
        (promptClosure _).pure _
    apply := fun update => Handle.prompt_onStore update.change.1 ((h update.change.1).apply _)
    setIndexed := fun index input => Handle.prompt_onStore index ((h index).setIndexed input)
    setUnindexed := fun index input => Handle.prompt_onStore index ((h index).setUnindexed input)
    indexingState := fun index input =>
      Handle.prompt_onStore index ((h index).indexingState input)
    clear := fun index => Handle.prompt_onStore index (h index).clear }
  worldly := {
    prepare := fun index input content => by
      refine (Program.isWorldly_onStore index ((h index).prepare input content)).bind ?_
      rintro (failure | update) <;> exact .done _
    apply := fun update => Program.isWorldly_onStore update.change.1 ((h update.change.1).apply _)
    setIndexed := fun index input => Program.isWorldly_onStore index ((h index).setIndexed input)
    setUnindexed := fun index input =>
      Program.isWorldly_onStore index ((h index).setUnindexed input) }
  clear index := Program.isWorldly_onStore index (h index).clear

/-- No update that a handle prepares names a certain index. -/
def StoreHandle.NeverNames (handle : StoreHandle S U) (index : IndexId) : Prop :=
  ∀ input content store update store',
    (handle.prepare input content).run store = some (.ok update, store') → update.index ≠ index

end Owners

/-! ## Environments that differ in one handle -/

/-- Two environments that differ in how the storage of one index is worked on.  `owner` tells which
index an update was prepared for; only updates for the hidden index name it. -/
structure Environment.Twins {S U : Type} (hidden : IndexId) (owner : PreparedUpdate U → IndexId)
    (env env' : Environment S U Diary) : Prop where
  config : env'.config = env.config
  oracle : env.oracle = .registry
  oracle' : env'.oracle = .registry
  prepare : ∀ index input content, Confined hidden index
    (fun update update' => update = update' ∧ owner update = index ∧
      (index ≠ hidden → update.index ≠ hidden))
    (env.handle.prepare index input content) (env'.handle.prepare index input content)
  apply : ∀ update, Confined hidden (owner update) (· = ·) (env.handle.apply update)
    (env'.handle.apply update)
  setIndexed : ∀ index input, Confined hidden index (· = ·) (env.handle.setIndexed index input)
    (env'.handle.setIndexed index input)
  setUnindexed : ∀ index input, Confined hidden index (· = ·)
    (env.handle.setUnindexed index input) (env'.handle.setUnindexed index input)
  clear : ∀ index, Confined hidden index (· = ·) (env.handle.clear index)
    (env'.handle.clear index)

/-- Environments whose handles have owners and differ in the handle of one index. -/
theorem Environment.twins_ofOwners {S U : Type} [Inhabited S] {hidden : IndexId}
    {handles handles' : IndexId → StoreHandle S U}
    (hsame : ∀ index, index ≠ hidden → handles' index = handles index)
    (hnames : ∀ index, index ≠ hidden → (handles index).NeverNames hidden) (config : Config)
    (preparationTime : Duration) :
    Twins hidden (·.change.1) (.ofOwners config handles preparationTime)
      (.ofOwners config handles' preparationTime) where
  config := rfl
  oracle := rfl
  oracle' := rfl
  prepare index input content := by
    refine (Handle.confined_onStore (fun update => index ≠ hidden → update.index ≠ hidden)
      (fun hindex => ?_) ?_ ?_).bind ?_
    · rw [hsame index hindex]
    · intro store update store' hrun hindex
      exact hnames index hindex input content store update store' hrun
    · intro store update store' hrun hindex
      rw [hsame index hindex] at hrun
      exact hnames index hindex input content store update store' hrun
    · rintro update _ ⟨rfl, hnamed⟩
      exact confined_pure _ ⟨rfl, rfl, hnamed⟩
  apply update := Handle.confined_phase fun hindex => by rw [hsame _ hindex]
  setIndexed index input := Handle.confined_phase fun hindex => by rw [hsame index hindex]
  setUnindexed index input := Handle.confined_phase fun hindex => by rw [hsame index hindex]
  clear index := Handle.confined_phase fun hindex => by rw [hsame index hindex]

/-! ## The work for an index -/

namespace Environment.Twins

variable {S U : Type} {hidden index : IndexId} {owner : PreparedUpdate U → IndexId}
  {env env' : Environment S U Diary} (h : Twins hidden owner env env')

include h

/-- Looking at the gate of an index that the users of the hidden index name only themselves. -/
theorem isGated {key : IndexId} (hkey : index ≠ hidden → key ≠ hidden) :
    Confined hidden index (· = ·) (env.isGated key) (env'.isGated key) := by
  unfold Environment.isGated
  rw [h.config]
  split
  · exact confined_pure false rfl
  · rw [Oracle.isOk, Oracle.isOk, h.oracle, h.oracle']
    have hstate : Confined hidden index (· = ·)
        (read fun s : ServiceState S Diary => s.registry.state key) (read (·.registry.state key)) :=
      confined_read fun hindex s s' hs =>
        congrArg RebuildStatus.state (hs.statuses key (hkey hindex)).symm
    exact (hstate.bind_eq fun _ => confined_pure _ rfl).bind_eq fun _ => confined_pure _ rfl

theorem request (cause : RebuildCause) :
    Confined hidden index (· = ·) (env.oracle.request index cause)
      (env'.oracle.request index cause) := by
  rw [h.oracle, h.oracle']
  exact Oracle.confined_requestRebuild cause

theorem requestRebuildOnError (cause : Error) :
    Confined hidden index (· = ·) (env.requestRebuildOnError cause index)
      (env'.requestRebuildOnError cause index) :=
  (confined_log _ _).bind_eq fun _ => (h.request _).bind_eq fun _ => confined_pure _ rfl

theorem applyUpdate (origin : Origin) {update : PreparedUpdate U} (howner : owner update = index) :
    Confined hidden index (· = ·) (env.applyUpdate origin update)
      (env'.applyUpdate origin update) := by
  have happly := h.apply update
  rw [howner] at happly
  exact (confined_note _ _).bind_eq fun _ => happly.outcome_bind fun r =>
    (confined_note _ _).bind_eq fun _ => confined_resume r (agree_self r fun _ => rfl)

theorem runUpdate (origin : Origin) {update : PreparedUpdate U} (howner : owner update = index) :
    Confined hidden index (· = ·) (env.runUpdate origin update) (env'.runUpdate origin update) :=
  confined_withIndexLock (h.applyUpdate origin howner) _

theorem runUpdateUnless {update : PreparedUpdate U} (howner : owner update = index)
    (hnamed : index ≠ hidden → update.index ≠ hidden) :
    Confined hidden index (· = ·) (env.runUpdateUnless .operation update env.isGated)
      (env'.runUpdateUnless .operation update env'.isGated) := by
  refine confined_withIndexLock ((h.isGated hnamed).bind_eq fun gated => ?_) _
  split
  · exact confined_pure none rfl
  · exact (h.applyUpdate .operation howner).map _

theorem setState (op : Operation) :
    Confined hidden op.index (· = ·) (env.setState op) (env'.setState op) := by
  refine confined_withReadLock ?_
  cases op.task with
  | removal => exact h.setUnindexed op.index op.input
  | update content => exact h.setIndexed op.index op.input

theorem carryOut (op : Operation) {update : PreparedUpdate U} (howner : owner update = op.index)
    (hnamed : op.index ≠ hidden → update.index ≠ hidden) :
    Confined hidden op.index (· = ·) (env.carryOut op update) (env'.carryOut op update) := by
  refine (h.runUpdateUnless howner hnamed).bind_eq ?_
  intro r
  rcases r with _ | changed
  · exact (confined_log _ _).bind_eq fun _ => confined_pure _ rfl
  · have hsettled := (h.setState op).bind_eq fun _ =>
      confined_pure (Q := (· = ·)) (Outcome.applied changed) rfl
    rw [h.config]
    dsimp only
    split
    · split
      · exact (confined_log _ _).bind_eq fun _ => hsettled
      · exact hsettled
    · exact confined_pure _ rfl

theorem prepareTimed (index : IndexId) (input : InputId) (content : Option FileContent) :
    Confined hidden index (fun r r' => r = r' ∧ ∀ update, r = .ok update →
        owner update = index ∧ (index ≠ hidden → update.index ≠ hidden))
      (env.prepareTimed index input content) (env'.prepareTimed index input content) := by
  refine (h.prepare index input content).result.bind ?_
  rintro prepared _ ⟨rfl, hprepared⟩
  exact (confined_count _ _).bind_eq fun _ => (confined_count _ _).bind_eq fun _ =>
    confined_pure _ ⟨rfl, hprepared⟩

theorem attempt (op : Operation) :
    Confined hidden op.index (· = ·) (env.attempt op) (env'.attempt op) := by
  refine (h.prepareTimed op.index op.input op.task.content?).bind ?_
  rintro prepared _ ⟨rfl, hprepared⟩
  rcases prepared with cause | update
  · cases cause with
    | mapping failure =>
      exact (confined_notify _).bind_eq fun _ => confined_pure _ rfl
    | _ => exact confined_fail _
  · obtain ⟨howner, hnamed⟩ := hprepared update rfl
    exact h.carryOut op howner hnamed

omit h in
theorem recorded (outcome : Outcome) :
    Confined hidden index (· = ·) (Service.recorded outcome : ServiceAction S Diary Outcome)
      (Service.recorded outcome) := by
  have hcount : Confined hidden index (· = ·) (recordOutcome outcome : ServiceAction S Diary Unit)
      (recordOutcome outcome) := by
    cases outcome with
    | applied changed =>
      refine (confined_count _ _).bind_eq fun _ => ?_
      cases changed with
      | true => exact confined_count _ _
      | false => exact confined_pure () rfl
    | _ => exact confined_count _ _
  exact hcount.bind_eq fun _ => confined_pure _ rfl

theorem executeMarked (op : Operation) :
    Confined hidden op.index (· = ·) (env.executeMarked op) (env'.executeMarked op) := by
  refine (h.attempt op).caught.bind_eq ?_
  intro r
  rcases r with cause | outcome
  · exact (h.requestRebuildOnError cause).bind_eq fun _ => recorded _
  · exact recorded outcome

theorem undertake (op : Operation) :
    Confined hidden op.index (· = ·) (env.undertake op) (env'.undertake op) := by
  refine (h.isGated id).bind_eq fun gated => ?_
  split
  · exact (confined_log _ _).bind_eq fun _ => recorded _
  · refine (confined_isRegistered _).bind_eq fun registered => ?_
    split
    · exact (confined_log _ _).bind_eq fun _ => recorded _
    · exact confined_bumpModCount.bind fun _ _ _ => (confined_count _ _).bind_eq fun _ =>
        confined_withMark (h.executeMarked op) _

/-- An operation. -/
theorem execute (op : Operation) :
    Confined hidden op.index (· = ·) (env.execute op) (env'.execute op) :=
  (h.undertake op).bind_eq fun _ => (confined_note _ _).bind_eq fun _ => confined_pure _ rfl

/-! ### Rebuilds -/

theorem clearIndex (index : IndexId) :
    Confined hidden index (· = ·) (env.clearIndex index) (env'.clearIndex index) :=
  (confined_note _ _).bind_eq fun _ => (h.clear index).outcome_bind fun r =>
    (confined_note _ _).bind_eq fun _ => confined_resume r (agree_self r fun _ => rfl)

/-- The runs of rebuilds are numbered for all indices, but nobody goes by the numbers. -/
theorem claimAndClear (index : IndexId) :
    Confined hidden index (fun claim claim' => claim.map (·.2) = claim'.map (·.2))
      (env.claimAndClear index) (env'.claimAndClear index) := by
  have hstart : Confined hidden index (· = ·) (env.oracle.start index)
      (env'.oracle.start index) := by
    rw [h.oracle, h.oracle']
    exact Oracle.confined_startRebuild
  have hnumber : Confined hidden index (fun _ _ => True)
      (numberRun index : ServiceAction S Diary Nat) (numberRun index) :=
    confined_unseen (fun _ => ⟨rfl, rfl, rfl, rfl, rfl⟩) (fun _ => ⟨rfl, rfl, rfl, rfl, rfl⟩)
      fun _ _ => trivial
  refine confined_withIndexLock (hstart.bind_eq fun started => ?_) index
  split
  · refine hnumber.bind fun run run' _ =>
      (confined_withStructuralLock (h.clearIndex index)).outcome_bind fun cleared => ?_
    exact confined_pure_of rfl rfl rfl
  · exact confined_pure none rfl

theorem concludeRebuild (index : IndexId) (filled : Except Error Unit) :
    Confined hidden index (· = ·) (env.concludeRebuild index filled)
      (env'.concludeRebuild index filled) := by
  have hfinish : Confined hidden index (· = ·) (env.oracle.finish index)
      (env'.oracle.finish index) := by
    rw [h.oracle, h.oracle']
    exact Oracle.confined_finishRebuild
  rcases filled with cause | _
  · exact (h.requestRebuildOnError cause).bind_eq fun _ => confined_fail _
  · refine confined_bumpModCount.bind fun _ _ _ => hfinish.bind_eq fun finished => ?_
    split <;> exact confined_pure _ rfl

/-- A rebuild whose files are put back by confined programs. -/
theorem rebuildIndex (index : IndexId) {repopulate repopulate' : ServiceAction S Diary Unit}
    (hrepopulate : Confined hidden index (· = ·) repopulate repopulate') :
    Confined hidden index (· = ·) (env.rebuildIndex index repopulate)
      (env'.rebuildIndex index repopulate') := by
  have hrefill : ∀ cleared, Confined hidden index (· = ·) (env.refill index cleared repopulate)
      (env'.refill index cleared repopulate') := fun cleared =>
    ((confined_resume cleared (agree_self cleared fun _ => rfl)).bind_eq
      fun _ => hrepopulate).result_eq.bind_eq fun filled => h.concludeRebuild index filled
  refine (confined_isRegistered index).bind_eq fun registered => ?_
  split
  · exact confined_fail _
  · refine (h.claimAndClear index).bind ?_
    rintro (_ | ⟨run, cleared⟩) (_ | ⟨run', cleared'⟩) hclaim
    · exact confined_pure _ rfl
    · cases hclaim
    · cases hclaim
    · obtain rfl : cleared = cleared' := Option.some.inj hclaim
      exact (hrefill cleared).outcome_bind fun r => (confined_note _ _).bind_eq fun _ =>
        confined_resume r (agree_self r fun _ => rfl)

theorem indexMarked (index : IndexId) (input : InputId) (content : FileContent) :
    Confined hidden index (· = ·) (env.indexMarked index input content)
      (env'.indexMarked index input content) := by
  refine (h.prepare index input (some content)).result.bind ?_
  rintro prepared _ ⟨rfl, hprepared⟩
  rcases prepared with cause | update
  · cases cause with
    | mapping failure => exact (confined_notify _).bind_eq fun _ => confined_pure false rfl
    | _ => exact confined_fail _
  · obtain ⟨howner, -⟩ := hprepared update rfl
    exact (h.runUpdate .rebuild howner).bind_eq fun changed =>
      (confined_withReadLock (h.setIndexed index input)).bind_eq fun _ => confined_pure changed rfl

/-- Putting a file back. -/
theorem indexFile (index : IndexId) (input : InputId) (content : FileContent) :
    Confined hidden index (· = ·) (env.indexFile index input content)
      (env'.indexFile index input content) :=
  (confined_withMark (h.indexMarked index input content) _).outcome_bind fun r =>
    (confined_note _ _).bind_eq fun _ => confined_resume r (agree_self r fun _ => rfl)

/-- Putting files back, and writing down what each of them came to. -/
theorem refill (index : IndexId) (refill : Refill) :
    Confined hidden index (· = ·) (refill.action env index) (refill.action env' index) := by
  induction refill with
  | done result => exact confined_resume result (agree_self result fun _ => rfl)
  | file input content next ih =>
    exact (h.indexFile index input content).outcome_bind fun r =>
      (confined_write (by simp [Entry.index])).bind_eq fun _ => ih r

end Environment.Twins

/-! ## Errands -/

namespace Service

variable {S : Type} {hidden : IndexId}

/-- Log records are not seen, and whether there are any. -/
theorem matches_logged {α : Type} {Q : α → α → Prop} {v v' : α} {logged logged' : Bool}
    {record record' : LogRecord} (h : Q v v') :
    Matches hidden Q
      (do
        if logged then log record
        pure v : ServiceAction S Diary α)
      (do
        if logged' then log record'
        pure v') := by
  have hlog : ∀ (logged : Bool) (record : LogRecord) (v : α) (s : ServiceState S Diary),
      (do
        if logged then log record
        pure v : ServiceAction S Diary α).Leaves s fun r t => r = .ok v ∧ s.Unseen t := by
    intro logged record v s
    cases logged with
    | false => exact leaves_pure ⟨rfl, rfl, rfl, rfl, rfl, rfl⟩
    | true => exact leaves_access_bind (leaves_pure ⟨rfl, rfl, rfl, rfl, rfl, rfl⟩)
  intro s s' hs
  refine (hlog logged record v s).mono ?_
  rintro _ t ⟨rfl, ht⟩
  refine (hlog logged' record' v' s').mono ?_
  rintro _ t' ⟨rfl, ht'⟩
  exact ⟨h, hs.unseen ht ht'⟩

/-- What is written down may differ in the entries about the hidden index. -/
theorem matches_write {entries entries' : List Entry}
    (h : Diary.without hidden entries = Diary.without hidden entries') :
    Matches hidden (· = ·) (write entries : ServiceAction S Diary Unit) (write entries') := by
  refine matches_update fun s s' hs => ⟨hs.known, hs.registered, hs.stores, hs.statuses,
    hs.listeners, hs.deferred, ?_⟩
  rw [Diary.without_append, Diary.without_append, hs.diary]
  simp only [Diary.without, List.filter_reverse] at h ⊢
  rw [h]

/-- An entry may differ if it is about the hidden index. -/
theorem matches_write_entry {entry entry' : Entry} (hsame : entry'.index = entry.index)
    (h : entry.index ≠ hidden → entry = entry') :
    Matches hidden (· = ·) (write [entry] : ServiceAction S Diary Unit) (write [entry']) := by
  refine matches_write ?_
  by_cases hindex : entry.index = hidden
  · simp [Diary.without, hsame, hindex]
  · rw [h hindex]

/-- The entries about the operations for a file. -/
theorem without_entriesFor (input : InputId) (task : Task) (result : FileApplicationResult) :
    Diary.without hidden (entriesFor input task result) =
      entriesFor input task (result.without hidden) := by
  simp only [Diary.without, entriesFor, FileApplicationResult.without, List.filter_map]
  rfl

/-- Accesses to the work left to the workers that do the same where the deliveries tell nothing of
the hidden index. -/
theorem matches_deferred {β : Type} (f f' g : DeferredWork → β × DeferredWork)
    (hf : ∀ d, g (d.without hidden) = ((f d).1, (f d).2.without hidden))
    (hf' : ∀ d, g (d.without hidden) = ((f' d).1, (f' d).2.without hidden)) :
    Matches hidden (· = ·)
      (access fun s : ServiceState S Diary =>
        ((f s.deferred).1, { s with deferred := (f s.deferred).2 }))
      (access fun s => ((f' s.deferred).1, { s with deferred := (f' s.deferred).2 })) := by
  refine matches_access fun s s' hs => ?_
  have hboth := (hf s.deferred).symm.trans ((congrArg g hs.deferred).symm.trans (hf' s'.deferred))
  obtain ⟨hanswer, hdeferred⟩ := Prod.mk.inj hboth
  exact ⟨hanswer, hs.known, hs.registered, hs.stores, hs.statuses, hs.listeners, hdeferred.symm,
    hs.diary⟩

/-- Waiting for a delivery. -/
theorem matches_wait (ticket : Nat) :
    Matches hidden (fun result result' => result.without hidden = result'.without hidden)
      (wait (.pending ticket) : ServiceAction S Diary FileApplicationResult)
      (wait (.pending ticket)) := by
  refine (matches_await fun s s' hs => hs).bind fun _ _ _ => ?_
  have hread : Matches hidden
      (fun found found' => found.map (·.without hidden) = found'.map (·.without hidden))
      (read fun s : ServiceState S Diary => s.deferred.delivery? ticket)
      (read fun s => s.deferred.delivery? ticket) := by
    refine matches_access fun s s' hs => ⟨?_, hs⟩
    rw [← DeferredWork.delivery?_without, ← DeferredWork.delivery?_without, hs.deferred]
  refine hread.bind ?_
  rintro (_ | delivery) (_ | delivery') hfound
  · exact fun s s' hs => leaves_fail (leaves_fail ⟨rfl, hs⟩)
  · cases hfound
  · cases hfound
  · cases delivery <;> cases delivery' <;> simp only [Option.map_some, Delivery.without,
      Option.some.injEq, Delivery.arrived.injEq, reduceCtorEq] at hfound
    · exact matches_pure hfound
    · exact fun s s' hs => leaves_fail (leaves_fail ⟨rfl, hs⟩)

end Service

namespace Environment.Twins

variable {S U : Type} {hidden : IndexId} {owner : PreparedUpdate U → IndexId}
  {env env' : Environment S U Diary} (h : Twins hidden owner env env')

include h

/-- The operations for a file are each seen by the users of their index. -/
theorem collect (ops : List Operation) :
    Matches hidden
      (fun outcomes outcomes' => outcomes.filter (fun outcome => outcome.1 ≠ hidden) =
        outcomes'.filter fun outcome => outcome.1 ≠ hidden)
      (Action.collect (fun op => do pure (op.index, ← env.execute op)) ops)
      (Action.collect (fun op => do pure (op.index, ← env'.execute op)) ops) := by
  induction ops with
  | nil => exact matches_pure rfl
  | cons op rest ih =>
    have hfirst := (h.execute op).matches (succeeds_execute h.oracle op)
      (succeeds_execute h.oracle' op)
    have hnamed : Matches hidden
        (fun x x' => x.1 = op.index ∧ x'.1 = op.index ∧ (op.index ≠ hidden → x.2 = x'.2))
        (do pure (op.index, ← env.execute op)) (do pure (op.index, ← env'.execute op)) :=
      hfirst.bind fun outcome outcome' houtcome => matches_pure ⟨rfl, rfl, houtcome⟩
    refine hnamed.bind ?_
    rintro ⟨_, outcome⟩ ⟨_, outcome'⟩ ⟨rfl, rfl, houtcome⟩
    refine ih.bind fun outcomes outcomes' houtcomes => matches_pure ?_
    by_cases hindex : op.index = hidden
    · simpa [hindex] using houtcomes
    · obtain rfl : outcome = outcome' := houtcome hindex
      simpa [hindex] using houtcomes

theorem applyNow (application : FileApplication) :
    Matches hidden (fun result result' => result.without hidden = result'.without hidden)
      (env.applyNow application) (env'.applyNow application) := by
  refine (h.collect application.operations).bind fun outcomes outcomes' houtcomes => ?_
  refine matches_logged ?_
  simp only [FileApplicationResult.without, houtcomes]

/-- What a worker does with the operations for a file. -/
theorem work (ticket : Nat) (application : FileApplication) :
    Matches hidden (· = ·) (env.work ticket application) (env'.work ticket application) := by
  refine (h.applyNow application).outcome.bind ?_
  have hdeliver : ∀ {delivery delivery' : Delivery},
      delivery.without hidden = delivery'.without hidden →
      Matches hidden (· = ·)
        (access fun s : ServiceState S Diary => ((s.deferred.deliver ticket delivery).1,
          { s with deferred := (s.deferred.deliver ticket delivery).2 }))
        (access fun s => ((s.deferred.deliver ticket delivery').1,
          { s with deferred := (s.deferred.deliver ticket delivery').2 })) := by
    intro delivery delivery' hdelivery
    refine matches_deferred (·.deliver ticket delivery) (·.deliver ticket delivery')
      (·.deliver ticket (delivery.without hidden))
      (fun d => d.deliver_without hidden ticket delivery) fun d => ?_
    rw [hdelivery]
    exact d.deliver_without hidden ticket delivery'
  rintro (failure | result) (failure' | result') hr
  · exact (hdeliver rfl).bind fun _ _ _ => matches_pure rfl
  · exact hr.elim
  · exact hr.elim
  · have hdelivery : (Delivery.arrived result).without hidden =
        (Delivery.arrived result').without hidden := congrArg Delivery.arrived hr
    exact (hdeliver hdelivery).bind fun _ _ _ => matches_logged rfl

/-- Applying the operations for a file, at once or on a worker, and waiting for the result. -/
theorem attend (application : FileApplication) :
    Matches hidden (fun result result' => result.without hidden = result'.without hidden)
      (env.apply application >>= env.attend) (env'.apply application >>= env'.attend) := by
  unfold Environment.apply
  split
  · rw [bind_assoc, bind_assoc]
    exact (h.applyNow application).bind fun _ _ hresult => matches_pure hresult
  · rw [bind_assoc, bind_assoc]
    refine (matches_deferred (·.submit application) (·.submit application) (·.submit application)
      (fun _ => rfl) fun _ => rfl).bind ?_
    rintro ticket _ rfl
    rw [pure_bind, pure_bind]
    refine (matches_deferred (·.takeLast) (·.takeLast) (·.takeLast) (fun _ => rfl)
      fun _ => rfl).bind ?_
    rintro job _ rfl
    cases job with
    | none => exact matches_wait ticket
    | some job => exact (h.work job.1 job.2).bind fun _ _ _ => matches_wait ticket

/-- The operations for a file in all registered indices, and writing down what became of them. -/
theorem carryFile (input : InputId) (task : Task) (application : List IndexId → FileApplication) :
    Matches hidden (· = ·)
      ((registeredIndices >>= fun indices => env.apply (application indices)) >>= fun handle => do
        let result ← env.attend handle
        write (entriesFor input task result))
      ((registeredIndices >>= fun indices => env'.apply (application indices)) >>= fun handle => do
        let result ← env'.attend handle
        write (entriesFor input task result)) := by
  have hindices : Matches hidden (· = ·) (registeredIndices : ServiceAction S Diary _)
      registeredIndices := matches_access fun s s' hs => ⟨hs.registeredIndices_eq.symm, hs⟩
  rw [bind_assoc, bind_assoc]
  refine hindices.bind ?_
  rintro indices _ rfl
  rw [← bind_assoc, ← bind_assoc]
  refine (h.attend (application indices)).bind fun result result' hresult => matches_write ?_
  rw [without_entriesFor, without_entriesFor, hresult]

/-- An errand. -/
theorem carry (errand : Errand) :
    Matches hidden (· = ·) (errand.carry env) (errand.carry env') := by
  cases errand with
  | execute op =>
    have hexecute := (h.execute op).matches (succeeds_execute h.oracle op)
      (succeeds_execute h.oracle' op)
    refine hexecute.bind fun outcome outcome' houtcome =>
      matches_write_entry rfl fun hindex => ?_
    rw [houtcome hindex]
  | updateFile content input mode =>
    exact h.carryFile input (.update content) fun indices => .updateIn indices content input mode
  | removeFile file input mode =>
    exact h.carryFile input .removal fun indices => .removeFrom indices file input mode
  | request index cause =>
    have hsucceeds : ∀ {env : Environment S U Diary}, env.oracle = .registry →
        (env.oracle.request index cause).Succeeds := by
      intro env horacle
      rw [horacle]
      exact Oracle.succeeds_requestRebuild index cause
    have hrequest := (h.request cause).matches (hsucceeds h.oracle) (hsucceeds h.oracle')
    refine hrequest.bind fun scheduled scheduled' hscheduled =>
      matches_write_entry rfl fun hindex => ?_
    rw [hscheduled hindex]
  | rebuild index refill =>
    have hrepopulate : Confined hidden index (· = ·)
        (do
          write [.emptied index]
          refill.action env index)
        (do
          write [.emptied index]
          refill.action env' index) :=
      (confined_write (by simp [Entry.index])).bind_eq fun _ => h.refill index refill
    have hrebuild := (h.rebuildIndex index hrepopulate).outcome.matches (succeeds_outcome _)
      (succeeds_outcome _)
    refine hrebuild.bind fun r r' hr => matches_write_entry rfl fun hindex => ?_
    rw [(hr hindex).eq]

/-- Errands, one after the other. -/
theorem carryAll (errands : List Errand) :
    Matches hidden (· = ·) (Errand.carryAll env errands) (Errand.carryAll env' errands) := by
  induction errands with
  | nil => exact matches_pure rfl
  | cons errand rest ih => exact (h.carry errand).bind fun _ _ _ => ih

end Environment.Twins

/-- However the handle of a registered index behaves, the users of the other indices cannot tell,
as long as no update that is prepared for one of these names it and no handle waits.  Two runs of
the same errands from the same state, in which nobody is at work, both come to their ends although
the index has another handle in the second one.  They write down the same about all other indices,
and leave each of these with the same storage, indexing states included, the same rebuild state and
the same number of requests. -/
theorem others_unaffected {S U : Type} [Inhabited S] (config : Config) (preparationTime : Duration)
    (hidden : IndexId) (handles handles' : IndexId → StoreHandle S U)
    (hbrisk : ∀ index, (handles index).IsBrisk) (hbrisk' : (handles' hidden).IsBrisk)
    (hsame : ∀ index, index ≠ hidden → handles' index = handles index)
    (hnames : ∀ index, index ≠ hidden → (handles index).NeverNames hidden)
    (s : ServiceState S Diary) (hregistered : s.isRegistered hidden = true) (hrest : s.AtRest)
    (hidle : s.deferred.IsIdle) (errands : List Errand) :
    ∃ t t', (Errand.carryAll (.ofOwners config handles preparationTime) errands).run s =
        some (.ok (), t) ∧
      (Errand.carryAll (.ofOwners config handles' preparationTime) errands).run s =
        some (.ok (), t') ∧
      Diary.without hidden t'.client = Diary.without hidden t.client ∧
      ∀ index, index ≠ hidden → t'.stores[index]? = t.stores[index]? ∧
        t'.registry.state index = t.registry.state index ∧
        t'.registry.requestCount index = t.registry.requestCount index := by
  have hall : ∀ index, (handles' index).IsBrisk := by
    intro index
    by_cases hindex : index = hidden
    · exact hindex ▸ hbrisk'
    · rw [hsame index hindex]
      exact hbrisk index
  obtain ⟨⟨⟩, t, hrun, -⟩ := (Environment.isTidy_ofOwners hbrisk config
    preparationTime).completes_carryAll errands s hrest.isFree hidle
  obtain ⟨⟨⟩, t', hrun', -⟩ := (Environment.isTidy_ofOwners hall config
    preparationTime).completes_carryAll errands s hrest.isFree hidle
  have htwins := Environment.twins_ofOwners hsame hnames config preparationTime
  obtain ⟨-, halike⟩ := htwins.carryAll errands s s (.refl hregistered) _ t hrun _ t' hrun'
  refine ⟨t, t', hrun, hrun', halike.diary, fun index hindex =>
    ⟨halike.stores index hindex, ?_, ?_⟩⟩
  · exact congrArg RebuildStatus.state (halike.statuses index hindex)
  · exact congrArg RebuildStatus.requests (halike.statuses index hindex)

/-- Storage in memory is worked on under the name of its own index. -/
theorem StoreHandle.neverNames_memory {K V : Type} [Ord K] [Std.TransOrd K] [BEq V]
    (indexer : Indexer K V) {index other : IndexId} (h : index ≠ other) :
    (memory indexer index).NeverNames other := by
  intro input content store update store' hrun
  have hprepare : (memory indexer index).prepare input content =
      (do pure ⟨index, input, ← Action.resume (mapped indexer index input content)⟩) := rfl
  rw [hprepare] at hrun
  cases hmapped : mapped indexer index input content with
  | error failure =>
    rw [hmapped] at hrun
    cases hrun
  | ok data =>
    rw [hmapped] at hrun
    obtain ⟨hupdate, -⟩ := Prod.mk.inj (Option.some.inj hrun)
    rw [← Except.ok.inj hupdate]
    exact h

namespace Sample

/-- Another index. -/
def lengths : IndexId := ⟨"lengths"⟩

/-- Indices in memory, by the sizes of files. -/
def sound (index : IndexId) : StoreHandle (MemoryIndex Nat Nat) (Mapping Nat Nat) :=
  .memory (fun content => .ok (Std.ExtTreeMap.empty.insert content.size 1)) index

/-- The same, where no update can be applied to one of the indices. -/
def unsound (index : IndexId) : StoreHandle (MemoryIndex Nat Nat) (Mapping Nat Nat) :=
  if index = sizes then { sound index with apply := fun _ => Action.raise (.storage "disk full") }
  else sound index

/-- A service with two indices. -/
def neighbours : ServiceState (MemoryIndex Nat Nat) Diary :=
  .ofStores .standard ((Std.ExtTreeMap.insert ∅ sizes .empty).insert lengths .empty) true []

/-- A file is updated in both indices, and each of them is rebuilt. -/
def chores : List Errand :=
  [.updateFile (content 3) ⟨1⟩ .deferred,
    .rebuild sizes (.file ⟨1⟩ (content 4) fun r => .done (r.map fun _ => ())),
    .request lengths ⟨"damage"⟩, .rebuild lengths (.file ⟨1⟩ (content 4) fun _ => .done (.ok ())),
    .removeFile none ⟨1⟩ .synchronous]

theorem isBrisk_sound (index : IndexId) : (sound index).IsBrisk :=
  StoreHandle.isBrisk_memory _ index

theorem isBrisk_unsound : (unsound sizes).IsBrisk := by
  rw [unsound, if_pos rfl]
  exact { isBrisk_sound sizes with apply := fun _ => trivial }

end Sample

/-- One of two indices breaks, and needs a rebuild in the end, while the other one is as it is
without that. -/
theorem others_unaffected_chores :
    ∃ t t', (Errand.carryAll (.ofOwners .standard Sample.sound .zero) Sample.chores).run
          Sample.neighbours = some (.ok (), t) ∧
        (Errand.carryAll (.ofOwners .standard Sample.unsound .zero) Sample.chores).run
          Sample.neighbours = some (.ok (), t') ∧
        t.registry.state Sample.sizes = .ok ∧ t'.registry.state Sample.sizes = .required ∧
        Diary.without Sample.sizes t'.client = Diary.without Sample.sizes t.client ∧
        ∀ index, index ≠ Sample.sizes → t'.stores[index]? = t.stores[index]? ∧
          t'.registry.state index = t.registry.state index ∧
          t'.registry.requestCount index = t.registry.requestCount index := by
  have hend : ((Errand.carryAll (.ofOwners .standard Sample.sound .zero) Sample.chores).run
      Sample.neighbours).map (fun x => x.2.registry.state Sample.sizes) = some .ok := by
    decide +kernel
  have hend' : ((Errand.carryAll (.ofOwners .standard Sample.unsound .zero) Sample.chores).run
      Sample.neighbours).map (fun x => x.2.registry.state Sample.sizes) = some .required := by
    decide +kernel
  obtain ⟨t, t', hrun, hrun', hsame⟩ := others_unaffected .standard .zero Sample.sizes
    Sample.sound Sample.unsound Sample.isBrisk_sound Sample.isBrisk_unsound
    (fun index hindex => if_neg hindex)
    (fun index hindex => StoreHandle.neverNames_memory _ hindex) Sample.neighbours rfl
    (atRest_ofStores _ _ _ _) DeferredWork.isIdle_empty Sample.chores
  rw [hrun] at hend
  rw [hrun'] at hend'
  exact ⟨t, t', hrun, hrun', Option.some.inj hend, Option.some.inj hend', hsame⟩

end FileIndexing
