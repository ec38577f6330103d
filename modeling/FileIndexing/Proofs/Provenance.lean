import FileIndexing.Proofs.Errands
import FileIndexing.Proofs.Presence

/-!
# Where the data of an input come from

What it means that an index in memory is up to date for an input, as the diary of its user tells:
some content was applied to the input since the index was last emptied, no removal has changed
anything since, and what is stored is what the indexer makes of the last such content.

* `lastContent?` reads the last content that still counts off a diary.
* `Faithful` is the invariant: where the storage says that an input is up to date, it stores what
  the last content in the diary is mapped to.  Its steps are `Faithful.executed`, `Faithful.filed`,
  `Faithful.cleared` and `Faithful.emptied`.
* `Desk` is the part of a service that is at stake, and `Action.Serves` says what an action makes of
  it when it is run alone.  There is one such statement for every part of an operation, of putting a
  file back and of a rebuild.
* `exists_content_of_upToDate` is the result.
-/

namespace FileIndexing

open FileIndexing.Action Service

variable {K V : Type} [Ord K]

/-! ## Diaries -/

section Diaries

/-- The content that was applied to a pair, if that is what an entry tells. -/
def Entry.content? (indexers : IndexId → Indexer K V) (pair : WriteMark) :
    Entry → Option FileContent
  | .executed index input (.update content) (.applied _) =>
    if ⟨index, input⟩ = pair then some content else none
  | .filed index input content _ =>
    if ⟨index, input⟩ = pair ∧ (indexers index content).isOk = true then some content else none
  | _ => none

/-- Whether an entry tells that what was applied to a pair before counts no more: its index was
emptied, or its data were removed. -/
def Entry.voids (pair : WriteMark) : Entry → Bool
  | .emptied index => decide (index = pair.index)
  | .executed index input .removal (.applied true) => decide ((⟨index, input⟩ : WriteMark) = pair)
  | _ => false

/-- The content that was applied to a pair last, unless it counts no more. -/
def lastContent? (indexers : IndexId → Indexer K V) (pair : WriteMark) :
    Diary → Option FileContent
  | [] => none
  | entry :: earlier =>
    match entry.content? indexers pair with
    | some content => some content
    | none => if entry.voids pair then none else lastContent? indexers pair earlier

variable {indexers : IndexId → Indexer K V} {pair : WriteMark}

/-- An entry that has nothing to do with a pair. -/
theorem lastContent?_cons_of_none {entry : Entry} {earlier : Diary}
    (hcontent : entry.content? indexers pair = none) (hvoids : entry.voids pair = false) :
    lastContent? indexers pair (entry :: earlier) = lastContent? indexers pair earlier := by
  simp [lastContent?, hcontent, hvoids]

/-- The last content is that of an entry since which nothing has been applied and nothing voided. -/
theorem exists_of_lastContent? {diary : Diary} {content : FileContent}
    (h : lastContent? indexers pair diary = some content) :
    ∃ later entry earlier, diary = later ++ entry :: earlier ∧
      entry.content? indexers pair = some content ∧
      ∀ other ∈ later, other.content? indexers pair = none ∧ other.voids pair = false := by
  induction diary with
  | nil => cases h
  | cons entry rest ih =>
    cases hcontent : entry.content? indexers pair with
    | some found =>
      simp only [lastContent?, hcontent] at h
      exact ⟨[], entry, rest, rfl, h ▸ hcontent, by simp⟩
    | none =>
      cases hvoids : entry.voids pair with
      | true => simp [lastContent?, hcontent, hvoids] at h
      | false =>
        rw [lastContent?_cons_of_none hcontent hvoids] at h
        obtain ⟨later, last, earlier, rfl, hlast, hlater⟩ := ih h
        refine ⟨entry :: later, last, earlier, rfl, hlast, fun other hother => ?_⟩
        obtain rfl | hother := List.mem_cons.mp hother
        · exact ⟨hcontent, hvoids⟩
        · exact hlater other hother

end Diaries

/-! ## What is stored -/

section Stored

variable [Std.TransOrd K] [BEq V]

/-- Whether what is stored for an input, where nothing counts as no keys at all, is the given data:
the very same or equal to them. -/
def Reads (stored : Option (Mapping K V)) (data : Mapping K V) : Prop :=
  stored.getD ∅ = data ∨ (stored.getD ∅ == data) = true

/-- Where equality of keys and of values is what it should be, reading data is reading the very
same. -/
theorem Reads.eq [Std.LawfulEqOrd K] [LawfulBEq V] {stored : Option (Mapping K V)}
    {data : Mapping K V} (h : Reads stored data) : stored.getD ∅ = data :=
  h.elim id fun h => eq_of_beq h

/-- What was put in place of the data of an input is read afterwards. -/
theorem reads_replace (m : MemoryIndex K V) (input : InputId) (data : Mapping K V) :
    Reads ((m.replace input data).2.data.forward? input) data := by
  rw [MemoryIndex.forward?_replace, (MemoryIndex.data_replace _ _ _).1]
  cases hholds : m.data.holds input data with
  | true =>
    simp only [IndexData.replace_of_holds _ _ _ hholds, Bool.false_eq_true, false_and, if_false]
    unfold IndexData.holds at hholds
    unfold IndexData.forward?
    split at hholds
    · next old hold => exact .inr (by rwa [hold, Option.getD_some])
    · next hnone =>
      rw [hnone]
      exact .inl (Std.ExtTreeMap.isEmpty_iff.mp hholds).symm
  | false =>
    simp only [IndexData.replace, hholds, Bool.false_eq_true, if_false, true_and, if_true]
    split
    · next hempty => exact .inl (Std.ExtTreeMap.isEmpty_iff.mp hempty).symm
    · exact .inl rfl

/-- Where the storage says that an input is up to date, the diary tells of a content that was
applied to it last, and the storage holds what this content is mapped to. -/
def Faithful (indexers : IndexId → Indexer K V) (diary : Diary) (stores : Stores K V) : Prop :=
  ∀ pair : WriteMark, (storeAt stores pair.index).state pair.input = .upToDate →
    ∃ content data, lastContent? indexers pair diary = some content ∧
      indexers pair.index content = .ok data ∧
      Reads ((storeAt stores pair.index).data.forward? pair.input) data

namespace Faithful

variable {indexers : IndexId → Indexer K V} {diary : Diary} {stores stores' : Stores K V}

/-- An entry that tells of nothing that happened to storage. -/
theorem cons (h : Faithful indexers diary stores) {entry : Entry}
    (hcontent : ∀ pair, entry.content? indexers pair = none)
    (hvoids : ∀ pair, entry.voids pair = false) : Faithful indexers (entry :: diary) stores := by
  intro pair hstate
  rw [lastContent?_cons_of_none (hcontent pair) (hvoids pair)]
  exact h pair hstate

/-- What happens to one pair, and is told by an entry, leaves the other pairs as they are. -/
theorem of_pair (h : Faithful indexers diary stores) {entry : Entry} (pair : WriteMark)
    (hother : ∀ other, other ≠ pair →
      entry.content? indexers other = none ∧ entry.voids other = false ∧
        (storeAt stores' other.index).state other.input =
          (storeAt stores other.index).state other.input ∧
        (storeAt stores' other.index).data.forward? other.input =
          (storeAt stores other.index).data.forward? other.input)
    (hpair : (storeAt stores' pair.index).state pair.input = .upToDate →
      ∃ content data, lastContent? indexers pair (entry :: diary) = some content ∧
        indexers pair.index content = .ok data ∧
        Reads ((storeAt stores' pair.index).data.forward? pair.input) data) :
    Faithful indexers (entry :: diary) stores' := by
  intro other hstate
  by_cases heq : other = pair
  · exact heq ▸ hpair (heq ▸ hstate)
  · obtain ⟨hcontent, hvoids, hsame, hforward⟩ := hother other heq
    rw [lastContent?_cons_of_none hcontent hvoids, hforward]
    exact h other (hsame ▸ hstate)

/-- Storage that is put in place of that of an index, and differs from it for one input only. -/
theorem of_insert (h : Faithful indexers diary stores) {entry : Entry} {index : IndexId}
    (input : InputId) {m : MemoryIndex K V}
    (hentry : ∀ other, (⟨index, input⟩ : WriteMark) ≠ other →
      entry.content? indexers other = none ∧ entry.voids other = false)
    (hm : ∀ other, input ≠ other → m.state other = (storeAt stores index).state other ∧
      m.data.forward? other = (storeAt stores index).data.forward? other)
    (hpair : m.state input = .upToDate →
      ∃ content data, lastContent? indexers ⟨index, input⟩ (entry :: diary) = some content ∧
        indexers index content = .ok data ∧ Reads (m.data.forward? input) data) :
    Faithful indexers (entry :: diary) (stores.insert index m) := by
  refine h.of_pair ⟨index, input⟩ (fun other hne => ?_) (fun hstate => ?_)
  · obtain ⟨hcontent, hvoids⟩ := hentry other (Ne.symm hne)
    refine ⟨hcontent, hvoids, ?_⟩
    rw [storeAt_insert]
    split
    · next hindex =>
      have hinput : input ≠ other.input := by
        rintro rfl
        exact hne (by rw [hindex])
      rw [← hindex]
      exact hm other.input hinput
    · exact ⟨rfl, rfl⟩
  · rw [storeAt_insert, if_pos rfl] at hstate ⊢
    exact hpair hstate

/-- An operation that was applied. -/
theorem executed (h : Faithful indexers diary stores) (op : Operation) {data : Mapping K V}
    (hmapped : op.mapped indexers = .ok data) :
    Faithful indexers
      (.executed op.index op.input op.task
        (.applied (op.effect data (storeAt stores op.index)).1) :: diary)
      (stores.insert op.index (op.effect data (storeAt stores op.index)).2) := by
  refine h.of_insert op.input (fun other hne => ?_) (fun other hne => ⟨?_, ?_⟩)
    (fun hstate => ?_)
  · cases op.task with
    | removal =>
      cases (op.effect data (storeAt stores op.index)).1 <;> simp [Entry.content?, Entry.voids, hne]
    | update content => simp [Entry.content?, Entry.voids, hne]
  · simp [Operation.state_effect, hne]
  · simp [Operation.data_effect, MemoryIndex.forward?_replace, hne]
  · rw [Operation.data_effect]
    cases htask : op.task with
    | update content =>
      have hindexer : indexers op.index content = .ok data := by
        rw [Operation.mapped, htask] at hmapped
        simp only [Task.content?, StoreHandle.mapped] at hmapped
        split at hmapped
        · next found hfound => rw [hfound, Except.ok.inj hmapped]
        · cases hmapped
        · cases hmapped
      exact ⟨content, data, by simp [lastContent?, Entry.content?], hindexer,
        reads_replace _ _ _⟩
    | removal =>
      rw [Operation.state_effect] at hstate
      cases hchanged : (op.effect data (storeAt stores op.index)).1 with
      | true => simp [hchanged, Operation.settledState, htask] at hstate
      | false =>
        rw [lastContent?_cons_of_none rfl rfl, MemoryIndex.forward?_replace,
          ← Operation.effect_fst, hchanged]
        simp only [hchanged, Bool.false_eq_true, false_and, if_false] at hstate ⊢
        exact h ⟨op.index, op.input⟩ hstate

/-- A file that was put back and could be mapped. -/
theorem filed (h : Faithful indexers diary stores) {index : IndexId} {input : InputId}
    {content : FileContent} {data : Mapping K V} (hmapped : indexers index content = .ok data)
    (answer : Except Failure Bool) :
    Faithful indexers (.filed index input content answer :: diary)
      (stores.insert index (((storeAt stores index).replace input data).2.setIndexed input)) := by
  refine h.of_insert input (fun other hne => ?_) (fun other hne => ⟨?_, ?_⟩)
    (fun _ => ⟨content, data, ?_, hmapped, ?_⟩)
  · simp [Entry.content?, Entry.voids, hne]
  · simp [MemoryIndex.state_setIndexed, hne]
  · simp [MemoryIndex.forward?_replace, hne]
  · simp [lastContent?, Entry.content?, hmapped, Except.isOk, Except.toBool]
  · exact reads_replace _ _ _

/-- A file that was put back and could not be mapped. -/
theorem filed_refused (h : Faithful indexers diary stores) {index : IndexId} {input : InputId}
    {content : FileContent} {refusal : Refusal} (hrefused : indexers index content = .error refusal)
    (answer : Except Failure Bool) :
    Faithful indexers (.filed index input content answer :: diary) stores :=
  h.cons (fun pair => by simp [Entry.content?, hrefused, Except.isOk, Except.toBool])
    fun pair => rfl

/-- An index that was emptied is not up to date for any input. -/
theorem cleared (h : Faithful indexers diary stores) (index : IndexId) :
    Faithful indexers diary (stores.insert index (storeAt stores index).dropData.dropStates) := by
  intro pair hstate
  rw [storeAt_insert] at hstate ⊢
  split at hstate
  · next hindex => simp at hstate
  · next hindex =>
    rw [if_neg hindex]
    exact h pair hstate

/-- What the diary tells of an index may be forgotten once no input of it is up to date. -/
theorem emptied (h : Faithful indexers diary stores) {index : IndexId}
    (hnone : ∀ input, (storeAt stores index).state input = .notIndexed) :
    Faithful indexers (.emptied index :: diary) stores := by
  intro pair hstate
  have hne : index ≠ pair.index := by
    rintro rfl
    rw [hnone] at hstate
    cases hstate
  rw [lastContent?_cons_of_none rfl (by simp [Entry.voids, hne])]
  exact h pair hstate

/-- An operation that was not applied. -/
theorem executed_failed (h : Faithful indexers diary stores) (op : Operation) {outcome : Outcome}
    (houtcome : outcome.isSuccess = false) :
    Faithful indexers (.executed op.index op.input op.task outcome :: diary) stores :=
  h.cons
    (fun pair => by
      cases op.task <;> cases outcome <;> simp_all [Entry.content?, Outcome.isSuccess])
    fun pair => by cases op.task <;> cases outcome <;> simp_all [Entry.voids, Outcome.isSuccess]

end Faithful

end Stored

/-! ## What is at stake -/

/-- The storage, the diary and the work left to the workers. -/
structure Desk (K V : Type) [Ord K] where
  stores : Stores K V
  diary : Diary
  deferred : DeferredWork

namespace ServiceState

/-- The part of a service that is at stake. -/
def desk (s : MemoryState K V Diary) : Desk K V := ⟨s.stores, s.client, s.deferred⟩

@[simp] theorem desk_moveRegistry (s : MemoryState K V Diary) (index : IndexId)
    (registry : RebuildRegistry) : (s.moveRegistry index registry).desk = s.desk := by
  rw [moveRegistry]
  split <;> rfl

@[simp] theorem desk_endRebuild (s : MemoryState K V Diary) (index : IndexId) :
    (s.endRebuild index).desk = s.desk := by
  have hmove := desk_moveRegistry s index (s.registry.markFinished index)
  unfold endRebuild
  split
  · exact hmove
  · exact hmove

end ServiceState

/-- Puts the storage of an index in place of what there is. -/
def Desk.put (d : Desk K V) (index : IndexId) (m : MemoryIndex K V) : Desk K V :=
  { d with stores := d.stores.insert index m }

/-- Of two storages put in the place of an index only the later one is left. -/
theorem Desk.put_put (d : Desk K V) (index : IndexId) (m m' : MemoryIndex K V) :
    (d.put index m).put index m' = d.put index m' :=
  congrArg (fun stores => { d with stores }) (insert_insert d.stores index m m')

@[simp] theorem Desk.storeAt_put (d : Desk K V) (index : IndexId) (m : MemoryIndex K V) :
    storeAt (d.put index m).stores index = m := by
  simp [Desk.put, storeAt_insert]

namespace Action

variable {α β : Type} {d : Desk K V}

/-- What an action that is run alone makes of what is at stake. -/
def Serves (a : ServiceAction (MemoryIndex K V) Diary α) (d : Desk K V)
    (post : Except Failure α → Desk K V → Prop) : Prop :=
  ∀ s : MemoryState K V Diary, s.desk = d → a.Leaves s fun r t => post r t.desk

/-- An action that leaves alone what is at stake. -/
def Clerical (a : ServiceAction (MemoryIndex K V) Diary α) : Prop :=
  ∀ s : MemoryState K V Diary, a.Leaves s fun _ t => t.desk = s.desk

variable {a : ServiceAction (MemoryIndex K V) Diary α}
  {k : α → ServiceAction (MemoryIndex K V) Diary β} {post : Except Failure β → Desk K V → Prop}

theorem Serves.mono {mid post : Except Failure α → Desk K V → Prop} (h : a.Serves d mid)
    (himp : ∀ r d', mid r d' → post r d') : a.Serves d post :=
  fun s hs => (h s hs).mono fun r t => himp r t.desk

theorem Clerical.serves (ha : a.Clerical) (d : Desk K V) : a.Serves d fun _ d' => d' = d :=
  fun s hs => (ha s).mono fun _ _ ht => ht.trans hs

/-- An action that leaves alone what is at stake and does not fail. -/
theorem Clerical.serves_ok (ha : a.Clerical) (hok : a.Succeeds) (d : Desk K V) :
    a.Serves d fun r d' => (∃ v, r = .ok v) ∧ d' = d := by
  intro s hs r t hrun
  exact ⟨hok.leaves s r t hrun, (ha s r t hrun).trans hs⟩

theorem serves_resume {r : Except Failure α} {post : Except Failure α → Desk K V → Prop}
    (h : post r d) : (resume r : ServiceAction (MemoryIndex K V) Diary α).Serves d post :=
  fun _ hs => leaves_resume (hs ▸ h)

/-- What follows an access. -/
theorem serves_access_bind {f : MemoryState K V Diary → α × MemoryState K V Diary}
    (h : ∀ s, s.desk = d → (k (f s).1).Serves (f s).2.desk post) :
    (access f >>= k).Serves d post :=
  fun s hs => leaves_access_bind (h s hs _ rfl)

/-- What follows a change of something that is not at stake. -/
theorem serves_update_bind {f : MemoryState K V Diary → MemoryState K V Diary}
    {k : Unit → ServiceAction (MemoryIndex K V) Diary β} (hf : ∀ s, (f s).desk = s.desk)
    (hk : (k ()).Serves d post) : (update f >>= k).Serves d post :=
  fun s hs => leaves_access_bind (hk _ ((hf s).trans hs))

/-- What follows an action goes on with what that action has left. -/
theorem Serves.bind {mid : Except Failure α → Desk K V → Prop} (ha : a.Serves d mid)
    (hk : ∀ v d', mid (.ok v) d' → (k v).Serves d' post)
    (hfail : ∀ failure d', mid (.error failure) d' → post (.error failure) d') :
    (a >>= k).Serves d post :=
  fun s hs => leaves_bind _ (ha s hs) (fun v _ hmid => hk v _ hmid _ rfl) fun failure _ hmid =>
    hfail failure _ hmid

/-- What follows an action that does not fail goes on with its result as well. -/
theorem Serves.bind_ok {mid : α → Desk K V → Prop}
    (ha : a.Serves d fun r d' => ∃ v, r = .ok v ∧ mid v d')
    (hk : ∀ v d', mid v d' → (k v).Serves d' post) : (a >>= k).Serves d post := by
  refine ha.bind ?_ ?_
  · rintro v d' ⟨_, hv, hmid⟩
    obtain rfl := Except.ok.inj hv
    exact hk v d' hmid
  · rintro failure d' ⟨_, hv, -⟩
    cases hv

/-- What follows an action whose end is known. -/
theorem Serves.bind_eq {v : α} {d₁ : Desk K V} (ha : a.Serves d fun r d' => r = .ok v ∧ d' = d₁)
    (hk : (k v).Serves d₁ post) : (a >>= k).Serves d post := by
  refine ha.bind ?_ ?_
  · rintro _ _ ⟨hv, rfl⟩
    exact Except.ok.inj hv ▸ hk
  · rintro failure _ ⟨hv, -⟩
    cases hv

theorem Serves.outcome_bind {mid : Except Failure α → Desk K V → Prop}
    {k : Except Failure α → ServiceAction (MemoryIndex K V) Diary β} (ha : a.Serves d mid)
    (hk : ∀ r d', mid r d' → (k r).Serves d' post) : (a.outcome >>= k).Serves d post :=
  fun s hs => leaves_outcome_bind _ (ha s hs) fun r _ hmid => hk r _ hmid _ rfl

/-- What follows an action that leaves alone what is at stake. -/
theorem Clerical.bind (ha : a.Clerical) (hk : ∀ v, (k v).Serves d post)
    (hfail : ∀ failure, post (.error failure) d) : (a >>= k).Serves d post :=
  (ha.serves d).bind (fun v _ hd => hd ▸ hk v) fun failure _ hd => hd ▸ hfail failure

/-- What follows an action that leaves alone what is at stake and does not fail. -/
theorem Clerical.bind_ok (ha : a.Clerical) (hok : a.Succeeds) (hk : ∀ v, (k v).Serves d post) :
    (a >>= k).Serves d post :=
  (ha.serves_ok hok d).bind (fun v _ hd => hd.2 ▸ hk v) fun failure _ hd => by
    obtain ⟨⟨v, hv⟩, -⟩ := hd
    cases hv

theorem Serves.result {mid : Except Failure (Except Error α) → Desk K V → Prop}
    (h : a.Serves d fun r d' =>
      match r with
      | .ok v => mid (.ok (.ok v)) d'
      | .error (.error cause) => mid (.ok (.error cause)) d'
      | .error (.panic payload) => mid (.error (.panic payload)) d') : a.result.Serves d mid :=
  fun s hs => leaves_result (h s hs)

/-- Where it does not matter how an action ends. -/
theorem Serves.result_of_desk {left : Desk K V → Prop} (h : a.Serves d fun _ => left) :
    a.result.Serves d fun _ => left :=
  Serves.result (h.mono fun r d' hd' => by rcases r with (cause | payload) | value <;> exact hd')

theorem Serves.caught {mid : Except Failure (Except Error α) → Desk K V → Prop}
    (h : a.Serves d fun r d' => mid (.ok (r.mapError Failure.toError)) d') :
    a.caught.Serves d mid :=
  fun s hs => leaves_caught (h s hs)

/-! Marks and locks are not at stake. -/

section Locks

variable {post : Except Failure α → Desk K V → Prop}

theorem Serves.withIndexLock (ha : a.Serves d post) (index : IndexId) :
    (Service.withIndexLock index a).Serves d post :=
  fun _ hs => Service.leaves_withIndexLock fun _ _ _ _ => ha _ hs

theorem Serves.withMark (ha : a.Serves d post) (mark : WriteMark) :
    (Service.withMark mark a).Serves d post :=
  fun _ hs => leaves_await_bind fun _ => leaves_ensuring (ha _ hs)

theorem Serves.withReadLock (ha : a.Serves d post) : (Service.withReadLock a).Serves d post :=
  fun _ hs => leaves_await_bind fun _ => leaves_ensuring (ha _ hs)

theorem Serves.withStructuralLock (ha : a.Serves d post) :
    (Service.withStructuralLock a).Serves d post :=
  fun _ hs => leaves_access_bind (leaves_await_bind fun _ => leaves_ensuring (ha _ hs))

end Locks

/-- Replacing the storage of an index in one access. -/
theorem serves_onStore (index : IndexId) (f : MemoryIndex K V → α × MemoryIndex K V)
    (d : Desk K V) :
    (Handle.onStore index (access f) : ServiceAction (MemoryIndex K V) Diary α).Serves d
      fun r d' => r = .ok (f (storeAt d.stores index)).1 ∧
        d' = d.put index (f (storeAt d.stores index)).2 := by
  rintro s rfl r t hrun
  rw [Handle.onStore_access] at hrun
  obtain ⟨rfl, rfl⟩ := Prod.mk.inj (Option.some.inj hrun)
  exact ⟨rfl, rfl⟩

end Action

/-! ## The parts of a service -/

section Parts

variable [Std.TransOrd K] [BEq V] {config : Config} {indexers : IndexId → Indexer K V}
  {d : Desk K V}

omit [Std.TransOrd K] [BEq V] in
/-- The actions that leave alone what is at stake. -/
theorem clericalActions : ActionClass (fun s t : MemoryState K V Diary => t.desk = s.desk)
    fun {_} a => a.Clerical :=
  .ofLeaves (fun _ => rfl) fun _ _ _ h h' => h'.trans h

/-- What a service counts, logs, looks at and requests is not at stake. -/
theorem clericalClass (config : Config) (indexers : IndexId → Indexer K V) :
    TallyClass (Environment.memory config indexers : Environment _ _ Diary)
      fun {_} a => a.Clerical where
  toActionClosure := clericalActions.closure
  registered _ := clericalActions.access fun _ => rfl
  indices := clericalActions.access fun _ => rfl
  listeners := clericalActions.access fun _ => rfl
  log _ := clericalActions.update fun _ => rfl
  deliver _ _ := clericalActions.update fun _ => rfl
  state _ := clericalActions.access fun _ => rfl
  request index _ := clericalActions.closure.mem_requestRebuild
    (clericalActions.update fun _ => rfl) (fun _ => clericalActions.update fun _ => rfl)
    (clericalActions.update fun _ => rfl)
    (clericalActions.access fun s => s.desk_moveRegistry index _)
  drop _ := clericalActions.update fun _ => rfl
  count _ := clericalActions.update fun _ => rfl
  bump := clericalActions.access fun _ => rfl

namespace Environment

/-- Applying an update. -/
theorem applyUpdate_serves (origin : Origin) (update : PreparedUpdate (Mapping K V)) :
    ((Environment.memory config indexers : Environment _ _ Diary).applyUpdate origin update).Serves
      d fun r d' =>
        r = .ok ((storeAt d.stores update.index).replace update.input update.change).1 ∧
          d' = d.put update.index
            ((storeAt d.stores update.index).replace update.input update.change).2 := by
  refine serves_update_bind (fun _ => rfl) ?_
  rw [memory_apply]
  refine (serves_onStore update.index _ _).outcome_bind ?_
  rintro _ _ ⟨rfl, rfl⟩
  exact serves_update_bind (fun _ => rfl) (serves_resume ⟨rfl, rfl⟩)

/-- Applying an update unless the gate is closed. -/
theorem runUpdateUnless_serves (update : PreparedUpdate (Mapping K V)) :
    let env := (Environment.memory config indexers : Environment _ _ Diary)
    (env.runUpdateUnless .operation update env.isGated).Serves d fun r d' =>
      (d' = d ∧ ∀ changed, r ≠ .ok (some changed)) ∨
        r = .ok (some ((storeAt d.stores update.index).replace update.input update.change).1) ∧
          d' = d.put update.index
            ((storeAt d.stores update.index).replace update.input update.change).2 := by
  refine Serves.withIndexLock ?_ _
  refine ((clericalClass config indexers).mem_isGated update.index).bind (fun gated => ?_)
    fun _ => .inl ⟨rfl, by simp⟩
  split
  · exact serves_resume (r := .ok none) (.inl ⟨rfl, by simp⟩)
  · rw [← bind_pure_comp]
    exact (applyUpdate_serves .operation update).bind_eq
      (serves_resume (r := .ok (some _)) (.inr ⟨rfl, rfl⟩))

/-- Setting the indexing state after an operation. -/
theorem setState_serves (op : Operation) :
    ((Environment.memory config indexers : Environment _ _ Diary).setState op).Serves d fun r d' =>
      r = .ok () ∧ d' = d.put op.index (op.settle (storeAt d.stores op.index)) := by
  refine Serves.withReadLock ?_
  unfold Operation.settle
  cases op.task with
  | removal => exact serves_onStore op.index (fun m => ((), m.setUnindexed op.input)) d
  | update content => exact serves_onStore op.index (fun m => ((), m.setIndexed op.input)) d

end Environment

/-- What an operation makes of the storage, and with which outcome: it is applied to its index, or
it leaves everything as it is. -/
def Operation.Wrought (indexers : IndexId → Indexer K V) (op : Operation) (d : Desk K V)
    (r : Except Failure Outcome) (d' : Desk K V) : Prop :=
  (d' = d ∧ ∀ changed, r ≠ .ok (.applied changed)) ∨
    ∃ data, op.mapped indexers = .ok data ∧
      r = .ok (.applied (op.effect data (storeAt d.stores op.index)).1) ∧
      d' = d.put op.index (op.effect data (storeAt d.stores op.index)).2

namespace Environment

/-- What follows once an update has been prepared. -/
theorem carryOut_serves {op : Operation} {data : Mapping K V}
    (hmapped : op.mapped indexers = .ok data) :
    ((Environment.memory config indexers : Environment _ _ Diary).carryOut op
      ⟨op.index, op.input, data⟩).Serves d (op.Wrought indexers d) := by
  refine (runUpdateUnless_serves _).bind ?_ ?_
  · rintro answer d' (⟨rfl, hnone⟩ | ⟨hsome, rfl⟩)
    · cases answer with
      | none =>
        exact serves_update_bind (fun _ => rfl)
          (serves_resume (r := .ok Outcome.gated) (.inl ⟨rfl, by simp⟩))
      | some changed => exact absurd rfl (hnone changed)
    · obtain rfl := Except.ok.inj hsome
      have heffect : op.effect data (storeAt d.stores op.index) =
          (((storeAt d.stores op.index).replace op.input data).1,
            if ((storeAt d.stores op.index).replace op.input data).1 then
              op.settle ((storeAt d.stores op.index).replace op.input data).2
            else ((storeAt d.stores op.index).replace op.input data).2) := rfl
      generalize (storeAt d.stores op.index).replace op.input data = replaced at heffect ⊢
      obtain ⟨changed, m⟩ := replaced
      cases changed with
      | false =>
        exact serves_resume (r := .ok (Outcome.applied false))
          (.inr ⟨data, hmapped, by rw [heffect], by rw [heffect]; rfl⟩)
      | true =>
        have hsettled : (do
            (Environment.memory config indexers : Environment _ _ Diary).setState op
            pure (Outcome.applied true)).Serves (d.put op.index m) (op.Wrought indexers d) := by
          refine (setState_serves op).bind_eq ?_
          rw [Desk.storeAt_put, Desk.put_put]
          exact serves_resume (r := .ok (Outcome.applied true))
            (.inr ⟨data, hmapped, by rw [heffect], by rw [heffect]; rfl⟩)
        simp only [if_true]
        split
        · exact serves_update_bind (fun _ => rfl) hsettled
        · exact hsettled
  · rintro failure d' (⟨rfl, -⟩ | ⟨hsome, -⟩)
    · exact .inl ⟨rfl, by simp⟩
    · cases hsome

/-- Preparing an update makes of the content what the indexer makes of it. -/
theorem prepareTimed_serves (op : Operation) :
    ((Environment.memory config indexers : Environment _ _ Diary).prepareTimed op.index op.input
      op.task.content?).Serves d fun r d' => d' = d ∧
        ∀ update, r = .ok (.ok update) → ∃ data, op.mapped indexers = .ok data ∧
          update = ⟨op.index, op.input, data⟩ := by
  have hprepare : ((Environment.memory config indexers : Environment _ _ Diary).handle.prepare
      op.index op.input op.task.content?).result.Serves d fun r d' => d' = d ∧
        ∀ update, r = .ok (.ok update) → ∃ data, op.mapped indexers = .ok data ∧
          update = ⟨op.index, op.input, data⟩ := by
    have hdef : StoreHandle.mapped (indexers op.index) op.index op.input op.task.content? =
      op.mapped indexers := rfl
    rw [memory_prepare, hdef]
    refine Serves.result (serves_resume ?_)
    rcases hmapped : op.mapped indexers with (cause | payload) | data
    · exact ⟨rfl, by simp⟩
    · exact ⟨rfl, by simp⟩
    · refine ⟨rfl, fun update hupdate => ⟨data, rfl, ?_⟩⟩
      exact (Except.ok.inj (Except.ok.inj hupdate)).symm
  refine hprepare.bind ?_ ?_
  · rintro prepared _ ⟨rfl, hprepared⟩
    refine ((clericalClass config indexers).count _).bind_ok (succeeds_access _) fun _ => ?_
    refine ((clericalClass config indexers).count _).bind_ok (succeeds_access _) fun _ => ?_
    exact serves_resume (r := .ok prepared) ⟨rfl, hprepared⟩
  · rintro failure _ ⟨rfl, -⟩
    exact ⟨rfl, by simp⟩

/-- The part of an operation whose failures count as damage to storage. -/
theorem attempt_serves (op : Operation) :
    ((Environment.memory config indexers : Environment _ _ Diary).attempt op).Serves d
      (op.Wrought indexers d) := by
  refine (prepareTimed_serves op).bind ?_ ?_
  · rintro prepared _ ⟨rfl, hprepared⟩
    rcases prepared with cause | update
    · cases cause with
      | mapping failure =>
        exact ((clericalClass config indexers).mem_notify _).bind
          (fun _ => serves_resume (r := .ok (Outcome.mappingFailed failure)) (.inl ⟨rfl, by simp⟩))
          fun _ => .inl ⟨rfl, by simp⟩
      | _ => exact serves_resume (r := .error (.error _)) (.inl ⟨rfl, by simp⟩)
    · obtain ⟨data, hmapped, rfl⟩ := hprepared update rfl
      exact carryOut_serves hmapped
  · rintro failure _ ⟨rfl, -⟩
    exact .inl ⟨rfl, by simp⟩

/-- Counting an outcome. -/
theorem recorded_serves (config : Config) (indexers : IndexId → Indexer K V) (outcome : Outcome) :
    (recorded outcome : ServiceAction (MemoryIndex K V) Diary Outcome).Serves d fun r d' =>
      r = .ok outcome ∧ d' = d :=
  ((clericalClass config indexers).mem_recordOutcome outcome).bind_ok (succeeds_recordOutcome _)
    fun _ => serves_resume (r := .ok outcome) ⟨rfl, rfl⟩

/-- What an operation does while its mark is held. -/
theorem executeMarked_serves (op : Operation) :
    ((Environment.memory config indexers : Environment _ _ Diary).executeMarked op).Serves d
      (op.Wrought indexers d) := by
  have hattempt : ((Environment.memory config indexers : Environment _ _ Diary).attempt
      op).caught.Serves d fun r d' => (∃ cause, r = .ok (.error cause) ∧ d' = d) ∨
        ∃ outcome, r = .ok (.ok outcome) ∧ op.Wrought indexers d (.ok outcome) d' := by
    refine Serves.caught ((attempt_serves op).mono ?_)
    rintro (failure | outcome) d' hwrought
    · obtain ⟨rfl, -⟩ | ⟨_, -, h, -⟩ := hwrought
      · exact .inl ⟨failure.toError, rfl, rfl⟩
      · cases h
    · exact .inr ⟨outcome, rfl, hwrought⟩
  refine hattempt.bind ?_ ?_
  · rintro caught d' (⟨cause, hcaught, rfl⟩ | ⟨outcome, hcaught, hwrought⟩)
    · obtain rfl := Except.ok.inj hcaught
      refine ((clericalClass config indexers).mem_requestRebuildOnError cause op.index).bind_ok
        (succeeds_requestRebuildOnError rfl cause op.index) fun _ => ?_
      refine (recorded_serves config indexers _).mono ?_
      rintro _ _ ⟨rfl, rfl⟩
      exact .inl ⟨rfl, by simp⟩
    · obtain rfl := Except.ok.inj hcaught
      refine (recorded_serves config indexers outcome).mono ?_
      rintro _ _ ⟨rfl, rfl⟩
      exact hwrought
  · rintro failure d' (⟨_, h, -⟩ | ⟨_, h, -⟩) <;> cases h

theorem undertake_serves (op : Operation) :
    ((Environment.memory config indexers : Environment _ _ Diary).undertake op).Serves d
      (op.Wrought indexers d) := by
  have hrecorded : ∀ outcome : Outcome, outcome.isSuccess = false →
      (recorded outcome : ServiceAction (MemoryIndex K V) Diary Outcome).Serves d
        (op.Wrought indexers d) := by
    intro outcome houtcome
    refine (recorded_serves config indexers outcome).mono ?_
    rintro _ _ ⟨rfl, rfl⟩
    refine .inl ⟨rfl, fun changed h => ?_⟩
    rw [Except.ok.inj h] at houtcome
    cases houtcome
  refine ((clericalClass config indexers).mem_isGated op.index).bind (fun gated => ?_)
    fun _ => .inl ⟨rfl, by simp⟩
  split
  · exact serves_update_bind (fun _ => rfl) (hrecorded _ rfl)
  · refine ((clericalClass config indexers).registered op.index).bind (fun registered => ?_)
      fun _ => .inl ⟨rfl, by simp⟩
    split
    · exact serves_update_bind (fun _ => rfl) (hrecorded _ rfl)
    · refine (clericalClass config indexers).bump.bind (fun _ => ?_) fun _ => .inl ⟨rfl, by simp⟩
      exact serves_update_bind (fun _ => rfl) ((executeMarked_serves op).withMark op.mark)

/-- An operation. -/
theorem execute_serves (op : Operation) :
    ((Environment.memory config indexers : Environment _ _ Diary).execute op).Serves d
      (op.Wrought indexers d) := by
  refine (undertake_serves op).bind (fun outcome d' hwrought => ?_) fun _ _ h => h
  exact serves_update_bind (fun _ => rfl) (serves_resume (r := .ok outcome) hwrought)

/-- Putting a file back while its mark is held. -/
theorem indexMarked_serves (index : IndexId) (input : InputId) (content : FileContent) :
    ((Environment.memory config indexers : Environment _ _ Diary).indexMarked index input
      content).Serves d fun _ d' =>
        (∃ data, indexers index content = .ok data ∧ d' = d.put index
          (((storeAt d.stores index).replace input data).2.setIndexed input)) ∨
        (∃ refusal, indexers index content = .error refusal) ∧ d' = d := by
  have hprepare : ((Environment.memory config indexers : Environment _ _ Diary).handle.prepare
      index input (some content)).result.Serves d fun r d' => d' = d ∧
        ((∃ data, indexers index content = .ok data ∧ r = .ok (.ok ⟨index, input, data⟩)) ∨
          (∃ refusal, indexers index content = .error refusal) ∧
            ∀ update, r ≠ .ok (.ok update)) := by
    rw [memory_prepare]
    rcases hindexer : indexers index content with (message | payload) | data <;>
      simp only [StoreHandle.mapped, hindexer] <;> refine Serves.result (serves_resume ?_)
    · exact ⟨rfl, .inr ⟨⟨_, rfl⟩, by simp⟩⟩
    · exact ⟨rfl, .inr ⟨⟨_, rfl⟩, by simp⟩⟩
    · exact ⟨rfl, .inl ⟨data, rfl, rfl⟩⟩
  refine hprepare.bind ?_ ?_
  · rintro prepared d ⟨rfl, ⟨data, hindexer, hprepared⟩ | ⟨hrefused, hprepared⟩⟩
    · obtain rfl := Except.ok.inj hprepared
      refine ((applyUpdate_serves (d := d) .rebuild _).withIndexLock index).bind_eq ?_
      refine (Serves.withReadLock
        (serves_onStore index (fun m => ((), m.setIndexed input)) _)).bind_eq ?_
      rw [Desk.storeAt_put, Desk.put_put]
      exact serves_resume (r := .ok _) (.inl ⟨data, hindexer, rfl⟩)
    · rcases prepared with cause | update
      · cases cause with
        | mapping failure =>
          exact ((clericalClass config indexers).mem_notify _).bind
            (fun _ => serves_resume (r := .ok false) (.inr ⟨hrefused, rfl⟩))
            fun _ => .inr ⟨hrefused, rfl⟩
        | _ => exact serves_resume (r := .error (.error _)) (.inr ⟨hrefused, rfl⟩)
      · exact absurd rfl (hprepared update)
  · rintro failure _ ⟨rfl, ⟨_, -, hprepared⟩ | ⟨hrefused, -⟩⟩
    · cases hprepared
    · exact .inr ⟨hrefused, rfl⟩

/-- Putting a file back, and writing down what that came to. -/
theorem indexFile_serves (index : IndexId) (input : InputId) (content : FileContent)
    (hd : Faithful indexers d.diary d.stores) :
    ((Environment.memory config indexers : Environment _ _ Diary).indexFile index input
      content).Serves d fun r d' => d'.diary = d.diary ∧ d'.deferred = d.deferred ∧
        Faithful indexers (.filed index input content r :: d.diary) d'.stores := by
  refine ((indexMarked_serves index input content).withMark ⟨index, input⟩).outcome_bind ?_
  rintro r d' (⟨data, hindexer, rfl⟩ | ⟨⟨refusal, hrefused⟩, rfl⟩)
  · exact serves_update_bind (fun _ => rfl) (serves_resume ⟨rfl, rfl, hd.filed hindexer r⟩)
  · exact serves_update_bind (fun _ => rfl) (serves_resume ⟨rfl, rfl, hd.filed_refused hrefused r⟩)

/-- Clearing an index. -/
theorem clearIndex_serves (index : IndexId) :
    ((Environment.memory config indexers : Environment _ _ Diary).clearIndex index).Serves d
      fun r d' => r = .ok () ∧
        d' = d.put index (storeAt d.stores index).dropData.dropStates := by
  have hclear : ((Environment.memory config indexers : Environment _ _ Diary).handle.clear
      index).Serves d fun r d' => r = .ok () ∧
        d' = d.put index (storeAt d.stores index).dropData.dropStates := by
    rw [memory_clear]
    refine (serves_onStore index (fun m => ((), m.dropData)) d).bind_eq ?_
    refine (serves_onStore index (fun m => ((), m.dropStates)) _).mono ?_
    rintro _ _ ⟨rfl, rfl⟩
    exact ⟨rfl, by rw [Desk.storeAt_put, Desk.put_put]⟩
  refine serves_update_bind (fun _ => rfl) (hclear.outcome_bind ?_)
  rintro _ _ ⟨rfl, rfl⟩
  exact serves_update_bind (fun _ => rfl) (serves_resume ⟨rfl, rfl⟩)

/-- Claiming a rebuild and clearing the index. -/
theorem claimAndClear_serves (index : IndexId) :
    ((Environment.memory config indexers : Environment _ _ Diary).claimAndClear index).Serves d
      fun r d' =>
        (d' = d ∧ ∀ claimed, r ≠ .ok (some claimed)) ∨
          (∃ run, r = .ok (some (run, .ok ()))) ∧
            d' = d.put index (storeAt d.stores index).dropData.dropStates := by
  refine Serves.withIndexLock ?_ index
  have hstart : ((Environment.memory config indexers : Environment _ _ Diary).oracle.start
      index).Clerical := (clericalClass config indexers).mem_start rfl
    (clericalActions.access fun s => s.desk_moveRegistry index _)
  refine hstart.bind (fun started => ?_) fun _ => .inl ⟨rfl, by simp⟩
  split
  · refine serves_access_bind fun s hs => ?_
    obtain rfl : d = _ := hs.symm
    refine (clearIndex_serves index).withStructuralLock.outcome_bind ?_
    rintro _ _ ⟨rfl, rfl⟩
    exact serves_resume (r := .ok (some _)) (.inr ⟨⟨_, rfl⟩, rfl⟩)
  · exact serves_resume (r := .ok none) (.inl ⟨rfl, by simp⟩)

end Environment

/-! ## Errands -/

/-- The diary and the work left to the workers are those of an earlier desk, and what is stored by
now is what another diary tells. -/
structure Desk.Lags (indexers : IndexId → Indexer K V) (d : Desk K V) (told : Diary)
    (d' : Desk K V) : Prop where
  diary : d'.diary = d.diary
  deferred : d'.deferred = d.deferred
  faithful : Faithful indexers told d'.stores

/-- The diary tells where the data come from, and no ticket was thrown away. -/
structure Desk.Honest (indexers : IndexId → Indexer K V) (d : Desk K V) : Prop where
  faithful : Faithful indexers d.diary d.stores
  kept : d.deferred.abandoned = []

/-- The entry about an operation tells what the operation has left in storage. -/
theorem Operation.Wrought.lags {op : Operation} {outcome : Outcome} {d' : Desk K V}
    (h : op.Wrought indexers d (.ok outcome) d') {told : Diary}
    (hd : Faithful indexers told d.stores) :
    d.Lags indexers (.executed op.index op.input op.task outcome :: told) d' := by
  obtain ⟨rfl, hfailed⟩ | ⟨data, hmapped, houtcome, rfl⟩ := h
  · refine ⟨rfl, rfl, hd.executed_failed op ?_⟩
    cases outcome with
    | applied changed => exact absurd rfl (hfailed changed)
    | _ => rfl
  · obtain rfl := Except.ok.inj houtcome
    exact ⟨rfl, rfl, hd.executed op hmapped⟩

namespace Service

omit [Std.TransOrd K] [BEq V] in
/-- Writing down what an errand came to. -/
theorem write_serves (entries : List Entry) (d : Desk K V) :
    (write entries : ServiceAction (MemoryIndex K V) Diary Unit).Serves d fun _ d' =>
      d' = { d with diary := entries.reverse ++ d.diary } := by
  rintro s rfl r t hrun
  obtain ⟨-, rfl⟩ := Prod.mk.inj (Option.some.inj hrun)
  rfl

omit [Std.TransOrd K] [BEq V] in
/-- A delivered result is what waiting answers. -/
theorem wait_serves {ticket : Nat} {result : FileApplicationResult}
    (h : d.deferred.delivery? ticket = some (.arrived result)) :
    (wait (.pending ticket) : ServiceAction (MemoryIndex K V) Diary _).Serves d fun r d' =>
      r = .ok result ∧ d' = d := by
  rintro s rfl
  refine leaves_await_bind fun _ => leaves_access_bind ?_
  have hdelivered : s.deferred.delivery? ticket = some (.arrived result) := h
  simp only [id, hdelivered]
  exact leaves_resume ⟨rfl, rfl⟩

end Service

/-- Once it is written down what an errand came to, the diary is honest again. -/
theorem Desk.Lags.serves_write {d' : Desk K V} {entries : List Entry}
    (h : d.Lags indexers (entries.reverse ++ d.diary) d') (hkept : d.deferred.abandoned = []) :
    (write entries : ServiceAction (MemoryIndex K V) Diary Unit).Serves d' fun _ d'' =>
      d''.Honest indexers := by
  refine (write_serves entries d').mono ?_
  rintro _ _ rfl
  refine ⟨?_, by rw [← hkept, ← h.deferred]⟩
  rw [h.diary]
  exact h.faithful

namespace Environment

variable {input : InputId} {task : Task} {told : Diary}

/-- An operation, as an errand sees it. -/
theorem execute_lags (op : Operation) (hd : Faithful indexers told d.stores) :
    ((Environment.memory config indexers : Environment _ _ Diary).execute op).Serves d fun r d' =>
      ∃ outcome, r = .ok outcome ∧
        d.Lags indexers (.executed op.index op.input op.task outcome :: told) d' := by
  intro s hs r t hrun
  obtain ⟨outcome, rfl⟩ := (succeeds_execute rfl op).leaves s r t hrun
  exact ⟨outcome, rfl, (execute_serves op s hs _ t hrun).lags hd⟩

/-- The operations for a file, one after the other. -/
theorem collect_lags {ops : List Operation} (hops : ∀ op ∈ ops, op.input = input ∧ op.task = task)
    (hd : Faithful indexers told d.stores) :
    (Action.collect (fun op => do
      pure (op.index,
        ← (Environment.memory config indexers : Environment _ _ Diary).execute op)) ops).Serves d
      fun r d' => ∃ outcomes, r = .ok outcomes ∧
        d.Lags indexers ((entriesFor input task ⟨input, outcomes⟩).reverse ++ told) d' := by
  induction ops generalizing d told with
  | nil => exact serves_resume (r := .ok []) ⟨[], rfl, rfl, rfl, hd⟩
  | cons op rest ih =>
    obtain ⟨rfl, rfl⟩ := hops op List.mem_cons_self
    have hnamed : ((do
        pure (op.index,
          ← (Environment.memory config indexers : Environment _ _ Diary).execute op)) :
            ServiceAction (MemoryIndex K V) Diary _).Serves d fun r d' =>
          ∃ named, r = .ok named ∧ named.1 = op.index ∧
            d.Lags indexers (.executed op.index op.input op.task named.2 :: told) d' :=
      (execute_lags op hd).bind_ok fun outcome d' hlags =>
        serves_resume (r := .ok (op.index, outcome)) ⟨_, rfl, rfl, hlags⟩
    refine hnamed.bind_ok ?_
    rintro ⟨_, outcome⟩ d' ⟨rfl, hlags⟩
    refine (ih (fun other hother => hops other (List.mem_cons_of_mem _ hother))
      hlags.faithful).bind_ok fun outcomes d'' hlags' => ?_
    refine serves_resume (r := .ok ((op.index, outcome) :: outcomes)) ⟨_, rfl,
      hlags'.diary.trans hlags.diary, hlags'.deferred.trans hlags.deferred, ?_⟩
    simpa [entriesFor] using hlags'.faithful

variable {application : FileApplication}
  (hops : ∀ op ∈ application.operations, op.input = input ∧ op.task = task)

include hops

/-- Carrying out the operations for a file. -/
theorem applyNow_lags (hd : Faithful indexers told d.stores) :
    ((Environment.memory config indexers : Environment _ _ Diary).applyNow application).Serves d
      fun r d' => ∃ result, r = .ok result ∧
        d.Lags indexers ((entriesFor input task result).reverse ++ told) d' := by
  refine (collect_lags hops hd).bind_ok fun outcomes d' hlags => ?_
  have hresult : (pure ⟨application.input, outcomes⟩ :
      ServiceAction (MemoryIndex K V) Diary FileApplicationResult).Serves d' fun r d' =>
      ∃ result, r = .ok result ∧
        d.Lags indexers ((entriesFor input task result).reverse ++ told) d' :=
    serves_resume (r := .ok _) ⟨_, rfl, hlags⟩
  dsimp only
  split
  · exact serves_update_bind (fun _ => rfl) hresult
  · exact hresult

/-- A worker delivers the result of the operations for a file. -/
theorem work_lags (ticket : Nat) (told : Diary) (hd : Faithful indexers told d.stores)
    (hkept : d.deferred.abandoned = []) :
    ((Environment.memory config indexers : Environment _ _ Diary).work ticket application).Serves d
      fun r d' => ∃ v, r = .ok v ∧ d'.deferred.abandoned = [] ∧ ∃ result,
        d'.deferred.delivery? ticket = some (.arrived result) ∧
        { d with deferred := d'.deferred }.Lags indexers
          ((entriesFor input task result).reverse ++ told) d' := by
  refine (applyNow_lags hops hd).outcome_bind ?_
  rintro _ d' ⟨result, rfl, hlags⟩
  have hdeliver : d'.deferred.deliver ticket (.arrived result) =
      (true, { d.deferred with
        deliveries := (ticket, .arrived result) :: d.deferred.deliveries }) := by
    simp [DeferredWork.deliver, hlags.deferred, hkept]
  refine serves_access_bind fun s hs => ?_
  obtain rfl : d' = _ := hs.symm
  have hdeliver : s.deferred.deliver ticket (.arrived result) = _ := hdeliver
  simp only [hdeliver, Bool.not_true, Bool.false_eq_true, if_false]
  refine serves_resume (r := .ok ()) ⟨(), rfl, hkept, result, ?_, hlags.diary, rfl, hlags.faithful⟩
  simp [DeferredWork.delivery?, ServiceState.desk]

/-- Applying the operations for a file and waiting for the result. -/
theorem attend_lags (hd : Faithful indexers told d.stores) (hkept : d.deferred.abandoned = []) :
    ((Environment.memory config indexers : Environment _ _ Diary).apply application >>=
      (Environment.memory config indexers : Environment _ _ Diary).attend).Serves d fun r d' =>
        ∃ result, r = .ok result ∧ ∃ deferred, deferred.abandoned = [] ∧
          { d with deferred }.Lags indexers
            ((entriesFor input task result).reverse ++ told) d' := by
  unfold Environment.apply
  split
  · rw [bind_assoc]
    exact (applyNow_lags hops hd).bind_ok fun result d' hlags =>
      serves_resume (r := .ok result) ⟨result, rfl, d.deferred, hkept, hlags⟩
  · rw [bind_assoc]
    refine serves_access_bind fun s hs => ?_
    obtain rfl : d = _ := hs.symm
    rw [pure_bind]
    refine serves_access_bind fun s' hs' => ?_
    -- the job that is taken is the one that has just been left to the workers
    have hdesk : s'.desk = { s.desk with deferred := (s.deferred.submit application).2 } := hs'
    have hdeferred : s'.deferred = (s.deferred.submit application).2 := congrArg Desk.deferred hdesk
    have hstores : s'.stores = s.desk.stores := congrArg Desk.stores hdesk
    have hdiary : s'.client = s.desk.diary := congrArg Desk.diary hdesk
    simp only [hdeferred, DeferredWork.takeLast_submit]
    refine Serves.bind_ok (work_lags hops _ told ?_ ?_) ?_
    · show Faithful indexers told s'.stores
      rwa [hstores]
    · exact hkept
    · rintro _ d' ⟨hkept', result, hdelivered, hlags⟩
      refine (wait_serves hdelivered).mono ?_
      rintro _ _ ⟨rfl, rfl⟩
      exact ⟨result, rfl, _, hkept', hlags.diary.trans hdiary, rfl, hlags.faithful⟩

end Environment

/-- Putting files back, and writing down what each of them came to. -/
theorem Refill.serves (index : IndexId) (refill : Refill) (hd : d.Honest indexers) :
    (refill.action (Environment.memory config indexers) index).Serves d fun _ d' =>
      d'.Honest indexers := by
  induction refill generalizing d with
  | done result => exact serves_resume hd
  | file input content next ih =>
    refine (Environment.indexFile_serves index input content hd.faithful).outcome_bind ?_
    rintro r d' ⟨hdiary, hdeferred, hfaithful⟩
    have hlags : d.Lags indexers ([.filed index input content r].reverse ++ d.diary) d' :=
      ⟨hdiary, hdeferred, hfaithful⟩
    exact (hlags.serves_write hd.kept).bind (fun _ _ hd' => ih r hd') fun _ _ hd' => hd'

namespace Environment

/-- Ending a rebuild, or requesting a new one. -/
theorem clerical_concludeRebuild (index : IndexId) (filled : Except Error Unit) :
    ((Environment.memory config indexers : Environment _ _ Diary).concludeRebuild index
      filled).Clerical := by
  have hclerks := clericalClass config indexers
  rcases filled with cause | _
  · exact hclerks.bind (hclerks.mem_requestRebuildOnError cause index) fun _ => hclerks.raise cause
  · refine hclerks.bind hclerks.bump fun _ => hclerks.bind (hclerks.mem_finish rfl
      (clericalActions.access fun s => s.desk_endRebuild index)) fun finished => ?_
    split <;> exact hclerks.pure _

/-- Putting back the files of an index that has been cleared. -/
theorem refill_serves {index : IndexId} (refill : Refill)
    (hd : Faithful indexers (.emptied index :: d.diary) d.stores)
    (hkept : d.deferred.abandoned = []) :
    let env := (Environment.memory config indexers : Environment _ _ Diary)
    (env.refill index (.ok ()) do
      write [.emptied index]
      refill.action env index).Serves d fun _ d' => d'.Honest indexers := by
  have hlags : d.Lags indexers ([.emptied index].reverse ++ d.diary) d := ⟨rfl, rfl, hd⟩
  have hfilled : ((do
      write [.emptied index]
      refill.action (Environment.memory config indexers) index) :
        ServiceAction (MemoryIndex K V) Diary Unit).Serves d fun _ d' => d'.Honest indexers :=
    (hlags.serves_write hkept).bind (fun _ _ hd' => refill.serves index hd') fun _ _ hd' => hd'
  exact hfilled.result_of_desk.bind (fun filled d' hd' =>
    ((clerical_concludeRebuild index filled).serves d').mono fun _ _ h => h ▸ hd')
    fun _ _ hd' => hd'

/-- Rebuilding an index. -/
theorem rebuildIndex_serves (index : IndexId) (refill : Refill) (hd : d.Honest indexers) :
    let env := (Environment.memory config indexers : Environment _ _ Diary)
    (env.rebuildIndex index do
      write [.emptied index]
      refill.action env index).Serves d fun _ d' => d'.Honest indexers := by
  have hclerks := clericalClass config indexers
  refine (hclerks.registered index).bind (fun registered => ?_) fun _ => hd
  split
  · exact serves_resume (r := .error (.error _)) hd
  · refine (claimAndClear_serves index).bind ?_ ?_
    · rintro (_ | ⟨run, cleared⟩) d' (⟨rfl, hnone⟩ | ⟨⟨run', hclaimed⟩, rfl⟩)
      · exact serves_resume (r := .ok RebuildRun.notScheduled) hd
      · cases Except.ok.inj hclaimed
      · exact absurd rfl (hnone _)
      · obtain ⟨rfl, rfl⟩ := Prod.mk.inj (Option.some.inj (Except.ok.inj hclaimed))
        have hemptied := (hd.faithful.cleared index).emptied fun input => by
          rw [storeAt_insert, if_pos rfl, MemoryIndex.state_dropStates]
        refine (refill_serves (d := d.put index _) refill hemptied hd.kept).outcome_bind
          fun r d' hd' => ?_
        exact serves_update_bind (fun _ => rfl) (serves_resume hd')
    · rintro failure d' (⟨rfl, -⟩ | ⟨⟨_, hclaimed⟩, -⟩)
      · exact hd
      · cases hclaimed

/-- Applying the operations for a file in all registered indices, and writing down what became of
them. -/
theorem carryFile_serves {input : InputId} {task : Task}
    (application : List IndexId → FileApplication)
    (hops : ∀ indices, ∀ op ∈ (application indices).operations, op.input = input ∧ op.task = task)
    (hd : d.Honest indexers) :
    let env := (Environment.memory config indexers : Environment _ _ Diary)
    ((registeredIndices >>= fun indices => env.apply (application indices)) >>= fun handle => do
      let result ← env.attend handle
      write (entriesFor input task result)).Serves d fun _ d' => d'.Honest indexers := by
  dsimp only
  rw [bind_assoc]
  refine (clericalClass config indexers).indices.bind (fun indices => ?_) fun _ => hd
  rw [← bind_assoc]
  refine (attend_lags (hops indices) hd.faithful hd.kept).bind_ok ?_
  rintro result d' ⟨deferred, hkept, hlags⟩
  exact hlags.serves_write hkept

end Environment

/-- Whatever an errand is about, and however it goes, the diary is honest afterwards. -/
theorem Errand.serves (errand : Errand) (hd : d.Honest indexers) :
    (errand.carry (Environment.memory config indexers)).Serves d fun _ d' =>
      d'.Honest indexers := by
  cases errand with
  | execute op =>
    exact (Environment.execute_lags op hd.faithful).bind_ok fun outcome d' hlags =>
      hlags.serves_write hd.kept
  | updateFile content input mode =>
    exact Environment.carryFile_serves (fun indices => .updateIn indices content input mode)
      (by simp [Operation.update]) hd
  | removeFile file input mode =>
    exact Environment.carryFile_serves (fun indices => .removeFrom indices file input mode)
      (by simp [Operation.removal]) hd
  | request index cause =>
    have hrequest : ((Environment.memory config indexers :
        Environment _ _ Diary).oracle.request index cause).Clerical :=
      (clericalClass config indexers).request index cause
    refine hrequest.bind (fun scheduled => ?_) fun _ => hd
    refine Desk.Lags.serves_write ⟨rfl, rfl, ?_⟩ hd.kept
    exact hd.faithful.cons (fun _ => rfl) fun _ => rfl
  | rebuild index refill =>
    refine (Environment.rebuildIndex_serves index refill hd).outcome_bind fun r d' hd' => ?_
    refine Desk.Lags.serves_write ⟨rfl, rfl, ?_⟩ hd'.kept
    exact hd'.faithful.cons (fun _ => rfl) fun _ => rfl

/-- After any errands, one after the other, the diary is honest. -/
theorem Errand.serves_carryAll (errands : List Errand) (hd : d.Honest indexers) :
    (Errand.carryAll (Environment.memory config indexers) errands).Serves d fun _ d' =>
      d'.Honest indexers := by
  induction errands generalizing d with
  | nil => exact serves_resume (r := .ok ()) hd
  | cons errand rest ih => exact (errand.serves hd).bind (fun _ _ hd' => ih hd') fun _ _ hd' => hd'

/-- After any errands for indices in memory, of which nothing was up to date when the diary was
begun, an input is up to date only if some content was applied to it since the index was last
emptied.  The diary has an entry for the last such content, no later entry tells that storage was
changed by a removal of the input, and what is stored for the input is what the indexer makes of
that content. -/
theorem exists_content_of_upToDate (config : Config) (indexers : IndexId → Indexer K V)
    (s : MemoryState K V Diary) (hfresh : ∀ pair, s.indexingState pair ≠ .upToDate)
    (hkept : s.deferred.abandoned = []) (errands : List Errand) (r : Except Failure Unit)
    (t : MemoryState K V Diary)
    (hrun : (Errand.carryAll (Environment.memory config indexers) errands).run
      { s with client := [] } = some (r, t))
    (pair : WriteMark) (hstate : t.indexingState pair = .upToDate) :
    ∃ later entry earlier content data, t.client = later ++ entry :: earlier ∧
      entry.content? indexers pair = some content ∧
      (∀ other ∈ later, other.content? indexers pair = none ∧ other.voids pair = false) ∧
      indexers pair.index content = .ok data ∧ Reads (t.forward? pair) data := by
  have hhonest : ({ s with client := [] } : MemoryState K V Diary).desk.Honest indexers :=
    ⟨fun pair h => absurd h (hfresh pair), hkept⟩
  have hfaithful := (Errand.serves_carryAll errands hhonest _ rfl r t hrun).faithful
  obtain ⟨content, data, hlast, hmapped, hreads⟩ := hfaithful pair hstate
  obtain ⟨later, entry, earlier, hsplit, hcontent, hlater⟩ := exists_of_lastContent? hlast
  exact ⟨later, entry, earlier, content, data, hsplit, hcontent, hlater, hmapped, hreads⟩

end Parts

namespace Sample

/-- A service that indexes files by their sizes, except for empty ones, and panics over files that
are too large. -/
def choosy : IndexId → Indexer Nat Nat := fun _ content =>
  if content.size = 0 then .error (.error "nothing to index")
  else if content.size = 9 then .error (.panic (.text "too much to index"))
  else .ok (Std.ExtTreeMap.empty.insert content.size 1)

/-- A service with an index in memory whose user keeps a diary. -/
def kept : MemoryState Nat Nat Diary := .ofStores .standard (.insert ∅ sizes .empty) true []

/-- A file is updated, and updated again to a size over which the indexer panics.  The rebuild that
follows puts the file back with another size and panics afterwards.  At last the file is emptied,
which cannot be mapped. -/
def upkeep : List Errand :=
  [.execute (.update sizes (content 3) ⟨1⟩ .synchronous),
    .updateFile (content 9) ⟨1⟩ .deferred,
    .rebuild sizes (.file ⟨1⟩ (content 5) fun _ => .done (.error (.panic (.text "enough")))),
    .updateFile (content 0) ⟨1⟩ .synchronous]

theorem indexingState_kept (pair : WriteMark) : kept.indexingState pair ≠ .upToDate := by
  simp only [ServiceState.indexingState, kept, ServiceState.ofStores,
    Std.ExtTreeMap.getElem?_insert]
  split <;> simp [MemoryIndex.state, MemoryIndex.empty, default]

end Sample

/-- What is stored in the end is what the file was put back with. -/
theorem exists_content_of_upToDate_upkeep :
    ∃ (r : Except Failure Unit) (t : MemoryState Nat Nat Diary),
      (Errand.carryAll (.memory .standard Sample.choosy) Sample.upkeep).run Sample.kept =
          some (r, t) ∧
        t.indexingState Sample.file = .upToDate ∧
        ∃ later entry earlier content data, t.client = later ++ entry :: earlier ∧
          entry.content? Sample.choosy Sample.file = some content ∧
          (∀ other ∈ later, other.content? Sample.choosy Sample.file = none ∧
            other.voids Sample.file = false) ∧
          Sample.choosy Sample.file.index content = .ok data ∧
          Reads (t.forward? Sample.file) data := by
  have hend : ((Errand.carryAll (.memory .standard Sample.choosy) Sample.upkeep).run
      Sample.kept).map (fun x => x.2.indexingState Sample.file) = some .upToDate := by
    decide +kernel
  obtain ⟨⟨r, t⟩, hrun, hstate⟩ := Option.map_eq_some_iff.1 hend
  exact ⟨r, t, hrun, hstate, exists_content_of_upToDate .standard _ Sample.kept
    Sample.indexingState_kept rfl Sample.upkeep r t hrun Sample.file hstate⟩

end FileIndexing
