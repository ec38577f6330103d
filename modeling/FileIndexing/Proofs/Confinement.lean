import FileIndexing.Proofs.Errands

/-!
# What stays within one index

Two services that look alike to everybody but the users of one index: the storage of that index,
its rebuild state and what the diary tells of it may be anything.  Some actions are out of sight for
the others, and some do the same wherever the services look alike.

* `ServiceState.Alike` is the relation between the two services.
* `Action.Hides` is about a single run: the action is out of sight.  `Action.Matches` is about two
  runs: they go on alike.
* `Action.Confined` is what holds of the work for an index, whichever it is: it is out of sight if
  the index is the one that is hidden, and otherwise two runs match.  So each part of a service has
  to be walked through only once.
* The parts of a service come last: locks and listeners, rebuild states, and work on the storage of
  an index.
-/

namespace FileIndexing

open FileIndexing.Action Service

/-! ## Leaving an index out -/

/-- The result without what became of the operations on an index. -/
def FileApplicationResult.without (hidden : IndexId) (r : FileApplicationResult) :
    FileApplicationResult :=
  { r with outcomes := r.outcomes.filter fun outcome => outcome.1 ≠ hidden }

/-- The delivery without what became of the operations on an index. -/
def Delivery.without (hidden : IndexId) : Delivery → Delivery
  | .arrived result => .arrived (result.without hidden)
  | .lost => .lost

/-- The work left to the workers, where the deliveries tell nothing of an index. -/
def DeferredWork.without (hidden : IndexId) (d : DeferredWork) : DeferredWork :=
  { d with deliveries := d.deliveries.map fun (ticket, delivery) =>
      (ticket, delivery.without hidden) }

/-- The entries that are not about an index. -/
def Diary.without (hidden : IndexId) (diary : Diary) : Diary :=
  diary.filter fun entry => entry.index ≠ hidden

theorem Diary.without_append (hidden : IndexId) (later earlier : Diary) :
    Diary.without hidden (later ++ earlier) =
      Diary.without hidden later ++ Diary.without hidden earlier := List.filter_append ..

/-- What is delivered for a ticket, without an index. -/
theorem DeferredWork.delivery?_without (hidden : IndexId) (d : DeferredWork) (ticket : Nat) :
    (d.without hidden).delivery? ticket = (d.delivery? ticket).map (·.without hidden) := by
  obtain ⟨queue, nextTicket, deliveries, abandoned⟩ := d
  simp only [without, delivery?]
  induction deliveries with
  | nil => rfl
  | cons delivery rest ih =>
    obtain ⟨own, arrived⟩ := delivery
    simp only [List.map_cons, List.lookup_cons]
    split
    · rfl
    · exact ih

/-- Deliveries are made without regard to what they tell. -/
theorem DeferredWork.deliver_without (hidden : IndexId) (d : DeferredWork) (ticket : Nat)
    (delivery : Delivery) :
    (d.without hidden).deliver ticket (delivery.without hidden) =
      ((d.deliver ticket delivery).1, (d.deliver ticket delivery).2.without hidden) := by
  have habandoned : (d.without hidden).abandoned = d.abandoned := rfl
  unfold deliver
  rw [habandoned]
  split <;> rfl

namespace ServiceState

variable {S : Type} {hidden : IndexId} {s t u : ServiceState S Diary}

/-- Two services that know an index and look alike to all who do not use this index. -/
structure Alike (hidden : IndexId) (s t : ServiceState S Diary) : Prop where
  known : s.isRegistered hidden = true
  registered : ∀ index, t.isRegistered index = s.isRegistered index
  stores : ∀ index, index ≠ hidden → t.stores[index]? = s.stores[index]?
  statuses : ∀ index, index ≠ hidden → t.registry.status index = s.registry.status index
  listeners : t.listeners = s.listeners
  deferred : t.deferred.without hidden = s.deferred.without hidden
  diary : Diary.without hidden t.client = Diary.without hidden s.client

/-- The later state differs from the earlier one in nothing that anybody looks at: in locks, marks,
counters and the journal. -/
structure Unseen {C : Type} (s t : ServiceState S C) : Prop where
  stores : t.stores = s.stores
  statuses : t.registry.statuses = s.registry.statuses
  listeners : t.listeners = s.listeners
  deferred : t.deferred = s.deferred
  client : t.client = s.client

/-- The later state differs from the earlier one at most in the rebuild state of an index and in
what nobody looks at. -/
structure Moves {C : Type} (index : IndexId) (s t : ServiceState S C) : Prop where
  stores : t.stores = s.stores
  statuses : ∀ other, index ≠ other → t.registry.status other = s.registry.status other
  listeners : t.listeners = s.listeners
  deferred : t.deferred = s.deferred
  client : t.client = s.client

theorem Alike.refl (h : s.isRegistered hidden = true) : s.Alike hidden s :=
  ⟨h, fun _ => rfl, fun _ _ => rfl, fun _ _ => rfl, rfl, rfl, rfl⟩

theorem Alike.symm (h : s.Alike hidden t) : t.Alike hidden s where
  known := (h.registered hidden).trans h.known
  registered index := (h.registered index).symm
  stores index hindex := (h.stores index hindex).symm
  statuses index hindex := (h.statuses index hindex).symm
  listeners := h.listeners.symm
  deferred := h.deferred.symm
  diary := h.diary.symm

theorem Alike.trans (h : s.Alike hidden t) (h' : t.Alike hidden u) : s.Alike hidden u where
  known := h.known
  registered index := (h'.registered index).trans (h.registered index)
  stores index hindex := (h'.stores index hindex).trans (h.stores index hindex)
  statuses index hindex := (h'.statuses index hindex).trans (h.statuses index hindex)
  listeners := h'.listeners.trans h.listeners
  deferred := h'.deferred.trans h.deferred
  diary := h'.diary.trans h.diary

/-- Services that look alike do so after each has moved the rebuild state of an index, to the same
state unless the index is the hidden one. -/
theorem Alike.moves {index : IndexId} {s' t' : ServiceState S Diary} (h : s.Alike hidden s')
    (ht : s.Moves index t) (ht' : s'.Moves index t')
    (hstatus : index ≠ hidden → t'.registry.status index = t.registry.status index) :
    t.Alike hidden t' where
  known := by
    rw [isRegistered, ht.stores]
    exact h.known
  registered other := by
    rw [isRegistered, isRegistered, ht.stores, ht'.stores]
    exact h.registered other
  stores other hother := by
    rw [ht.stores, ht'.stores]
    exact h.stores other hother
  statuses other hother := by
    by_cases heq : index = other
    · subst heq
      exact hstatus hother
    · rw [ht.statuses other heq, ht'.statuses other heq]
      exact h.statuses other hother
  listeners := by
    rw [ht.listeners, ht'.listeners]
    exact h.listeners
  deferred := by
    rw [ht.deferred, ht'.deferred]
    exact h.deferred
  diary := by
    rw [ht.client, ht'.client]
    exact h.diary

theorem Moves.refl {C : Type} (index : IndexId) (s : ServiceState S C) : s.Moves index s :=
  ⟨rfl, fun _ _ => rfl, rfl, rfl, rfl⟩

/-- Nobody but the users of the hidden index sees how its rebuild state moves. -/
theorem Moves.alike (h : s.Moves hidden t) (hs : s.isRegistered hidden = true) :
    s.Alike hidden t :=
  (Alike.refl hs).moves (.refl hidden s) h fun hne => absurd rfl hne

theorem Unseen.alike (h : s.Unseen t) (hs : s.isRegistered hidden = true) : s.Alike hidden t :=
  Moves.alike ⟨h.stores, fun _ _ => by simp [RebuildRegistry.status, h.statuses], h.listeners,
    h.deferred, h.client⟩ hs

/-- Services that look alike do so after changes that nobody looks at. -/
theorem Alike.unseen {s' t' : ServiceState S Diary} (h : s.Alike hidden s') (ht : s.Unseen t)
    (ht' : s'.Unseen t') : t.Alike hidden t' :=
  ((ht.alike h.known).symm.trans h).trans (ht'.alike h.symm.known)

/-- The registered indices are the same in services that look alike. -/
theorem Alike.registeredIndices_eq (h : s.Alike hidden t) :
    t.registeredIndices = s.registeredIndices := by
  have hperm : t.stores.keys.Perm s.stores.keys := by
    refine (List.perm_ext_iff_of_nodup Std.ExtTreeMap.nodup_keys Std.ExtTreeMap.nodup_keys).2 ?_
    intro index
    have hregistered : t.stores.contains index = s.stores.contains index := h.registered index
    rw [Std.ExtTreeMap.mem_keys, Std.ExtTreeMap.mem_keys, Std.ExtTreeMap.mem_iff_contains,
      hregistered, Std.ExtTreeMap.mem_iff_contains]
  refine hperm.eq_of_pairwise (fun a b _ _ hab hba => ?_) Std.ExtTreeMap.ordered_keys
    Std.ExtTreeMap.ordered_keys
  rw [Std.OrientedOrd.eq_swap, hba] at hab
  cases hab

end ServiceState

open ServiceState

/-! ## Actions -/

namespace Action

variable {S α β : Type} {hidden index : IndexId}

/-- Two ends of an action agree: in results that are related, or in the same failure. -/
def Agree (Q : α → α → Prop) : Except Failure α → Except Failure α → Prop
  | .ok v, .ok v' => Q v v'
  | .error failure, .error failure' => failure = failure'
  | _, _ => False

/-- Run alone, an action does nothing that is seen without looking at the hidden index.  Of its
result is known what relates it to itself. -/
def Hides (hidden : IndexId) (Q : α → α → Prop) (a : ServiceAction S Diary α) : Prop :=
  ∀ s, s.isRegistered hidden = true → a.Leaves s fun r t => Agree Q r r ∧ s.Alike hidden t

/-- Run alone in services that look alike, two actions end in the same way and leave services that
look alike. -/
def Matches (hidden : IndexId) (Q : α → α → Prop) (a a' : ServiceAction S Diary α) : Prop :=
  ∀ s s', s.Alike hidden s' → a.Leaves s fun r t => a'.Leaves s' fun r' t' =>
    Agree Q r r' ∧ t.Alike hidden t'

/-- Two actions that both do the work for an index: neither is seen if the index is the hidden one,
and otherwise they match. -/
structure Confined (hidden index : IndexId) (Q : α → α → Prop)
    (a a' : ServiceAction S Diary α) : Prop where
  left : index = hidden → a.Hides hidden Q
  right : index = hidden → a'.Hides hidden Q
  both : index ≠ hidden → Matches hidden Q a a'

variable {Q : α → α → Prop} {R : β → β → Prop} {a a' : ServiceAction S Diary α}
  {k k' : α → ServiceAction S Diary β}

theorem Agree.mono {Q' : α → α → Prop} (himp : ∀ v v', Q v v' → Q' v v')
    {r r' : Except Failure α} (h : Agree Q r r') : Agree Q' r r' := by
  cases r <;> cases r' <;> first | exact h | exact himp _ _ h

/-- Ends that agree in results that are the same are the same. -/
theorem Agree.eq {r r' : Except Failure α} (h : Agree (· = ·) r r') : r = r' := by
  cases r <;> cases r' <;> first | exact congrArg _ h | exact h.elim

theorem agree_self (r : Except Failure α) (h : ∀ v, Q v v) : Agree Q r r := by
  cases r
  · rfl
  · exact h _

/-! ### Two runs -/

theorem Matches.bind (ha : Matches hidden Q a a')
    (hk : ∀ v v', Q v v' → Matches hidden R (k v) (k' v')) :
    Matches hidden R (a >>= k) (a' >>= k') := by
  intro s s' hs r t hrun r' t' hrun'
  rw [run_bind] at hrun hrun'
  obtain ⟨⟨r₁, t₁⟩, hfirst, hrest⟩ := Option.bind_eq_some_iff.1 hrun
  obtain ⟨⟨r₁', t₁'⟩, hfirst', hrest'⟩ := Option.bind_eq_some_iff.1 hrun'
  obtain ⟨hagree, ht⟩ := ha s s' hs _ _ hfirst _ _ hfirst'
  cases r₁ with
  | ok v =>
    cases r₁' with
    | ok v' => exact hk v v' hagree _ _ ht _ _ hrest _ _ hrest'
    | error failure' => exact hagree.elim
  | error failure =>
    cases r₁' with
    | ok v' => exact hagree.elim
    | error failure' =>
      obtain ⟨rfl, rfl⟩ := Prod.mk.inj (Option.some.inj hrest)
      obtain ⟨rfl, rfl⟩ := Prod.mk.inj (Option.some.inj hrest')
      exact ⟨hagree, ht⟩

theorem Matches.mono {Q' : α → α → Prop} (h : Matches hidden Q a a')
    (himp : ∀ v v', Q v v' → Q' v v') : Matches hidden Q' a a' :=
  fun s s' hs => (h s s' hs).mono fun _ _ h => h.mono fun _ _ h => ⟨h.1.mono himp, h.2⟩

theorem matches_pure {v v' : α} (h : Q v v') :
    Matches hidden Q (pure v : ServiceAction S Diary α) (pure v') :=
  fun _ _ hs => leaves_pure (leaves_pure ⟨h, hs⟩)

theorem matches_access {f f' : ServiceState S Diary → α × ServiceState S Diary}
    (h : ∀ s s', s.Alike hidden s' → Q (f s).1 (f' s').1 ∧ (f s).2.Alike hidden (f' s').2) :
    Matches hidden Q (access f) (access f') := by
  intro s s' hs r t hrun r' t' hrun'
  obtain ⟨rfl, rfl⟩ := Prod.mk.inj (Option.some.inj hrun)
  obtain ⟨rfl, rfl⟩ := Prod.mk.inj (Option.some.inj hrun')
  exact h s s' hs

/-- Failures of an action whose outcome is asked for do not stop what follows. -/
theorem Matches.outcome (ha : Matches hidden Q a a') :
    Matches hidden (Agree Q) a.outcome a'.outcome := fun s s' hs =>
  leaves_outcome ((ha s s' hs).mono fun _ _ h => leaves_outcome (h.mono fun _ _ h => h))

theorem matches_update {f f' : ServiceState S Diary → ServiceState S Diary}
    (hf : ∀ s s' : ServiceState S Diary, s.Alike hidden s' → (f s).Alike hidden (f' s')) :
    Matches hidden (· = ·) (update f) (update f') :=
  matches_access fun s s' hs => ⟨rfl, hf s s' hs⟩

/-- Waiting may take longer in one of the runs. -/
theorem matches_await {ready ready' : ServiceState S Diary → Bool}
    {act act' : ServiceState S Diary → ServiceState S Diary}
    (hact : ∀ s s' : ServiceState S Diary, s.Alike hidden s' → (act s).Alike hidden (act' s')) :
    Matches hidden (· = ·) (await ready act) (await ready' act') := by
  intro s s' hs r t hrun r' t' hrun'
  rw [run_await] at hrun hrun'
  split at hrun
  · split at hrun'
    · obtain ⟨rfl, rfl⟩ := Prod.mk.inj (Option.some.inj hrun)
      obtain ⟨rfl, rfl⟩ := Prod.mk.inj (Option.some.inj hrun')
      exact ⟨rfl, hact s s' hs⟩
    · cases hrun'
  · cases hrun

/-! ### The work for an index -/

/-- What the work for an index comes to is seen only by the users of the index, if it does not
fail. -/
theorem Confined.matches (h : Confined hidden index Q a a') (ha : a.Succeeds) (ha' : a'.Succeeds) :
    Matches hidden (fun v v' => index ≠ hidden → Q v v') a a' := by
  intro s s' hs r t hrun r' t' hrun'
  by_cases hindex : index = hidden
  · obtain ⟨v, rfl⟩ := ha.leaves s r t hrun
    obtain ⟨v', rfl⟩ := ha'.leaves s' r' t' hrun'
    -- each run leaves a service that looks as the one before it
    have ht := (h.left hindex s hs.known _ t hrun).2
    have ht' := (h.right hindex s' hs.symm.known _ t' hrun').2
    exact ⟨fun hne => absurd hindex hne, (ht.symm.trans hs).trans ht'⟩
  · obtain ⟨hagree, ht⟩ := h.both hindex s s' hs _ _ hrun _ _ hrun'
    exact ⟨hagree.mono fun _ _ hQ _ => hQ, ht⟩

theorem Confined.mono {Q' : α → α → Prop} (h : Confined hidden index Q a a')
    (himp : ∀ v v', Q v v' → Q' v v') : Confined hidden index Q' a a' where
  left hindex s hs := (h.left hindex s hs).mono fun _ _ h => ⟨h.1.mono himp, h.2⟩
  right hindex s hs := (h.right hindex s hs).mono fun _ _ h => ⟨h.1.mono himp, h.2⟩
  both hindex := (h.both hindex).mono himp

theorem Hides.bind (ha : a.Hides hidden Q) (hk : ∀ v, Q v v → (k v).Hides hidden R) :
    (a >>= k).Hides hidden R := by
  intro s hs
  refine leaves_bind _ (ha s hs) ?_ ?_
  · rintro v t ⟨hQ, ht⟩
    exact (hk v hQ t ht.symm.known).mono fun _ _ h => ⟨h.1, ht.trans h.2⟩
  · rintro failure t ⟨-, ht⟩
    exact ⟨rfl, ht⟩

theorem Confined.bind (ha : Confined hidden index Q a a')
    (hk : ∀ v v', Q v v' → Confined hidden index R (k v) (k' v')) :
    Confined hidden index R (a >>= k) (a' >>= k') where
  left hindex := (ha.left hindex).bind fun v hQ => (hk v v hQ).left hindex
  right hindex := (ha.right hindex).bind fun v hQ => (hk v v hQ).right hindex
  both hindex := (ha.both hindex).bind fun v v' hQ => (hk v v' hQ).both hindex

/-- Work that runs like other work. -/
theorem Confined.congr {b b' : ServiceAction S Diary α} (h : Confined hidden index Q b b')
    (ha : ∀ s, a.run s = b.run s) (ha' : ∀ s, a'.run s = b'.run s) :
    Confined hidden index Q a a' where
  left hindex s hs r t hrun := h.left hindex s hs r t (ha s ▸ hrun)
  right hindex s hs r t hrun := h.right hindex s hs r t (ha' s ▸ hrun)
  both hindex s s' hs r t hrun r' t' hrun' :=
    h.both hindex s s' hs r t (ha s ▸ hrun) r' t' (ha' s' ▸ hrun')

/-- After work whose results are the same the two runs go on with the same. -/
theorem Confined.bind_eq (ha : Confined hidden index (· = ·) a a')
    (hk : ∀ v, Confined hidden index R (k v) (k' v)) :
    Confined hidden index R (a >>= k) (a' >>= k') :=
  ha.bind fun v _ hv => hv ▸ hk v

theorem confined_resume (r : Except Failure α) (h : Agree Q r r) :
    Confined hidden index Q (resume r : ServiceAction S Diary α) (resume r) where
  left _ _ hs := leaves_resume ⟨h, .refl hs⟩
  right _ _ hs := leaves_resume ⟨h, .refl hs⟩
  both _ _ _ hs := leaves_resume (leaves_resume ⟨h, hs⟩)

theorem confined_pure (v : α) (h : Q v v) :
    Confined hidden index Q (pure v : ServiceAction S Diary α) (pure v) :=
  confined_resume (.ok v) h

/-- Two results that differ in what nobody goes by. -/
theorem confined_pure_of {v v' : α} (hleft : Q v v) (hright : Q v' v') (h : Q v v') :
    Confined hidden index Q (pure v : ServiceAction S Diary α) (pure v') where
  left _ _ hs := leaves_pure ⟨hleft, .refl hs⟩
  right _ _ hs := leaves_pure ⟨hright, .refl hs⟩
  both _ := matches_pure h

theorem confined_fail (failure : Failure) :
    Confined hidden index Q (fail failure : ServiceAction S Diary α) (fail failure) :=
  confined_resume (.error failure) rfl

theorem Confined.outcome (ha : Confined hidden index Q a a') :
    Confined hidden index (Agree Q) a.outcome a'.outcome where
  left hindex s hs := leaves_outcome ((ha.left hindex s hs).mono fun _ _ h => h)
  right hindex s hs := leaves_outcome ((ha.right hindex s hs).mono fun _ _ h => h)
  both hindex := (ha.both hindex).outcome

/-- Failures whose outcome is asked for do not stop what follows. -/
theorem Confined.outcome_bind {k k' : Except Failure α → ServiceAction S Diary β}
    (ha : Confined hidden index (· = ·) a a') (hk : ∀ r, Confined hidden index R (k r) (k' r)) :
    Confined hidden index R (a.outcome >>= k) (a'.outcome >>= k') :=
  ha.outcome.bind fun r _ hr => hr.eq ▸ hk r

theorem Confined.caught (ha : Confined hidden index (· = ·) a a') :
    Confined hidden index (· = ·) a.caught a'.caught :=
  ha.outcome_bind fun r => by cases r <;> exact confined_pure _ rfl

/-- What is known of results is known of those that are asked for. -/
theorem Confined.result {fits : α → Prop}
    (ha : Confined hidden index (fun v v' => v = v' ∧ fits v) a a') :
    Confined hidden index (fun r r' => r = r' ∧ ∀ v, r = .ok v → fits v) a.result a'.result := by
  refine ha.outcome.bind ?_
  rintro ((cause | payload) | v) ((cause' | payload') | v') hagree
  all_goals cases hagree
  · exact confined_pure _ ⟨rfl, by simp⟩
  · exact confined_fail _
  · next heq hfits => 
    subst heq
    exact confined_pure _ ⟨rfl, by simpa using hfits⟩

theorem Confined.result_eq (ha : Confined hidden index (· = ·) a a') :
    Confined hidden index (· = ·) a.result a'.result :=
  ha.outcome_bind fun r => by
    rcases r with (cause | payload) | v
    · exact confined_pure _ rfl
    · exact confined_fail _
    · exact confined_pure _ rfl

theorem Confined.map (f : α → β) (ha : Confined hidden index (· = ·) a a') :
    Confined hidden index (· = ·) (f <$> a) (f <$> a') := by
  rw [← bind_pure_comp, ← bind_pure_comp]
  exact ha.bind_eq fun v => confined_pure _ rfl

theorem confined_each {f : β → ServiceAction S Diary Unit}
    (hf : ∀ b, Confined hidden index (· = ·) (f b) (f b)) (list : List β) :
    Confined hidden index (· = ·) (each f list) (each f list) := by
  induction list with
  | nil => exact confined_pure () rfl
  | cons b rest ih => exact (hf b).bind_eq fun _ => ih

/-- An access that differs from run to run where nobody sees it. -/
theorem confined_unseen {f f' : ServiceState S Diary → α × ServiceState S Diary}
    (hf : ∀ s : ServiceState S Diary, s.Unseen (f s).2)
    (hf' : ∀ s : ServiceState S Diary, s.Unseen (f' s).2) (hQ : ∀ v v', Q v v') :
    Confined hidden index Q (access f) (access f') where
  left _ s hs r t hrun := by
    obtain ⟨rfl, rfl⟩ := Prod.mk.inj (Option.some.inj hrun)
    exact ⟨hQ _ _, (hf s).alike hs⟩
  right _ s hs r t hrun := by
    obtain ⟨rfl, rfl⟩ := Prod.mk.inj (Option.some.inj hrun)
    exact ⟨hQ _ _, (hf' s).alike hs⟩
  both _ := matches_access fun s s' hs => ⟨hQ _ _, hs.unseen (hf s) (hf' s')⟩

theorem confined_update {f f' : ServiceState S Diary → ServiceState S Diary}
    (hf : ∀ s : ServiceState S Diary, s.Unseen (f s))
    (hf' : ∀ s : ServiceState S Diary, s.Unseen (f' s)) :
    Confined hidden index (· = ·) (update f) (update f') :=
  confined_unseen hf hf' fun _ _ => rfl

/-- Waiting for something that is not seen. -/
theorem confined_await {ready ready' : ServiceState S Diary → Bool}
    {act act' : ServiceState S Diary → ServiceState S Diary}
    (hact : ∀ s : ServiceState S Diary, s.Unseen (act s))
    (hact' : ∀ s : ServiceState S Diary, s.Unseen (act' s)) :
    Confined hidden index (· = ·) (await ready act) (await ready' act') := by
  have hhides : ∀ {ready : ServiceState S Diary → Bool} {act : _ → ServiceState S Diary},
      (∀ s : ServiceState S Diary, s.Unseen (act s)) →
        (await ready act).Hides hidden (· = ·) := by
    intro ready act hact s hs r t hrun
    rw [run_await] at hrun
    split at hrun
    · obtain ⟨rfl, rfl⟩ := Prod.mk.inj (Option.some.inj hrun)
      exact ⟨rfl, (hact s).alike hs⟩
    · cases hrun
  exact ⟨fun _ => hhides hact, fun _ => hhides hact', fun _ =>
    matches_await fun s s' hs => hs.unseen (hact s) (hact' s')⟩

/-- Looking at what looks alike. -/
theorem confined_read {f : ServiceState S Diary → α}
    (h : index ≠ hidden → ∀ s s' : ServiceState S Diary, s.Alike hidden s' → f s = f s') :
    Confined hidden index (· = ·) (read f) (read f) where
  left _ s hs r t hrun := by
    obtain ⟨rfl, rfl⟩ := Prod.mk.inj (Option.some.inj hrun)
    exact ⟨rfl, .refl hs⟩
  right _ s hs r t hrun := by
    obtain ⟨rfl, rfl⟩ := Prod.mk.inj (Option.some.inj hrun)
    exact ⟨rfl, .refl hs⟩
  both hindex := matches_access fun s s' hs => ⟨h hindex s s' hs, hs⟩

/-- What is done in any case, where nobody sees it. -/
theorem Confined.ensuring {f f' : ServiceState S Diary → ServiceState S Diary}
    (ha : Confined hidden index Q a a') (hf : ∀ s : ServiceState S Diary, s.Unseen (f s))
    (hf' : ∀ s : ServiceState S Diary, s.Unseen (f' s)) :
    Confined hidden index Q (a.ensuring (update f)) (a'.ensuring (update f')) where
  left hindex s hs := leaves_ensuring ((ha.left hindex s hs).mono fun _ t h =>
    ⟨h.1, h.2.trans ((hf t).alike h.2.symm.known)⟩)
  right hindex s hs := leaves_ensuring ((ha.right hindex s hs).mono fun _ t h =>
    ⟨h.1, h.2.trans ((hf' t).alike h.2.symm.known)⟩)
  both hindex s s' hs := leaves_ensuring ((ha.both hindex s s' hs).mono fun _ t h =>
    leaves_ensuring (h.mono fun _ t' h => ⟨h.1, h.2.unseen (hf t) (hf' t')⟩))

end Action

/-! ## Parts of a service -/

section Parts

variable {S α : Type} {hidden index : IndexId} {Q : α → α → Prop} {a a' : ServiceAction S Diary α}

namespace Service

theorem confined_note (event event' : Event) :
    Confined hidden index (· = ·) (note event : ServiceAction S Diary Unit) (note event') :=
  confined_update (fun _ => ⟨rfl, rfl, rfl, rfl, rfl⟩) fun _ => ⟨rfl, rfl, rfl, rfl, rfl⟩

theorem confined_log (record record' : LogRecord) :
    Confined hidden index (· = ·) (log record : ServiceAction S Diary Unit) (log record') :=
  confined_note _ _

theorem confined_count (f f' : Counters → Counters) :
    Confined hidden index (· = ·) (count f : ServiceAction S Diary Unit) (count f') :=
  confined_update (fun _ => ⟨rfl, rfl, rfl, rfl, rfl⟩) fun _ => ⟨rfl, rfl, rfl, rfl, rfl⟩

/-- The modification counter counts for all indices, and nobody goes by it. -/
theorem confined_bumpModCount :
    Confined hidden index (fun _ _ => True) (bumpModCount : ServiceAction S Diary UInt64)
      bumpModCount :=
  confined_unseen (fun _ => ⟨rfl, rfl, rfl, rfl, rfl⟩) (fun _ => ⟨rfl, rfl, rfl, rfl, rfl⟩)
    fun _ _ => trivial

/-! Locks and marks are not seen. -/

theorem confined_withIndexLock (ha : Confined hidden index Q a a') (key : IndexId) :
    Confined hidden index Q (withIndexLock key a) (withIndexLock key a') := by
  have hfind : Confined hidden index (fun _ _ => True)
      (findLock key : ServiceAction S Diary Nat) (findLock key) := by
    let make (s : ServiceState S Diary) : Nat × ServiceState S Diary :=
      ((s.locks.findOrMake key).1, { s with locks := (s.locks.findOrMake key).2 })
    have hmake : Confined hidden index (fun _ _ => True) (access make) (access make) :=
      confined_unseen (fun _ => ⟨rfl, rfl, rfl, rfl, rfl⟩) (fun _ => ⟨rfl, rfl, rfl, rfl, rfl⟩)
        fun _ _ => trivial
    exact hmake.congr (run_findLock key) (run_findLock key)
  refine hfind.bind fun lock lock' _ => (confined_await ?_ ?_).bind_eq fun _ => ha.ensuring ?_ ?_
  all_goals exact fun _ => ⟨rfl, rfl, rfl, rfl, rfl⟩

theorem confined_withMark (ha : Confined hidden index Q a a') (mark : WriteMark) :
    Confined hidden index Q (withMark mark a) (withMark mark a') := by
  refine (confined_await ?_ ?_).bind_eq fun _ => ha.ensuring ?_ ?_
  all_goals exact fun _ => ⟨rfl, rfl, rfl, rfl, rfl⟩

theorem confined_withReadLock (ha : Confined hidden index Q a a') :
    Confined hidden index Q (withReadLock a) (withReadLock a') := by
  refine (confined_await ?_ ?_).bind_eq fun _ => ha.ensuring ?_ ?_
  all_goals exact fun _ => ⟨rfl, rfl, rfl, rfl, rfl⟩

theorem confined_withStructuralLock (ha : Confined hidden index Q a a') :
    Confined hidden index Q (withStructuralLock a) (withStructuralLock a') := by
  refine (confined_update ?_ ?_).bind_eq fun _ => (confined_await ?_ ?_).bind_eq fun _ =>
    ha.ensuring ?_ ?_
  all_goals exact fun _ => ⟨rfl, rfl, rfl, rfl, rfl⟩

/-! Looking at what the indices have in common. -/

theorem confined_isRegistered (key : IndexId) :
    Confined hidden index (· = ·) (isRegistered key : ServiceAction S Diary Bool)
      (isRegistered key) :=
  confined_read fun _ _ _ h => (h.registered key).symm

theorem confined_notify (notice : Notice) :
    Confined hidden index (· = ·) (notify notice : ServiceAction S Diary Unit) (notify notice) := by
  refine (confined_read fun _ _ _ h => h.listeners.symm).bind_eq fun listeners =>
    confined_each (fun listener => (confined_note _ _).bind_eq fun _ => ?_) listeners
  cases listener with
  | logging => exact confined_log _ _
  | recording tag panics =>
    cases panics with
    | true => exact confined_fail _
    | false => exact confined_pure () rfl

/-- What is written down about an index is seen by its users only. -/
theorem confined_write {entries : List Entry} (h : ∀ entry ∈ entries, entry.index = index) :
    Confined hidden index (· = ·) (write entries : ServiceAction S Diary Unit) (write entries) := by
  have hhides : index = hidden →
      (write entries : ServiceAction S Diary Unit).Hides hidden (· = ·) := by
    rintro rfl s hs r t hrun
    obtain ⟨rfl, rfl⟩ := Prod.mk.inj (Option.some.inj hrun)
    have hnone : Diary.without index entries.reverse = [] :=
      List.filter_eq_nil_iff.2 (by simpa using h)
    exact ⟨rfl, hs, fun _ => rfl, fun _ _ => rfl, fun _ _ => rfl, rfl, rfl, by
      rw [Diary.without_append, hnone, List.nil_append]⟩
  refine ⟨hhides, hhides, fun _ => matches_access fun s s' hs => ⟨rfl, hs.known, hs.registered,
    hs.stores, hs.statuses, hs.listeners, hs.deferred, ?_⟩⟩
  rw [Diary.without_append, Diary.without_append, hs.diary]

end Service

/-! ### Rebuild states -/

namespace ServiceState

theorem Moves.moveRegistry {S C : Type} {index : IndexId} (s : ServiceState S C)
    {registry : RebuildRegistry}
    (h : ∀ other, index ≠ other → registry.status other = s.registry.status other) :
    s.Moves index (s.moveRegistry index registry) := by
  unfold ServiceState.moveRegistry
  dsimp only
  split <;> exact ⟨rfl, h, rfl, rfl, rfl⟩

theorem Moves.endRebuild {S C : Type} (index : IndexId) (s : ServiceState S C) :
    s.Moves index (s.endRebuild index) := by
  have hmoves : s.Moves index (s.moveRegistry index (s.registry.markFinished index)) :=
    .moveRegistry s fun other hother => by
      rw [RebuildRegistry.status_markFinished, if_neg fun h => hother h.1]
  unfold ServiceState.endRebuild
  split
  · exact hmoves
  · exact ⟨hmoves.stores, hmoves.statuses, hmoves.listeners, hmoves.deferred, hmoves.client⟩

end ServiceState

/-- An access that moves the rebuild state of the index, going by this state only. -/
theorem confined_move {f : ServiceState S Diary → α × ServiceState S Diary}
    (hmoves : ∀ s : ServiceState S Diary, s.Moves index (f s).2)
    (hown : ∀ s s' : ServiceState S Diary,
      s.registry.status index = s'.registry.status index → (f s).1 = (f s').1 ∧
        (f s).2.registry.status index = (f s').2.registry.status index) :
    Confined hidden index (· = ·) (access f) (access f) := by
  have hhides : index = hidden → (access f).Hides hidden (· = ·) := by
    rintro rfl s hs r t hrun
    obtain ⟨rfl, rfl⟩ := Prod.mk.inj (Option.some.inj hrun)
    exact ⟨rfl, (hmoves s).alike hs⟩
  refine ⟨hhides, hhides, fun hindex => matches_access fun s s' hs => ?_⟩
  obtain ⟨hanswer, hstatus⟩ := hown s s' (hs.statuses index hindex).symm
  exact ⟨hanswer, hs.moves (hmoves s) (hmoves s') fun _ => hstatus.symm⟩

namespace Oracle

theorem confined_requestRebuild (cause : RebuildCause) :
    Confined hidden index (· = ·) (requestRebuild index cause : ServiceAction S Diary Bool)
      (requestRebuild index cause) := by
  refine (confined_move (fun s => ?_) fun s s' h => ⟨?_, ?_⟩).bind_eq fun before => ?_
  · exact .moveRegistry s fun other hother => by
      rw [RebuildRegistry.status_markRequired, if_neg hother]
  · have hstate : s.registry.state index = s'.registry.state index :=
      congrArg RebuildStatus.state h
    dsimp only
    rw [RebuildRegistry.canRequest_congr h, hstate]
  · simp [RebuildRegistry.status_markRequired, h]
  · cases before with
    | none => exact confined_pure _ rfl
    | some before =>
      refine (confined_move (fun s => ?_) fun s s' h => ⟨rfl, ?_⟩).bind_eq fun _ =>
        (confined_log _ _).bind_eq fun _ => (confined_update ?_ ?_).bind_eq fun _ =>
          confined_pure _ rfl
      · exact ⟨rfl, fun other hother => by rw [RebuildRegistry.status_countRequest, if_neg hother],
          rfl, rfl, rfl⟩
      · simp [RebuildRegistry.status_countRequest, h]
      all_goals exact fun _ => ⟨rfl, rfl, rfl, rfl, rfl⟩

theorem confined_startRebuild :
    Confined hidden index (· = ·) (startRebuild index : ServiceAction S Diary Bool)
      (startRebuild index) := by
  refine (confined_move (fun s => ?_) fun s s' h => ⟨?_, ?_⟩).bind_eq fun started => ?_
  · exact .moveRegistry s fun other hother => by
      rw [RebuildRegistry.status_markRunning, if_neg fun h => hother h.1]
  · exact RebuildRegistry.canStart_congr h
  · simp [RebuildRegistry.status_markRunning, h]
  · split
    · exact (confined_log _ _).bind_eq fun _ => confined_pure _ rfl
    · exact confined_pure _ rfl

theorem confined_finishRebuild :
    Confined hidden index (· = ·) (finishRebuild index : ServiceAction S Diary Bool)
      (finishRebuild index) := by
  refine (confined_move (fun s => .endRebuild index s) fun s s' h => ⟨?_, ?_⟩).bind_eq
    fun finished => ?_
  · exact RebuildRegistry.canFinish_congr h
  · simp [RebuildRegistry.status_markFinished, h]
  · split <;> exact (confined_log _ _).bind_eq fun _ => confined_pure _ rfl

end Oracle

end Parts

/-! ### Storage -/

section Storage

variable {S α : Type} {hidden index : IndexId}

namespace ServiceState

variable {s s' : ServiceState S Diary}

/-- Services that look alike do so after the same has been put in the place of an index. -/
theorem Alike.put (h : s.Alike hidden s') (index : IndexId) (store : S) :
    Alike hidden { s with stores := s.stores.insert index store }
      { s' with stores := s'.stores.insert index store } where
  known := by
    have hknown : s.stores.contains hidden = true := h.known
    simp [isRegistered, Std.ExtTreeMap.contains_insert, hknown]
  registered other := by
    have hregistered : s'.stores.contains other = s.stores.contains other := h.registered other
    simp [isRegistered, Std.ExtTreeMap.contains_insert, hregistered]
  stores other hother := by
    simp only [Std.ExtTreeMap.getElem?_insert]
    split
    · rfl
    · exact h.stores other hother
  statuses := h.statuses
  listeners := h.listeners
  deferred := h.deferred
  diary := h.diary

/-- What is put in the place of the hidden index is not seen. -/
theorem alike_put (h : s.isRegistered hidden = true) (store : S) :
    s.Alike hidden { s with stores := s.stores.insert hidden store } where
  known := h
  registered other := by
    have hknown : s.stores.contains hidden = true := h
    by_cases hother : hidden = other
    · simp [isRegistered, ← hother, hknown]
    · simp [isRegistered, Std.ExtTreeMap.contains_insert, hother]
  stores other hother := by simp [Std.ExtTreeMap.getElem?_insert, Ne.symm hother]
  statuses _ _ := rfl
  listeners := rfl
  deferred := rfl
  diary := rfl

end ServiceState

variable [Inhabited S]

namespace Handle

/-- An access to the storage of an index, and what follows it. -/
theorem run_onStore_step (ready : S → Bool) (act : S → S)
    (next : S → Program S (Except Failure α)) (s : ServiceState S Diary) :
    (onStore index (ExceptT.mk (.step ready act next)) : ServiceAction S Diary α).run s =
      if ready (s.stores[index]?.getD default) then
        (onStore index (ExceptT.mk (next (s.stores[index]?.getD default)))).run
          { s with stores := s.stores.insert index (act (s.stores[index]?.getD default)) }
      else none := rfl

/-- Work on the storage of an index comes to what it comes to on this storage alone. -/
theorem exists_run_of_onStore {a : Action S α} {s t : ServiceState S Diary} {r : Except Failure α}
    (h : (onStore index a).run s = some (r, t)) :
    ∃ store store', a.run store = some (r, store') := by
  suffices hprogram : ∀ (p : Program S (Except Failure α)) (s : ServiceState S Diary),
      (onStore index (ExceptT.mk p)).run s = some (r, t) →
      ∃ store', p.run (s.stores[index]?.getD default) = some (r, store') from
    ⟨_, hprogram a.program s h⟩
  intro p
  induction p with
  | done r' =>
    intro s hrun
    obtain ⟨rfl, -⟩ := Prod.mk.inj (Option.some.inj hrun)
    exact ⟨_, rfl⟩
  | step ready act next ih =>
    intro s hrun
    rw [run_onStore_step] at hrun
    split at hrun
    · next hready =>
      obtain ⟨store', hrest⟩ := ih _ _ hrun
      refine ⟨store', ?_⟩
      rw [Program.run, if_pos hready]
      simpa using hrest
    · cases hrun

/-- Where two runs find the same storage, they go on with the same. -/
theorem matches_onStore (hindex : index ≠ hidden) (a : Action S α) :
    Matches hidden (· = ·) (onStore index a : ServiceAction S Diary α) (onStore index a) := by
  suffices hprogram : ∀ p : Program S (Except Failure α), Matches hidden (· = ·)
      (onStore index (ExceptT.mk p) : ServiceAction S Diary α) (onStore index (ExceptT.mk p)) from
    hprogram a.program
  intro p
  induction p with
  | done r =>
    intro s s' hs r' t hrun r'' t' hrun'
    obtain ⟨rfl, rfl⟩ := Prod.mk.inj (Option.some.inj hrun)
    obtain ⟨rfl, rfl⟩ := Prod.mk.inj (Option.some.inj hrun')
    exact ⟨agree_self _ fun _ => rfl, hs⟩
  | step ready act next ih =>
    intro s s' hs r t hrun r' t' hrun'
    rw [run_onStore_step] at hrun hrun'
    rw [hs.stores index hindex] at hrun'
    split at hrun
    · next hready =>
      rw [if_pos hready] at hrun'
      exact ih _ _ _ (hs.put index _) _ _ hrun _ _ hrun'
    · cases hrun

/-- Work on the storage of the hidden index is not seen. -/
theorem hides_onStore (a : Action S α) :
    (onStore hidden a : ServiceAction S Diary α).Hides hidden (· = ·) := by
  have hputs : (onStore hidden a : ServiceAction S Diary α).program.Every
      fun s t => s.isRegistered hidden = true → s.Alike hidden t :=
    Program.every_focus (fun s store hs => alike_put hs store) a.program
  intro s hs
  refine (leaves_of_every (fun s hs => .refl hs)
    (fun s t u hst htu hs => (hst hs).trans (htu (hst hs).symm.known)) hputs).mono ?_
  intro r t ht
  exact ⟨agree_self r fun _ => rfl, ht hs⟩

/-- Work on the storage of an index through two handles that differ for the hidden index only. -/
theorem confined_onStore {a a' : Action S α} (fits : α → Prop) (hsame : index ≠ hidden → a' = a)
    (hfits : ∀ store v store', a.run store = some (.ok v, store') → fits v)
    (hfits' : ∀ store v store', a'.run store = some (.ok v, store') → fits v) :
    Confined hidden index (fun v v' => v = v' ∧ fits v)
      (onStore index a : ServiceAction S Diary α) (onStore index a') := by
  have hagree : ∀ {b : Action S α} {s t : ServiceState S Diary} {r},
      (∀ store v store', b.run store = some (.ok v, store') → fits v) →
      (onStore index b).run s = some (r, t) → Agree (fun v v' => v = v' ∧ fits v) r r := by
    intro b s t r hb hrun
    obtain ⟨store, store', hstore⟩ := exists_run_of_onStore hrun
    cases r with
    | ok v => exact ⟨rfl, hb store v store' hstore⟩
    | error failure => rfl
  constructor
  · rintro rfl s hs r t hrun
    exact ⟨hagree hfits hrun, (hides_onStore a s hs r t hrun).2⟩
  · rintro rfl s hs r t hrun
    exact ⟨hagree hfits' hrun, (hides_onStore a' s hs r t hrun).2⟩
  · intro hindex s s' hs r t hrun r' t' hrun'
    obtain rfl := hsame hindex
    obtain ⟨hsame, ht⟩ := matches_onStore hindex _ s s' hs r t hrun r' t' hrun'
    obtain rfl := hsame.eq
    exact ⟨hagree hfits hrun, ht⟩

/-- The same where nothing is known of the results. -/
theorem confined_phase {a a' : Action S α} (hsame : index ≠ hidden → a' = a) :
    Confined hidden index (· = ·) (onStore index a : ServiceAction S Diary α) (onStore index a') :=
  (confined_onStore (fun _ => True) hsame (fun _ _ _ _ => trivial)
    fun _ _ _ _ => trivial).mono fun _ _ h => h.1

end Handle

end Storage

end FileIndexing
