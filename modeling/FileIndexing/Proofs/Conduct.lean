import FileIndexing.Concurrent.Action

/-!
# How a thread conducts itself

A theorem about every interleaving of some threads needs to know of each thread what it may do
next, but not how its program is written.  A protocol says just that: it gives a thread a place,
and it says which accesses a thread at that place may make and where they take it.

* `Program.Obeys` says that a program keeps to a protocol and that its result fits its last place.
* `Program.Every` is the plain case without places: every access of the program is of one kind.
* `Action.Neutral` and `Action.Answers` are the cases in which the thread is left at its place.
* `Action.Ends` and `Action.Leaves` are about an action that is run alone, with no other thread in
  between: the one says that it comes to its end, the other only how it ends if it does.
* `ActionClass` collects what is closed under building actions from smaller ones.  The actions that
  leave a thread at a place are such a class (`ActionClass.ofNeutral`), and so are those that do so
  at every place (`ActionClass.all`).  A walk through a function of the service that is taken for a
  class has to be taken only once.
-/

namespace FileIndexing

namespace Program

variable {σ L α β : Type}

/-- Every access of a program changes the state as a relation allows. -/
def Every (R : σ → σ → Prop) : Program σ α → Prop
  | .done _ => True
  | .step ready act next => ∀ s, ready s = true → R s (act s) ∧ (next s).Every R

/-- A program, run by a thread at a place, keeps to a protocol: each access takes the thread from
its place to another in a way that the protocol allows, and the result fits the last place. -/
def Obeys (move : L → σ → L → σ → Prop) (post : α → L → Prop) : Program σ α → L → Prop
  | .done a, l => post a l
  | .step ready act next, l =>
    ∀ s, ready s = true → ∃ l', move l s l' (act s) ∧ (next s).Obeys move post l'

variable {move : L → σ → L → σ → Prop} {post post' : α → L → Prop}

/-! ## Accesses of one kind -/

theorem Every.mono {R R' : σ → σ → Prop} (himp : ∀ s t, R s t → R' s t) {p : Program σ α}
    (h : p.Every R) : p.Every R' := by
  induction p with
  | done a => trivial
  | step ready act next ih =>
    intro s hs
    obtain ⟨hact, hnext⟩ := h s hs
    exact ⟨himp _ _ hact, ih s hnext⟩

/-- A program followed by another one whose accesses are of the same kind. -/
theorem Every.bind {R : σ → σ → Prop} {p : Program σ α} {k : α → Program σ β} (h : p.Every R)
    (hk : ∀ a, (k a).Every R) : (p.bind k).Every R := by
  induction p with
  | done a => exact hk a
  | step ready act next ih =>
    intro s hs
    obtain ⟨hact, hnext⟩ := h s hs
    exact ⟨hact, ih s hnext⟩

/-- A program on a part of the state only ever replaces that part. -/
theorem every_focus {τ : Type} {R : τ → τ → Prop} {get : τ → σ} {set : τ → σ → τ}
    (hset : ∀ t s, R t (set t s)) (p : Program σ α) : (p.focus get set).Every R := by
  induction p with
  | done a => trivial
  | step ready act next ih =>
    intro t _
    exact ⟨hset _ _, ih (get t)⟩

/-! ## Protocols -/

theorem Obeys.mono {p : Program σ α} {l : L} (h : p.Obeys move post l)
    (himp : ∀ a l', post a l' → post' a l') : p.Obeys move post' l := by
  induction p generalizing l with
  | done a => exact himp _ _ h
  | step ready act next ih =>
    intro s hs
    obtain ⟨l', hmove, hnext⟩ := h s hs
    exact ⟨l', hmove, ih s hnext⟩

/-- An access of a program that keeps to a protocol. -/
theorem Obeys.step {p q : Program σ α} {s t : σ} {l : L} (hp : p.Obeys move post l)
    (h : p.Step s q t) : ∃ l', move l s l' t ∧ q.Obeys move post l' := by
  cases h with
  | step ready act next s hready => exact hp s hready

/-- A program followed by another one that goes on from the place where the first one ends. -/
theorem Obeys.bind {p : Program σ α} {k : α → Program σ β} {mid : α → L → Prop}
    {post : β → L → Prop} {l : L} (h : p.Obeys move mid l)
    (hk : ∀ a l', mid a l' → (k a).Obeys move post l') : (p.bind k).Obeys move post l := by
  induction p generalizing l with
  | done a => exact hk _ _ h
  | step ready act next ih =>
    intro s hs
    obtain ⟨l', hmove, hnext⟩ := h s hs
    exact ⟨l', hmove, ih s hnext⟩

/-- Accesses that a protocol allows at a place without leaving it. -/
theorem Every.obeys {R : σ → σ → Prop} {l : L} (hR : ∀ s t, R s t → move l s l t)
    {p : Program σ α} (h : p.Every R) (hpost : ∀ a, post a l) : p.Obeys move post l := by
  induction p with
  | done a => exact hpost a
  | step ready act next ih =>
    intro s hs
    obtain ⟨hact, hnext⟩ := h s hs
    exact ⟨l, hR _ _ hact, ih s hnext⟩

/-- What is known of the result of a program, whatever its accesses find, may be added to where it
ends. -/
theorem Obeys.and_result {fits : α → Prop} {p : Program σ α} {l : L} (h : p.Obeys move post l)
    (hresult : p.Obeys (fun (_ : Unit) _ _ _ => True) (fun a _ => fits a) ()) :
    p.Obeys move (fun a l' => post a l' ∧ fits a) l := by
  induction p generalizing l with
  | done a => exact ⟨h, hresult⟩
  | step ready act next ih =>
    intro s hs
    obtain ⟨l', hmove, hnext⟩ := h s hs
    obtain ⟨_, -, hrest⟩ := hresult s hs
    exact ⟨l', hmove, ih s hnext hrest⟩

/-- What is known of the result of a program is known of it on a part of the state. -/
theorem obeys_focus {τ : Type} {fits : α → Prop} {get : τ → σ} {set : τ → σ → τ} {p : Program σ α}
    (h : p.Obeys (fun (_ : Unit) _ _ _ => True) (fun a _ => fits a) ()) :
    (p.focus get set).Obeys (fun (_ : Unit) _ _ _ => True) (fun a _ => fits a) () := by
  induction p with
  | done a => exact h
  | step ready act next ih =>
    intro t ht
    obtain ⟨_, -, hnext⟩ := h (get t) ht
    exact ⟨(), trivial, ih (get t) hnext⟩

/-- A program that keeps to two protocols keeps to both at once. -/
theorem Obeys.both {L' : Type} {move' : L' → σ → L' → σ → Prop} {post' : α → L' → Prop}
    {p : Program σ α} {l : L} {l' : L'} (h : p.Obeys move post l) (h' : p.Obeys move' post' l') :
    p.Obeys (fun x s y t => move x.1 s y.1 t ∧ move' x.2 s y.2 t)
      (fun a x => post a x.1 ∧ post' a x.2) (l, l') := by
  induction p generalizing l l' with
  | done a => exact ⟨h, h'⟩
  | step ready act next ih =>
    intro s hs
    obtain ⟨m, hmove, hnext⟩ := h s hs
    obtain ⟨m', hmove', hnext'⟩ := h' s hs
    exact ⟨(m, m'), ⟨hmove, hmove'⟩, ih s hnext hnext'⟩

end Program

namespace Action

variable {σ L α β : Type} {move : L → σ → L → σ → Prop}

theorem obeys_pure {post : Except Failure α → L → Prop} {l : L} {a : α} (h : post (.ok a) l) :
    (pure a : Action σ α).program.Obeys move post l := h

theorem obeys_fail {post : Except Failure α → L → Prop} {l : L} {failure : Failure}
    (h : post (.error failure) l) : (fail failure : Action σ α).program.Obeys move post l := h

theorem obeys_resume {post : Except Failure α → L → Prop} {l : L} {r : Except Failure α}
    (h : post r l) : (resume r : Action σ α).program.Obeys move post l := by
  cases r <;> exact h

theorem obeys_access {post : Except Failure α → L → Prop} {l : L} {f : σ → α × σ}
    (h : ∀ s, ∃ l', move l s l' (f s).2 ∧ post (.ok (f s).1) l') :
    (access f).program.Obeys move post l := fun s _ => h s

/-- What follows an action goes on from the place where the action ended. -/
theorem obeys_bind {a : Action σ α} {k : α → Action σ β} {post : Except Failure β → L → Prop}
    {l : L} (mid : Except Failure α → L → Prop) (ha : a.program.Obeys move mid l)
    (hk : ∀ v l', mid (.ok v) l' → (k v).program.Obeys move post l')
    (hfail : ∀ failure l', mid (.error failure) l' → post (.error failure) l') :
    (a >>= k).program.Obeys move post l := by
  refine Program.Obeys.bind ha ?_
  intro r l' hr
  cases r with
  | ok v => exact hk v l' hr
  | error failure => exact hfail failure l' hr

/-- What follows an access may depend on the state that the access found. -/
theorem obeys_access_bind {f : σ → α × σ} {k : α → Action σ β}
    {post : Except Failure β → L → Prop} {l : L}
    (h : ∀ s, ∃ l', move l s l' (f s).2 ∧ (k (f s).1).program.Obeys move post l') :
    (access f >>= k).program.Obeys move post l := fun s _ => h s

theorem obeys_await_bind {ready : σ → Bool} {act : σ → σ} {k : Unit → Action σ β}
    {post : Except Failure β → L → Prop} {l : L}
    (h : ∀ s, ready s = true → ∃ l', move l s l' (act s) ∧ (k ()).program.Obeys move post l') :
    (await ready act >>= k).program.Obeys move post l := h

/-- What follows an action that does not fail is always done. -/
theorem obeys_bind_ok {a : Action σ α} {k : α → Action σ β} {post : Except Failure β → L → Prop}
    {l : L} (mid : α → L → Prop)
    (ha : a.program.Obeys move (fun r l' => ∃ v, r = .ok v ∧ mid v l') l)
    (hk : ∀ v l', mid v l' → (k v).program.Obeys move post l') :
    (a >>= k).program.Obeys move post l := by
  refine obeys_bind _ ha ?_ ?_
  · intro v l' hend
    obtain ⟨v', hr, hmid⟩ := hend
    obtain rfl := Except.ok.inj hr
    exact hk v l' hmid
  · intro failure l' hend
    obtain ⟨v, hr, -⟩ := hend
    cases hr

/-- Failures of an action whose outcome is asked for do not stop what follows. -/
theorem obeys_outcome_bind {a : Action σ α} {k : Except Failure α → Action σ β}
    {post : Except Failure β → L → Prop} {l : L} (mid : Except Failure α → L → Prop)
    (ha : a.program.Obeys move mid l)
    (hk : ∀ r l', mid r l' → (k r).program.Obeys move post l') :
    (a.outcome >>= k).program.Obeys move post l :=
  obeys_bind_ok mid (Program.Obeys.bind ha fun r _ hr => ⟨r, rfl, hr⟩) hk

theorem obeys_outcome {a : Action σ α} {post : Except Failure (Except Failure α) → L → Prop}
    {l : L} (h : a.program.Obeys move (fun r l' => post (.ok r) l') l) :
    a.outcome.program.Obeys move post l :=
  Program.Obeys.bind h fun _ _ hr => hr

theorem obeys_caught {a : Action σ α} {post : Except Failure (Except Error α) → L → Prop} {l : L}
    (h : a.program.Obeys move (fun r l' => post (.ok (r.mapError Failure.toError)) l') l) :
    a.caught.program.Obeys move post l :=
  obeys_outcome_bind _ h fun r _ hr => by cases r <;> exact obeys_pure hr

/-- The error that an action ends with is part of the answer, a panic goes on. -/
theorem obeys_result {a : Action σ α} {mid : Except Failure α → L → Prop}
    {post : Except Failure (Except Error α) → L → Prop} {l : L} (ha : a.program.Obeys move mid l)
    (hok : ∀ v l', mid (.ok v) l' → post (.ok (.ok v)) l')
    (herror : ∀ cause l', mid (.error (.error cause)) l' → post (.ok (.error cause)) l')
    (hpanic : ∀ payload l', mid (.error (.panic payload)) l' → post (.error (.panic payload)) l') :
    a.result.program.Obeys move post l := by
  refine obeys_outcome_bind mid ha ?_
  rintro ((cause | payload) | v) l' hr
  · exact obeys_pure (herror cause l' hr)
  · exact obeys_fail (hpanic payload l' hr)
  · exact obeys_pure (hok v l' hr)

/-- What is done in any case starts at the place where the action ended. -/
theorem obeys_ensuring {a : Action σ α} {f : σ → σ} {mid post : Except Failure α → L → Prop}
    {l : L} (ha : a.program.Obeys move mid l)
    (hlast : ∀ r l', mid r l' → ∀ s, ∃ l'', move l' s l'' (f s) ∧ post r l'') :
    (a.ensuring (update f)).program.Obeys move post l := by
  refine obeys_outcome_bind mid ha ?_
  intro r l' hr
  refine obeys_access_bind fun s => ?_
  obtain ⟨l'', hmove, hpost⟩ := hlast r l' hr s
  exact ⟨l'', hmove, obeys_resume hpost⟩

/-- Following an action by one that does not fail changes only its result. -/
theorem obeys_map {a : Action σ α} {f : α → β} {post : Except Failure β → L → Prop} {l : L}
    (h : a.program.Obeys move (fun r l' => post (r.map f) l') l) :
    (f <$> a).program.Obeys move post l := by
  refine Program.Obeys.bind h ?_
  intro r l' hr
  cases r <;> exact hr

/-- An action that leaves the thread at its place, however the action ends. -/
def Neutral (move : L → σ → L → σ → Prop) (l : L) (a : Action σ α) : Prop :=
  a.program.Obeys move (fun _ l' => l' = l) l

/-- What follows an action that leaves the thread at its place starts there. -/
theorem Neutral.obeys_bind {a : Action σ α} {k : α → Action σ β}
    {post : Except Failure β → L → Prop} {l : L} (ha : a.Neutral move l)
    (hk : ∀ v, (k v).program.Obeys move post l) (hfail : ∀ failure, post (.error failure) l) :
    (a >>= k).program.Obeys move post l :=
  Action.obeys_bind _ ha (fun v _ hl => hl ▸ hk v) fun failure _ hl => hl ▸ hfail failure

/-- An action that leaves the thread at its place and answers a value. -/
def Answers (move : L → σ → L → σ → Prop) (l : L) (a : Action σ α) (v : α) : Prop :=
  a.program.Obeys move (fun r l' => r = .ok v ∧ l' = l) l

theorem answers_update {f : σ → σ} {l : L} (h : ∀ s, move l s l (f s)) :
    (update f).Answers move l () := obeys_access fun s => ⟨l, h s, rfl, rfl⟩

/-- What follows an action that answers a value starts at the place of that action. -/
theorem Answers.obeys_bind {a : Action σ α} {k : α → Action σ β} {v : α}
    {post : Except Failure β → L → Prop} {l : L} (ha : a.Answers move l v)
    (hk : (k v).program.Obeys move post l) : (a >>= k).program.Obeys move post l := by
  refine obeys_bind_ok (fun v' l' => v' = v ∧ l' = l)
    (ha.mono fun r l' hend => ⟨v, hend.1, rfl, hend.2⟩) ?_
  rintro _ _ ⟨rfl, rfl⟩
  exact hk

theorem Answers.bind {a : Action σ α} {k : α → Action σ β} {v : α} {w : β} {l : L}
    (ha : a.Answers move l v) (hk : (k v).Answers move l w) : (a >>= k).Answers move l w :=
  ha.obeys_bind hk

/-- An action that does not fail, whatever its accesses find. -/
def Succeeds (a : Action σ α) : Prop :=
  a.program.Obeys (fun (_ : Unit) _ _ _ => True) (fun r _ => ∃ v, r = .ok v) ()

theorem succeeds_pure (v : α) : (pure v : Action σ α).Succeeds := obeys_pure ⟨v, rfl⟩

theorem succeeds_access (f : σ → α × σ) : (access f).Succeeds :=
  obeys_access fun s => ⟨(), trivial, (f s).1, rfl⟩

theorem Succeeds.bind {a : Action σ α} {k : α → Action σ β} (ha : a.Succeeds)
    (hk : ∀ v, (k v).Succeeds) : (a >>= k).Succeeds :=
  obeys_bind_ok (fun _ _ => True) (ha.mono fun _ _ hr => hr.imp fun _ hv => ⟨hv, trivial⟩)
    fun v _ _ => hk v

/-- What follows an action that does not fail goes on from where that action left the thread. -/
theorem Succeeds.obeys_bind {a : Action σ α} {k : α → Action σ β} {mid : L → Prop}
    {post : Except Failure β → L → Prop} {l : L} (hsucceeds : a.Succeeds)
    (ha : a.program.Obeys move (fun _ l' => mid l') l)
    (hk : ∀ v l', mid l' → (k v).program.Obeys move post l') :
    (a >>= k).program.Obeys move post l :=
  obeys_bind_ok (fun _ => mid)
    ((ha.and_result hsucceeds).mono fun _ _ hend => hend.2.imp fun _ hv => ⟨hv, hend.1⟩) hk

end Action

/-! ## Actions alone -/

namespace Action

variable {σ α β : Type} {s : σ}

/-- Run alone from a state, an action comes to its end, and that end fits a condition. -/
def Ends (a : Action σ α) (s : σ) (post : Except Failure α → σ → Prop) : Prop :=
  ∃ r t, a.run s = some (r, t) ∧ post r t

theorem Ends.mono {a : Action σ α} {post post' : Except Failure α → σ → Prop} (h : a.Ends s post)
    (himp : ∀ r t, post r t → post' r t) : a.Ends s post' := by
  obtain ⟨r, t, hrun, hpost⟩ := h
  exact ⟨r, t, hrun, himp r t hpost⟩

/-- Run alone from a state, an action does not end in a way that does not fit a condition. -/
def Leaves (a : Action σ α) (s : σ) (post : Except Failure α → σ → Prop) : Prop :=
  ∀ r t, a.run s = some (r, t) → post r t

theorem Leaves.mono {a : Action σ α} {post post' : Except Failure α → σ → Prop}
    (h : a.Leaves s post) (himp : ∀ r t, post r t → post' r t) : a.Leaves s post' :=
  fun r t hrun => himp r t (h r t hrun)

theorem leaves_resume {post : Except Failure α → σ → Prop} {r : Except Failure α}
    (h : post r s) : (resume r : Action σ α).Leaves s post := by
  intro r' t hrun
  rw [run_resume] at hrun
  obtain ⟨rfl, rfl⟩ := Prod.mk.inj (Option.some.inj hrun)
  exact h

theorem leaves_pure {post : Except Failure α → σ → Prop} {a : α} (h : post (.ok a) s) :
    (pure a : Action σ α).Leaves s post := leaves_resume (r := .ok a) h

theorem leaves_fail {post : Except Failure α → σ → Prop} {failure : Failure}
    (h : post (.error failure) s) : (fail failure : Action σ α).Leaves s post :=
  leaves_resume (r := .error failure) h

theorem leaves_access_bind {f : σ → α × σ} {k : α → Action σ β}
    {post : Except Failure β → σ → Prop} (h : (k (f s).1).Leaves (f s).2 post) :
    (access f >>= k).Leaves s post := h

theorem leaves_await_bind {ready : σ → Bool} {act : σ → σ} {k : Unit → Action σ β}
    {post : Except Failure β → σ → Prop} (h : ready s = true → (k ()).Leaves (act s) post) :
    (await ready act >>= k).Leaves s post := by
  intro r t hrun
  rw [run_bind, run_await] at hrun
  split at hrun
  · next hready => exact h hready r t hrun
  · cases hrun

/-- What follows an action starts where the action ended. -/
theorem leaves_bind {a : Action σ α} {k : α → Action σ β} {post : Except Failure β → σ → Prop}
    (mid : Except Failure α → σ → Prop) (ha : a.Leaves s mid)
    (hk : ∀ v t, mid (.ok v) t → (k v).Leaves t post)
    (hfail : ∀ failure t, mid (.error failure) t → post (.error failure) t) :
    (a >>= k).Leaves s post := by
  intro r t hrun
  rw [run_bind] at hrun
  obtain ⟨⟨r', t'⟩, hrun', hrest⟩ := Option.bind_eq_some_iff.1 hrun
  have hmid := ha r' t' hrun'
  cases r' with
  | ok v => exact hk v t' hmid r t hrest
  | error failure =>
    obtain ⟨rfl, rfl⟩ := Prod.mk.inj (Option.some.inj hrest)
    exact hfail failure t' hmid

/-- What follows an action, where it does not matter how the action ended. -/
theorem leaves_bind_of_forall {a : Action σ α} {k : α → Action σ β}
    {post : Except Failure β → σ → Prop} (hk : ∀ v t, (k v).Leaves t post)
    (hfail : ∀ failure t, post (.error failure) t) : (a >>= k).Leaves s post :=
  leaves_bind (fun _ _ => True) (fun _ _ _ => trivial) (fun v t _ => hk v t)
    fun failure t _ => hfail failure t

theorem leaves_outcome {a : Action σ α} {post : Except Failure (Except Failure α) → σ → Prop}
    (h : a.Leaves s fun r t => post (.ok r) t) : a.outcome.Leaves s post := by
  intro r t hrun
  rw [run_outcome] at hrun
  obtain ⟨⟨r', t'⟩, hrun', hend⟩ := Option.map_eq_some_iff.1 hrun
  obtain ⟨rfl, rfl⟩ := Prod.mk.inj hend
  exact h r' t' hrun'

theorem leaves_outcome_bind {a : Action σ α} {k : Except Failure α → Action σ β}
    {post : Except Failure β → σ → Prop} (mid : Except Failure α → σ → Prop) (ha : a.Leaves s mid)
    (hk : ∀ r t, mid r t → (k r).Leaves t post) : (a.outcome >>= k).Leaves s post := by
  refine leaves_bind (fun r t => ∃ r', r = .ok r' ∧ mid r' t)
    (leaves_outcome (ha.mono fun r t hmid => ⟨r, rfl, hmid⟩)) ?_ ?_
  · intro r t hend
    obtain ⟨r', hr, hmid⟩ := hend
    obtain rfl := Except.ok.inj hr
    exact hk r t hmid
  · intro failure t hend
    obtain ⟨r', hr, -⟩ := hend
    cases hr

/-- Errors of an action whose result is asked for do not stop what follows, but panics do. -/
theorem leaves_result {a : Action σ α} {post : Except Failure (Except Error α) → σ → Prop}
    (h : a.Leaves s fun r t =>
      match r with
      | .ok v => post (.ok (.ok v)) t
      | .error (.error cause) => post (.ok (.error cause)) t
      | .error (.panic payload) => post (.error (.panic payload)) t) : a.result.Leaves s post := by
  refine leaves_outcome_bind _ h ?_
  rintro ((cause | payload) | v) t hr
  · exact leaves_pure hr
  · exact leaves_fail hr
  · exact leaves_pure hr

/-- Failures of an action that are caught do not stop what follows. -/
theorem leaves_caught {a : Action σ α} {post : Except Failure (Except Error α) → σ → Prop}
    (h : a.Leaves s fun r t => post (.ok (r.mapError Failure.toError)) t) :
    a.caught.Leaves s post :=
  leaves_outcome_bind _ h fun r _ hr => by cases r <;> exact leaves_pure hr

theorem leaves_ensuring {a : Action σ α} {f : σ → σ} {post : Except Failure α → σ → Prop}
    (h : a.Leaves s fun r t => post r (f t)) : (a.ensuring (update f)).Leaves s post :=
  leaves_outcome_bind _ h fun _ _ hr => leaves_access_bind (leaves_resume hr)

/-- An action that keeps to a protocol ends at a place that fits its end, and leaves what the moves
of the protocol preserve. -/
theorem leaves_of_obeys {L : Type} {move : L → σ → L → σ → Prop}
    {post : Except Failure α → L → Prop} (inv : L → σ → Prop)
    (hmove : ∀ l s l' t, inv l s → move l s l' t → inv l' t) {a : Action σ α} {l : L}
    (h : a.program.Obeys move post l) (hs : inv l s) :
    a.Leaves s fun r t => ∃ l', post r l' ∧ inv l' t := by
  suffices hprogram : ∀ (p : Program σ (Except Failure α)) (l : L) (s : σ), p.Obeys move post l →
      inv l s → ∀ r t, p.run s = some (r, t) → ∃ l', post r l' ∧ inv l' t from
    hprogram a.program l s h hs
  intro p
  induction p with
  | done r =>
    intro l s hpost hs r' t hrun
    obtain ⟨rfl, rfl⟩ := Prod.mk.inj (Option.some.inj hrun)
    exact ⟨l, hpost, hs⟩
  | step ready act next ih =>
    intro l s hobeys hs r t hrun
    rw [Program.run] at hrun
    split at hrun
    · next hready =>
      obtain ⟨l', hmoved, hnext⟩ := hobeys s hready
      exact ih s l' (act s) hnext (hmove _ _ _ _ hs hmoved) r t hrun
    · cases hrun

/-- An action whose accesses are all of one kind leaves a change of that kind. -/
theorem leaves_of_every {R : σ → σ → Prop} (hrefl : ∀ s, R s s)
    (htrans : ∀ s t u, R s t → R t u → R s u) {a : Action σ α} (h : a.program.Every R) :
    a.Leaves s fun _ t => R s t := by
  have hobeys : a.program.Obeys (fun (_ : Unit) s _ t => R s t) (fun _ _ => True) () :=
    h.obeys (fun _ _ hst => hst) fun _ => trivial
  refine (leaves_of_obeys (fun _ t => R s t) (fun _ _ _ _ => htrans _ _ _) hobeys (hrefl s)).mono ?_
  rintro _ _ ⟨_, -, h⟩
  exact h

end Action

/-! ## Classes of actions -/

/-- A class of actions that is closed under doing one action after another and under asking how an
action ended. -/
structure ActionClosure {σ : Type} (P : ∀ {α : Type}, Action σ α → Prop) : Prop where
  resume : ∀ {α : Type} (r : Except Failure α), P (Action.resume r)
  bind : ∀ {α β : Type} {a : Action σ α} {k : α → Action σ β},
    P a → (∀ v, P (k v)) → P (a >>= k)
  outcome : ∀ {α : Type} {a : Action σ α}, P a → P a.outcome

namespace ActionClosure

variable {σ α β : Type} {P : ∀ {α : Type}, Action σ α → Prop} (hP : ActionClosure @P)

include hP

theorem pure (a : α) : P (Pure.pure a : Action σ α) := hP.resume (.ok a)

theorem fail (failure : Failure) : P (Action.fail failure : Action σ α) :=
  hP.resume (.error failure)

theorem raise (cause : Error) : P (Action.raise cause : Action σ α) := hP.fail _

theorem ensuring {a : Action σ α} {last : Action σ Unit} (ha : P a) (hlast : P last) :
    P (a.ensuring last) :=
  hP.bind (hP.outcome ha) fun r => hP.bind hlast fun _ => hP.resume r

theorem result {a : Action σ α} (ha : P a) : P a.result := by
  refine hP.bind (hP.outcome ha) ?_
  intro r
  rcases r with (cause | payload) | value
  · exact hP.pure _
  · exact hP.fail _
  · exact hP.pure _

theorem caught {a : Action σ α} (ha : P a) : P a.caught := by
  refine hP.bind (hP.outcome ha) ?_
  intro r
  rcases r with failure | value
  · exact hP.pure _
  · exact hP.pure _

theorem map {a : Action σ α} (f : α → β) (ha : P a) : P (f <$> a) := by
  have h : f <$> a = a >>= fun v => Pure.pure (f v) := (bind_pure_comp f a).symm
  rw [h]
  exact hP.bind ha fun v => hP.pure (f v)

theorem each {f : α → Action σ Unit} (hf : ∀ a, P (f a)) (list : List α) :
    P (Action.each f list) := by
  induction list with
  | nil => exact hP.pure ()
  | cons a rest ih => exact hP.bind (hf a) fun _ => ih

theorem collect {f : α → Action σ β} (hf : ∀ a, P (f a)) (list : List α) :
    P (Action.collect f list) := by
  induction list with
  | nil => exact hP.pure []
  | cons a rest ih => exact hP.bind (hf a) fun b => hP.bind ih fun bs => hP.pure (b :: bs)

end ActionClosure

/-- A class of actions that holds all actions whose accesses are of one kind, and that is closed
under doing one action after another and under asking how an action ended. -/
structure ActionClass {σ : Type} (R : σ → σ → Prop) (P : ∀ {α : Type}, Action σ α → Prop) :
    Prop where
  every : ∀ {α : Type} {a : Action σ α}, a.program.Every R → P a
  bind : ∀ {α β : Type} {a : Action σ α} {k : α → Action σ β},
    P a → (∀ v, P (k v)) → P (a >>= k)
  outcome : ∀ {α : Type} {a : Action σ α}, P a → P a.outcome

namespace ActionClass

variable {σ L α β : Type} {R : σ → σ → Prop} {P : ∀ {α : Type}, Action σ α → Prop}

/-- The actions that leave a thread at its place. -/
theorem ofNeutral {move : L → σ → L → σ → Prop} {l : L} (hR : ∀ s t, R s t → move l s l t) :
    ActionClass R fun {_} a => a.Neutral move l where
  every h := h.obeys hR fun _ => rfl
  bind ha hk := Action.obeys_bind _ ha (fun v _ hl => hl ▸ hk v) fun _ _ hl => hl
  outcome ha := Action.obeys_outcome ha

/-- The actions all of whose accesses are of one kind. -/
theorem ofEvery (R : σ → σ → Prop) : ActionClass R fun {_} a => a.program.Every R where
  every h := h
  bind ha hk := by
    refine ha.bind ?_
    intro r
    cases r with
    | ok v => exact hk v
    | error failure => trivial
  outcome ha := ha.bind fun _ => trivial

/-- The actions that leave a change of one kind, wherever they start. -/
theorem ofLeaves {R : σ → σ → Prop} (hrefl : ∀ s, R s s) (htrans : ∀ s t u, R s t → R t u → R s u) :
    ActionClass R fun {_} a => ∀ s, a.Leaves s fun _ t => R s t where
  every ha _ := Action.leaves_of_every hrefl htrans ha
  bind ha hk s := Action.leaves_bind _ (ha s)
    (fun v t hst => (hk v t).mono fun _ _ htu => htrans _ _ _ hst htu) fun _ _ hst => hst
  outcome ha s := Action.leaves_outcome (ha s)

/-- The actions that are in every class of a family. -/
theorem all {ι : Type} {P : ι → ∀ {α : Type}, Action σ α → Prop}
    (h : ∀ i, ActionClass R (P i)) : ActionClass R fun {_} a => ∀ i, P i a where
  every ha i := (h i).every ha
  bind ha hk i := (h i).bind (ha i) fun v => hk v i
  outcome ha i := (h i).outcome (ha i)

variable (hP : ActionClass R @P)

include hP

theorem closure : ActionClosure @P where
  resume r := hP.every (by cases r <;> trivial)
  bind := hP.bind
  outcome := hP.outcome

theorem pure (a : α) : P (Pure.pure a : Action σ α) := hP.closure.pure a

theorem raise (cause : Error) : P (Action.raise cause : Action σ α) := hP.closure.raise cause

theorem resume (r : Except Failure α) : P (Action.resume r : Action σ α) := hP.closure.resume r

theorem access {f : σ → α × σ} (h : ∀ s, R s (f s).2) : P (Action.access f) :=
  hP.every fun s _ => ⟨h s, trivial⟩

theorem update {f : σ → σ} (h : ∀ s, R s (f s)) : P (Action.update f) := hP.access h

theorem await {ready : σ → Bool} {act : σ → σ} (h : ∀ s, ready s = true → R s (act s)) :
    P (Action.await ready act) :=
  hP.every fun s hs => ⟨h s hs, trivial⟩

theorem ensuring {a : Action σ α} {last : Action σ Unit} (ha : P a) (hlast : P last) :
    P (a.ensuring last) := hP.closure.ensuring ha hlast

theorem map {a : Action σ α} (f : α → β) (ha : P a) : P (f <$> a) := hP.closure.map f ha

end ActionClass

end FileIndexing
