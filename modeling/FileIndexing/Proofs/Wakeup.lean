import FileIndexing.Marks.Waiting
import Mathlib.Data.List.Perm.Basic
import Mathlib.Logic.Relation

/-!
# Who holds a mark, and who is woken when it is released

What holds of the mark table at the grain of its mutex and its condition, whatever the calls on it
and however their steps are interleaved.

* `Monitor.guards_exact`: no pair has two live guards, the marked pairs are those of the live
  guards and the size of the table counts them, an attempt that does not take the mark leaves the
  marks and the guards alone, and nobody is parked without either the pair being marked or a
  release of the pair that has yet to wake everybody.

The table and the live guards are compared as lists up to their order.  A step changes the phase of
one call, and so at most the one guard that this call is in charge of: `others` is what the rest of
the state holds.
-/

namespace FileIndexing.Marks

open List (Perm)

/-- Whether a call has removed the mark of a pair and has not woken those who are parked yet. -/
def Call.OwesWakeUp (c : Call) (mark : WriteMark) : Prop :=
  c.purpose = .drop ∧ c.mark = mark ∧ (c.phase = .leaving true ∨ c.phase = .notifying)

instance (c : Call) (mark : WriteMark) : Decidable (c.OwesWakeUp mark) :=
  inferInstanceAs (Decidable (_ ∧ _ ∧ _))

/-- Waking up does not change which guard a call to take a mark is in charge of. -/
theorem Call.guard?_wake {c : Call} (h : c.phase = .parked → c.purpose = .take) :
    c.wake.guard? = c.guard? := by
  unfold Call.wake
  split
  · next hp => simp [Call.guard?, hp, h hp]
  · rfl

/-- Nobody is parked once everybody has been woken. -/
theorem Call.phase_wake_ne (c : Call) : c.wake.phase ≠ .parked := by
  unfold Call.wake
  split
  · simp
  · assumption

namespace Monitor

variable {s t : Monitor} {i : Nat} {c : Call} {mark : WriteMark}

/-- The live guards without the one that a call is in charge of. -/
def others (s : Monitor) (i : Nat) : List WriteMark :=
  s.owned ++ (s.calls.eraseIdx i).filterMap Call.guard?

@[simp] theorem table_setPhase (phase : Phase) : (s.setPhase i phase).table = s.table := rfl

@[simp] theorem others_setPhase (phase : Phase) : (s.setPhase i phase).others i = s.others i := by
  simp [others, setPhase, List.eraseIdx_modify_of_eq]

theorem getElem?_setPhase (phase : Phase) (j : Nat) :
    (s.setPhase i phase).calls[j]? =
      s.calls[j]?.map fun c => if i = j then { c with phase } else c := by
  simp [setPhase, List.getElem?_modify]

theorem getElem?_setPhase_self (h : s.calls[i]? = some c) (phase : Phase) :
    (s.setPhase i phase).calls[i]? = some { c with phase } := by
  simp [getElem?_setPhase, h]

/-- A call of the state after a change of phase was there before, or it is the one that changed. -/
theorem mem_setPhase {d : Call} {phase : Phase} (h : d ∈ (s.setPhase i phase).calls) :
    d ∈ s.calls ∨ ∃ c, s.calls[i]? = some c ∧ d = { c with phase } := by
  obtain ⟨j, hj⟩ := List.mem_iff_getElem?.mp h
  rw [getElem?_setPhase, Option.map_eq_some_iff] at hj
  obtain ⟨c, hc, rfl⟩ := hj
  split
  · next hij => exact .inr ⟨c, hij ▸ hc, rfl⟩
  · exact .inl (List.mem_iff_getElem?.mpr ⟨j, hc⟩)

/-- A call of the state before a change of phase is still there, or it is the one that changed. -/
theorem mem_setPhase_of_mem (h : s.calls[i]? = some c) {d : Call} (hd : d ∈ s.calls)
    (phase : Phase) : d = c ∨ d ∈ (s.setPhase i phase).calls := by
  obtain ⟨j, hj⟩ := List.mem_iff_getElem?.mp hd
  by_cases hij : i = j
  · subst hij
    exact .inl (Option.some.inj (hj.symm.trans h))
  · exact .inr (List.mem_iff_getElem?.mpr ⟨j, by simp [getElem?_setPhase, hj, hij]⟩)

/-- The live guards are that of one call, if any, and the others. -/
theorem liveGuards_perm (h : s.calls[i]? = some c) :
    s.liveGuards.Perm (c.guard?.toList ++ s.others i) := by
  obtain ⟨hi, rfl⟩ := List.getElem?_eq_some_iff.mp h
  have hcalls := (List.getElem_cons_eraseIdx_perm hi).symm.filterMap Call.guard?
  have hhead : ((s.calls[i] :: s.calls.eraseIdx i).filterMap Call.guard?) =
      s.calls[i].guard?.toList ++ (s.calls.eraseIdx i).filterMap Call.guard? := by
    cases hg : s.calls[i].guard? <;> simp [hg]
  rw [hhead] at hcalls
  calc s.owned ++ s.calls.filterMap Call.guard?
    Perm _ (s.owned ++ (s.calls[i].guard?.toList ++
        (s.calls.eraseIdx i).filterMap Call.guard?)) := hcalls.append_left _
    Perm _ (s.calls[i].guard?.toList ++ (s.owned ++
        (s.calls.eraseIdx i).filterMap Call.guard?)) := by
      simpa [List.append_assoc] using List.perm_append_comm.append_right _

theorem liveGuards_setPhase (h : s.calls[i]? = some c) (phase : Phase) :
    (s.setPhase i phase).liveGuards.Perm
      (({ c with phase } : Call).guard?.toList ++ s.others i) := by
  simpa using liveGuards_perm (getElem?_setPhase_self h phase)

/-- What a call that is parked for a pair can count on: the pair is marked, so its release is still
to come, or it has been released by a call that still has to wake everybody. -/
def Awaited (s : Monitor) (mark : WriteMark) : Prop :=
  s.table.isMarked mark = true ∨ ∃ d ∈ s.calls, d.OwesWakeUp mark

/-- What holds of every state that can be reached. -/
structure Sound (s : Monitor) : Prop where
  held : s.table.held.Perm s.liveGuards
  nodup : s.table.held.Nodup
  parked : ∀ c ∈ s.calls, c.phase = .parked → c.purpose = .take ∧ s.Awaited c.mark

theorem Sound.ofTable_empty : (ofTable .empty).Sound where
  held := .refl _
  nodup := .nil
  parked := by simp [ofTable]

/-- Entering or leaving the mutex alone changes nothing of this. -/
theorem Sound.withMutex (hs : s.Sound) (holder : Option Nat) :
    Sound { s with inMutex := holder } :=
  ⟨hs.held, hs.nodup, hs.parked⟩

/-- A call that moves on without waking anybody leaves those who are parked what they count on,
provided that what it owes it still owes. -/
theorem Awaited.setPhase (ha : s.Awaited mark) (h : s.calls[i]? = some c) {phase : Phase}
    (howes : c.OwesWakeUp mark → ({ c with phase } : Call).OwesWakeUp mark) :
    (s.setPhase i phase).Awaited mark := by
  obtain hmarked | ⟨d, hd, hdo⟩ := ha
  · exact .inl hmarked
  · obtain rfl | hd' := mem_setPhase_of_mem h hd phase
    · exact .inr ⟨_, List.mem_of_getElem? (getElem?_setPhase_self h phase), howes hdo⟩
    · exact .inr ⟨d, hd', hdo⟩

/-- A call that moves on with the guard it is in charge of leaves the table exact. -/
theorem held_setPhase (hs : s.table.held.Perm s.liveGuards) (h : s.calls[i]? = some c)
    {phase : Phase} (hguard : ({ c with phase } : Call).guard? = c.guard?) :
    s.table.held.Perm (s.setPhase i phase).liveGuards := by
  have hafter := liveGuards_setPhase h phase
  rw [hguard] at hafter
  exact hs.trans ((liveGuards_perm h).trans hafter.symm)

/-- A call that moves on and leaves the table alone.  It parks only if the pair is marked. -/
theorem Sound.setPhase (hs : s.Sound) (h : s.calls[i]? = some c) {phase : Phase}
    (hguard : ({ c with phase } : Call).guard? = c.guard?)
    (howes : ∀ mark, c.OwesWakeUp mark → ({ c with phase } : Call).OwesWakeUp mark)
    (hpark : phase = .parked → c.purpose = .take ∧ s.table.isMarked c.mark = true) :
    (s.setPhase i phase).Sound where
  held := held_setPhase hs.held h hguard
  nodup := hs.nodup
  parked d hd hp := by
    obtain hd | ⟨c', hc', rfl⟩ := mem_setPhase hd
    · exact ⟨(hs.parked d hd hp).1, (hs.parked d hd hp).2.setPhase h (howes _)⟩
    · obtain rfl : c' = c := Option.some.inj (hc'.symm.trans h)
      exact ⟨(hpark hp).1, .inl (hpark hp).2⟩

/-- A call that finds its pair free takes the mark, and is in charge of the new guard. -/
theorem Sound.take (hs : s.Sound) (h : s.calls[i]? = some c) (hphase : c.phase = .inside)
    (hpurpose : c.purpose ≠ .drop) (hfree : s.table.isMarked c.mark = false) :
    ({ s with table := s.table.take c.mark }.setPhase i (.leaving true)).Sound where
  held := by
    have hnone : c.guard? = none := by
      cases hc : c.purpose <;> simp_all [Call.guard?]
    have hsome : ({ c with phase := .leaving true } : Call).guard? = some c.mark := by
      cases hc : c.purpose <;> simp_all [Call.guard?]
    have hbefore := hs.held.trans (liveGuards_perm h)
    have hafter := liveGuards_setPhase (s := { s with table := s.table.take c.mark }) h
      (.leaving true)
    rw [hnone] at hbefore
    rw [hsome] at hafter
    exact (hbefore.cons c.mark).trans hafter.symm
  nodup := by
    have hnot : c.mark ∉ s.table.held := by simpa [MarkTable.isMarked] using hfree
    exact List.nodup_cons.mpr ⟨hnot, hs.nodup⟩
  parked d hd hp := by
    obtain hd | ⟨c', -, rfl⟩ := mem_setPhase hd
    · have hawaited : Awaited { s with table := s.table.take c.mark } d.mark :=
        (hs.parked d hd hp).2.imp (fun hm => by simp [MarkTable.isMarked_take, hm]) id
      exact ⟨(hs.parked d hd hp).1, hawaited.setPhase h fun ho => absurd ho.1 hpurpose⟩
    · cases hp

/-- A drop removes its mark.  Who is parked for the pair counts on the drop from now on. -/
theorem Sound.release (hs : s.Sound) (h : s.calls[i]? = some c) (hphase : c.phase = .inside)
    (hpurpose : c.purpose = .drop) :
    ({ s with table := s.table.release c.mark }.setPhase i (.leaving true)).Sound where
  held := by
    have hsome : c.guard? = some c.mark := by simp [Call.guard?, hphase, hpurpose]
    have hnone : ({ c with phase := .leaving true } : Call).guard? = none := by
      simp [Call.guard?, hpurpose]
    have hbefore := hs.held.trans (liveGuards_perm h)
    have hafter := liveGuards_setPhase (s := { s with table := s.table.release c.mark }) h
      (.leaving true)
    rw [hsome] at hbefore
    rw [hnone] at hafter
    have herase := hbefore.erase c.mark
    simp only [Option.toList_some, List.singleton_append, List.erase_cons_head] at herase
    exact herase.trans hafter.symm
  nodup := hs.nodup.erase _
  parked d hd hp := by
    obtain hd | ⟨c', -, rfl⟩ := mem_setPhase hd
    · refine ⟨(hs.parked d hd hp).1, ?_⟩
      by_cases hmark : d.mark = c.mark
      · exact .inr ⟨_, List.mem_of_getElem? (getElem?_setPhase_self h _),
          hpurpose, hmark.symm, .inl rfl⟩
      · have hawaited : Awaited { s with table := s.table.release c.mark } d.mark :=
          (hs.parked d hd hp).2.imp (fun hm => by
            rwa [MarkTable.isMarked_release_of_ne _ hmark]) id
        exact hawaited.setPhase h fun ho => absurd ho.2.2 (by simp [hphase])
    · cases hp

/-- A call to take a mark hands the guard it is in charge of to its caller. -/
theorem Sound.handOver (hs : s.Sound) (h : s.calls[i]? = some c) {answer : Bool}
    (hphase : c.phase = .leaving answer) (hpurpose : c.purpose ≠ .drop) :
    ({ s with owned := if answer then c.mark :: s.owned else s.owned }.setPhase i
      (.returned answer)).Sound where
  held := by
    have hnone : ({ c with phase := .returned answer } : Call).guard? = none := by
      cases hc : c.purpose <;> simp_all [Call.guard?]
    have hbefore := hs.held.trans (liveGuards_perm h)
    have hafter := liveGuards_setPhase
      (s := { s with owned := if answer then c.mark :: s.owned else s.owned }) h (.returned answer)
    rw [hnone] at hafter
    have hsame : c.guard?.toList ++ s.others i =
        others { s with owned := if answer then c.mark :: s.owned else s.owned } i := by
      cases hc : c.purpose <;> cases answer <;> simp_all [Call.guard?, others]
    rw [hsame] at hbefore
    exact hbefore.trans hafter.symm
  nodup := hs.nodup
  parked d hd hp := by
    obtain hd | ⟨c', -, rfl⟩ := mem_setPhase hd
    · have hawaited : Awaited
          { s with owned := if answer then c.mark :: s.owned else s.owned } d.mark :=
        (hs.parked d hd hp).2
      exact ⟨(hs.parked d hd hp).1, hawaited.setPhase h fun ho => absurd ho.1 hpurpose⟩
    · cases hp

/-- The call that wakes everybody leaves nobody parked, so that it may stop owing it. -/
theorem Sound.wakeAll (hs : s.Sound) (h : s.calls[i]? = some c) (hphase : c.phase = .notifying) :
    (s.wakeAll.setPhase i (.returned true)).Sound where
  held := by
    have hguards : (s.calls.map Call.wake).filterMap Call.guard? =
        s.calls.filterMap Call.guard? := by
      rw [List.filterMap_map]
      exact List.filterMap_congr fun c hc => Call.guard?_wake fun hp => (hs.parked c hc hp).1
    have hwoken : s.wakeAll.table.held.Perm s.wakeAll.liveGuards := by
      simpa only [liveGuards, Monitor.wakeAll, hguards] using hs.held
    have hsame : s.wakeAll.calls[i]? = some c := by
      simp [Monitor.wakeAll, h, Call.wake, hphase]
    refine held_setPhase hwoken hsame ?_
    cases hpurpose : c.purpose <;> simp [Call.guard?, hpurpose, hphase]
  nodup := hs.nodup
  parked d hd hp := by
    obtain hd | ⟨c', -, rfl⟩ := mem_setPhase hd
    · obtain ⟨e, -, rfl⟩ := List.mem_map.mp hd
      exact absurd hp e.phase_wake_ne
    · cases hp

/-- What the call that looks at the table makes of the state. -/
theorem Sound.look (hs : s.Sound) (h : s.calls[i]? = some c) (hphase : c.phase = .inside) :
    (s.look i c).Sound := by
  unfold Monitor.look
  split
  · next hpurpose =>
    split
    · next hmarked =>
      refine (hs.withMutex none).setPhase h ?_ ?_ fun _ => ⟨hpurpose, hmarked⟩
      · simp [Call.guard?, hpurpose, hphase]
      · exact fun mark ho => absurd ho.1 (by simp [hpurpose])
    · next hfree => exact hs.take h hphase (by simp [hpurpose]) (by simpa using hfree)
  · next hpurpose =>
    split
    · refine hs.setPhase h ?_ ?_ (by simp)
      · simp [Call.guard?, hpurpose, hphase]
      · exact fun mark ho => absurd ho.1 (by simp [hpurpose])
    · next hfree => exact hs.take h hphase (by simp [hpurpose]) (by simpa using hfree)
  · next hpurpose => exact hs.release h hphase hpurpose

/-- What the call that leaves the mutex makes of the state. -/
theorem Sound.leave (hs : s.Sound) (h : s.calls[i]? = some c) {answer : Bool}
    (hphase : c.phase = .leaving answer) : (s.leave i c answer).Sound := by
  unfold Monitor.leave
  split
  · next hpurpose =>
    refine (hs.withMutex none).setPhase h ?_ ?_ (by simp)
    · simp [Call.guard?, hpurpose, hphase]
    · exact fun mark ho => ⟨ho.1, ho.2.1, .inr rfl⟩
  · next hpurpose => exact (hs.withMutex none).handOver h hphase hpurpose

/-- The step of a call. -/
theorem Sound.advance (hs : s.Sound) (h : s.advance? i = some t) : t.Sound := by
  unfold advance? at h
  cases hc : s.calls[i]? with
  | none => simp [hc] at h
  | some c =>
    simp only [hc] at h
    cases hphase : c.phase with
    | outside =>
      simp only [hphase] at h
      split at h
      · obtain rfl := Option.some.inj h
        refine (hs.withMutex (some i)).setPhase hc ?_ ?_ (by simp)
        · cases hpurpose : c.purpose <;> simp [Call.guard?, hpurpose, hphase]
        · exact fun mark ho => absurd ho.2.2 (by simp [hphase])
      · cases h
    | inside =>
      simp only [hphase] at h
      obtain rfl := Option.some.inj h
      exact hs.look hc hphase
    | parked => simp [hphase] at h
    | leaving answer =>
      simp only [hphase] at h
      obtain rfl := Option.some.inj h
      exact hs.leave hc hphase
    | notifying =>
      simp only [hphase] at h
      obtain rfl := Option.some.inj h
      exact hs.wakeAll hc hphase
    | returned answer => simp [hphase] at h

/-- A new call to take a mark. -/
theorem Sound.arrive (hs : s.Sound) (mark : WriteMark) (waits : Bool) :
    (s.arrive mark waits).Sound where
  held := by
    have hguards : (s.arrive mark waits).liveGuards = s.liveGuards := by
      cases waits <;> simp [liveGuards, Monitor.arrive, Call.guard?]
    exact hguards ▸ hs.held
  nodup := hs.nodup
  parked c hc hp := by
    obtain hc | hc := List.mem_append.mp hc
    · refine ⟨(hs.parked c hc hp).1, (hs.parked c hc hp).2.imp id ?_⟩
      exact fun ⟨d, hd, ho⟩ => ⟨d, List.mem_append_left _ hd, ho⟩
    · obtain rfl := List.mem_singleton.mp hc
      cases hp

/-- A guard that begins to be dropped passes from its owner to the drop. -/
theorem Sound.dropGuard (hs : s.Sound) (hmark : mark ∈ s.owned) : (s.dropGuard mark).Sound where
  held := by
    have hguards : (s.dropGuard mark).liveGuards =
        s.owned.erase mark ++ (s.calls.filterMap Call.guard? ++ [mark]) := by
      simp [liveGuards, Monitor.dropGuard, Call.guard?]
    have hmoved : s.liveGuards.Perm
        (s.owned.erase mark ++ (s.calls.filterMap Call.guard? ++ [mark])) := by
      rw [← List.append_assoc]
      exact ((List.perm_cons_erase hmark).append_right _).trans
        (List.perm_append_singleton mark _).symm
    exact hguards ▸ hs.held.trans hmoved
  nodup := hs.nodup
  parked c hc hp := by
    obtain hc | hc := List.mem_append.mp hc
    · refine ⟨(hs.parked c hc hp).1, (hs.parked c hc hp).2.imp id ?_⟩
      exact fun ⟨d, hd, ho⟩ => ⟨d, List.mem_append_left _ hd, ho⟩
    · obtain rfl := List.mem_singleton.mp hc
      cases hp

/-- One step, whatever it is. -/
theorem Sound.step (hs : s.Sound) (h : Step s t) : t.Sound := by
  cases h with
  | arrive mark waits => exact hs.arrive mark waits
  | dropGuard mark hmark => exact hs.dropGuard hmark
  | advance _ i h => exact hs.advance h
  | wake i c hc hparked =>
    have hpurpose : c.purpose = .take := (hs.parked c (List.mem_of_getElem? hc) hparked).1
    refine hs.setPhase hc ?_ ?_ (by simp)
    · simp [Call.guard?, hpurpose, hparked]
    · exact fun mark ho => absurd ho.1 (by simp [hpurpose])

/-- Any number of steps. -/
theorem Sound.run (hs : s.Sound) (h : Relation.ReflTransGen Step s t) : t.Sound := by
  induction h with
  | refl => exact hs
  | tail _ hstep ih => exact ih.step hstep

/-- A step of an attempt that does not take the mark leaves the table as it is. -/
theorem table_advance_tryTake (h : s.calls[i]? = some c) (hpurpose : c.purpose = .tryTake)
    (hstep : s.advance? i = some t)
    (hnot : t.calls[i]?.map Call.phase ≠ some (.leaving true)) : t.table = s.table := by
  simp only [advance?, h] at hstep
  cases hphase : c.phase with
  | outside =>
    simp only [hphase] at hstep
    split at hstep
    · obtain rfl := Option.some.inj hstep
      rfl
    · cases hstep
  | inside =>
    simp only [hphase, Monitor.look, hpurpose] at hstep
    split at hstep
    · obtain rfl := Option.some.inj hstep
      rfl
    · obtain rfl := Option.some.inj hstep
      refine absurd ?_ hnot
      rw [getElem?_setPhase_self (s := { s with table := s.table.take c.mark }) h]
      rfl
  | parked => simp [hphase] at hstep
  | leaving answer =>
    simp only [hphase, Monitor.leave, hpurpose] at hstep
    obtain rfl := Option.some.inj hstep
    rfl
  | notifying =>
    simp only [hphase] at hstep
    obtain rfl := Option.some.inj hstep
    rfl
  | returned answer => simp [hphase] at hstep

/-- Whatever the calls to take a mark, the attempts to take one and the drops of guards, and
however their steps are interleaved: no pair has two live guards; the marked pairs are those of the
live guards, and the size of the table is their number; a step of an attempt that does not take the
mark leaves the table and the guards alone; whoever is parked waits for a pair that is marked or
that a drop has released without having woken everybody yet. -/
theorem guards_exact (h : Relation.ReflTransGen Step (ofTable .empty) s) :
    s.liveGuards.Nodup ∧
    (∀ mark, s.table.isMarked mark = true ↔ mark ∈ s.liveGuards) ∧
    s.table.size = s.liveGuards.length ∧
    (∀ i c t, s.calls[i]? = some c → c.purpose = .tryTake → s.advance? i = some t →
      t.calls[i]?.map Call.phase ≠ some (.leaving true) →
      t.table = s.table ∧ t.liveGuards.Perm s.liveGuards) ∧
    ∀ c ∈ s.calls, c.phase = .parked →
      c.purpose = .take ∧
        (s.table.isMarked c.mark = true ∨ ∃ d ∈ s.calls, d.OwesWakeUp c.mark) := by
  have hs : s.Sound := Sound.ofTable_empty.run h
  refine ⟨hs.held.nodup_iff.mp hs.nodup, fun mark => ?_, hs.held.length_eq, ?_, hs.parked⟩
  · rw [← hs.held.mem_iff]
    simp [MarkTable.isMarked]
  · intro i c t hc hpurpose hstep hnot
    have htable := table_advance_tryTake hc hpurpose hstep hnot
    exact ⟨htable, (hs.advance hstep).held.symm.trans (htable ▸ hs.held)⟩

/-- One file in one index. -/
def sampleMark : WriteMark := ⟨⟨"words"⟩, ⟨1⟩⟩

/-- A second call is parked for a pair whose mark the first one has released again, before it has
woken anybody. -/
def betweenReleaseAndWakeUp : Monitor where
  table := .empty
  inMutex := none
  owned := []
  calls := [⟨.take, sampleMark, .returned true⟩, ⟨.take, sampleMark, .parked⟩,
    ⟨.drop, sampleMark, .notifying⟩]

theorem reaches_betweenReleaseAndWakeUp :
    Relation.ReflTransGen Step (ofTable .empty) betweenReleaseAndWakeUp := by
  have hfirst : Relation.ReflTransGen Step (ofTable .empty) ((ofTable .empty).arrive _ true) :=
    .single (.arrive _ sampleMark true)
  have htaken := ((hfirst.tail (.advance _ _ 0 rfl)).tail (.advance _ _ 0 rfl)).tail
    (.advance _ _ 0 rfl)
  have hsecond := htaken.tail (.arrive _ sampleMark true)
  have hparked := (hsecond.tail (.advance _ _ 1 rfl)).tail (.advance _ _ 1 rfl)
  have hdrop := hparked.tail (.dropGuard _ sampleMark (by decide))
  exact ((hdrop.tail (.advance _ _ 2 rfl)).tail (.advance _ _ 2 rfl)).tail (.advance _ _ 2 rfl)

theorem guards_exact_betweenReleaseAndWakeUp :
    betweenReleaseAndWakeUp.liveGuards.Nodup ∧
      betweenReleaseAndWakeUp.table.size = 0 ∧
      betweenReleaseAndWakeUp.parkedCount = 1 ∧
      (betweenReleaseAndWakeUp.table.isMarked sampleMark = true ∨
        ∃ d ∈ betweenReleaseAndWakeUp.calls, d.OwesWakeUp sampleMark) := by
  have hsound := guards_exact reaches_betweenReleaseAndWakeUp
  have hparked := hsound.2.2.2.2 ⟨.take, sampleMark, .parked⟩ (by decide) rfl
  exact ⟨hsound.1, hsound.2.2.1, rfl, hparked.2⟩

end Monitor

end FileIndexing.Marks
