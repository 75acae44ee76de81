import Dalin.Net.TimerAlarm

/-!
# Cancelled timers

`cancelInLoop` finds a timer in the tables only. During `handleRead` it notes the
timers it did not find, and `reset` does not restart them, but the loop that runs
the expired timers does not look at these notes, and neither does a call of
`addTimerInLoop` that is still queued. This file shows when `cancel` is final.
-/

set_option autoImplicit false

namespace Dalin.Net.TimerQueue

open Transition

variable {q q' : TimerQueue} {id : TimerId}

/-- This timer is where its callback may still be started from: in a queued call, in the
tables, in the rest of the batch, or in the part of it that `reset` restarts. -/
def Startable (q : TimerQueue) (id : TimerId) : Prop :=
  ∃ t, q.heap id.timer = some t ∧ t.sequence = id.sequence ∧
    (id.timer ∈ q.pendingTimers ∨ (∃ e ∈ q.timers, e.timer = id.timer) ∨
      ∃ b ∈ q.batch, id.timer ∈ b.rest.map Entry.timer ∨
        id.timer ∈ b.expired.map Entry.timer ∧ t.repeats = true ∧ id ∉ q.cancelingTimers)

/-- A cancelled timer is neither in a queued call nor in the rest of the batch. -/
def CancelsInTime (q : TimerQueue) : TimerAction → Prop
  | .cancel id => id ∈ q.issued → ∀ t ∈ q.heap id.timer, t.sequence = id.sequence →
    id.timer ∉ q.pendingTimers ∧ ∀ b ∈ q.batch, id.timer ∉ b.rest.map Entry.timer
  | _ => True

instance (q : TimerQueue) (a : TimerAction) : Decidable (q.CancelsInTime a) := by
  unfold CancelsInTime
  apply @TimerAction.casesOn _ a <;> intros <;> infer_instance

/-- A new timer is the only one that a step makes startable. -/
theorem Startable.of_step {a : TimerAction} (hstepped : q.Stepped a q') (h : q'.Startable id) :
    q.Startable id ∨ q.numCreated < id.sequence := by
  obtain ⟨t, ht, hsequence, hplace⟩ := h
  rcases hstepped.exists_of_heap ht with hnew | ⟨hother, t', ht', hsequence', hrepeats⟩
  · have hnumber := sequence_of_newId hnew
    rw [← hsequence]
    exact Or.inr (by change t.sequence = _ at hnumber; omega)
  refine Or.inl ⟨t', ht', hsequence'.symm.trans hsequence, ?_⟩
  simp only [hstepped.pending, hstepped.batch, hstepped.timers, hstepped.canceling, hrepeats]
    at hplace
  cases a with
  | addTimer timer =>
    refine hplace.imp_right (Or.imp_left ?_)
    rintro ⟨e, he | rfl, heq⟩
    · exact ⟨e, he, heq⟩
    · exact absurd heq (hother _ rfl)
  | foreignAddTimer timer =>
    refine hplace.imp_left fun hmem => (List.mem_append.mp hmem).resolve_right fun hnew => ?_
    exact hother _ rfl (List.mem_singleton.mp hnew).symm
  | runPending now =>
    rcases hplace with hmem | ⟨e, he | ⟨hhead, _⟩, heq⟩ | hbatch
    · exact Or.inl (List.mem_of_mem_tail hmem)
    · exact Or.inr (Or.inl ⟨e, he, heq⟩)
    · exact Or.inl (heq ▸ List.mem_of_head? hhead)
    · exact Or.inr (Or.inr hbatch)
  | cancel target =>
    rcases hplace with hmem | ⟨e, he, heq⟩ | ⟨b, hb, hrest | ⟨hexpired, hrepeats, hnot⟩⟩
    · exact Or.inl hmem
    · exact Or.inr (Or.inl ⟨e, he.1, heq⟩)
    · exact Or.inr (Or.inr ⟨b, hb, Or.inl hrest⟩)
    · exact Or.inr (Or.inr ⟨b, hb, Or.inr ⟨hexpired, hrepeats, fun hmem => hnot (Or.inl hmem)⟩⟩)
  | handleRead now =>
    rcases hplace with hmem | ⟨e, he, heq⟩ | ⟨b, hb, hmem⟩
    · exact Or.inl hmem
    · exact Or.inr (Or.inl ⟨e, he.1, heq⟩)
    · obtain rfl := Option.some.inj hb
      obtain ⟨e, he, heq⟩ := List.mem_map.mp (hmem.elim (fun h => h) And.left)
      exact Or.inr (Or.inl ⟨e, OrderedSet.mem_iff_below_or_above.mpr (Or.inl he), heq⟩)
  | runTimer =>
    refine hplace.imp_right (Or.imp_right ?_)
    rintro ⟨b', hb', hmem⟩
    obtain ⟨b, hb, rfl⟩ := Option.map_eq_some_iff.mp hb'
    refine ⟨b, hb, hmem.imp_left fun hmem => ?_⟩
    exact ((List.tail_sublist b.rest).map Entry.timer).subset hmem
  | callbackReturns =>
    refine hplace.imp_right (Or.imp_right ?_)
    rintro ⟨b', hb', hmem⟩
    obtain ⟨b, hb, rfl⟩ := Option.map_eq_some_iff.mp hb'
    exact ⟨b, hb, hmem⟩
  | reset clock =>
    rcases hplace with hmem | ⟨e, he | ⟨b, hb, hexpired, t₁, ht₁, hrestarts, _⟩, heq⟩ | ⟨b, hb, _⟩
    · exact Or.inl hmem
    · exact Or.inr (Or.inl ⟨e, he, heq⟩)
    · rw [heq] at hexpired ht₁ hrestarts
      obtain rfl := Option.some.inj (ht'.symm.trans ht₁)
      obtain ⟨hrepeats', hnot⟩ := hrestarts
      rw [← hsequence', hsequence] at hnot
      rw [expiredTimers_of_some hb] at hexpired
      exact Or.inr (Or.inr ⟨b, hb, Or.inr ⟨hexpired, hrepeats', hnot⟩⟩)
    · cases hb
  | expire => exact hplace

/-! ### The history -/

/-- What a step adds to the history and to the ids that were returned. -/
structure Recorded (q q' : TimerQueue) : Prop where
  numCreated : q.numCreated ≤ q'.numCreated
  issued : ∀ id ∈ q'.issued, id ∈ q.issued ∨ id.sequence ≤ q'.numCreated
  history : q'.history = q.history ∨
    (∃ id, q'.history = q.history ++ [.started id] ∧ q.Startable id) ∨
    ∃ id ∈ q.issued, q'.history = q.history ++ [.cancelled id] ∧ ¬ q'.Startable id

/-- A timer that is cancelled in time is not startable after that. -/
theorem not_startable_of_cancel {t : Timer} (hagreed : q.Agreed)
    (hintime : ∀ t ∈ q.heap id.timer, t.sequence = id.sequence →
      id.timer ∉ q.pendingTimers ∧ ∀ b ∈ q.batch, id.timer ∉ b.rest.map Entry.timer)
    (hid : id ∉ q.activeTimers) (ht : q.heap id.timer = some t)
    (hsequence : t.sequence = id.sequence)
    (hplace : id.timer ∈ q.pendingTimers ∨ (∃ e ∈ q.timers, e.timer = id.timer) ∨
      ∃ b ∈ q.batch, id.timer ∈ b.rest.map Entry.timer) : False := by
  obtain ⟨hpending, hrest⟩ := hintime t ht hsequence
  rcases hplace with hmem | ⟨e, he, heq⟩ | ⟨b, hb, hmem⟩
  · exact hpending hmem
  · refine hid ((hagreed.tables.active id).mpr ⟨t, ht, hsequence, ?_⟩)
    rw [← heq] at ht ⊢
    rwa [← hagreed.tables.entry_unique he ht]
  · exact hrest b hb hmem

/-- Every step in which no cancellation comes too early or too late is recorded. -/
theorem recorded_of_step {a : TimerAction} (hagreed : q.Agreed) (hstepped : q.Stepped a q')
    (hintime : q.CancelsInTime a) : q.Recorded q' := by
  obtain ⟨events, hhappens, hhistory⟩ := hstepped.history
  have hquiet (hnone : events = []) : q'.history = q.history := by
    rw [hhistory, hnone, List.append_nil]
  refine ⟨hstepped.numCreated ▸ Nat.le_add_right .., fun id hid => ?_, ?_⟩
  · rw [hstepped.issued] at hid
    refine (List.mem_append.mp hid).imp_right fun hnew => ?_
    have hnew := Option.mem_toList.mp hnew
    rw [sequence_of_newId hnew, hstepped.numCreated, Option.mem_def.mp hnew]
    exact le_rfl
  · cases a with
    | cancel target =>
      by_cases hissued : target ∈ q.issued
      · have heq : events = [.cancelled target] := Eq.trans hhappens (if_pos hissued)
        refine Or.inr (Or.inr ⟨target, hissued, heq ▸ hhistory, ?_⟩)
        rintro ⟨t, ht, hsequence, hplace⟩
        simp only [hstepped.pending, hstepped.batch, hstepped.timers, hstepped.canceling] at hplace
        rw [hstepped.heap] at ht
        by_cases hid : target ∈ q.activeTimers
        · rw [heapAfter_cancel, if_pos hid, Function.update_self] at ht
          cases ht
        · rw [heapAfter_cancel, if_neg hid] at ht
          refine not_startable_of_cancel hagreed (hintime hissued) hid ht hsequence ?_
          rcases hplace with hmem | ⟨e, he, heq⟩ | ⟨b, hb, hrest | ⟨_, _, hnot⟩⟩
          · exact Or.inl hmem
          · exact Or.inr (Or.inl ⟨e, he.1, heq⟩)
          · exact Or.inr (Or.inr ⟨b, hb, hrest⟩)
          · exact absurd (Or.inr ⟨rfl, hid, Option.isSome_iff_exists.mpr ⟨b, hb⟩⟩) hnot
      · exact Or.inl (hquiet (Eq.trans hhappens (if_neg hissued)))
    | runTimer =>
      obtain ⟨b, hb, entry, t, hhead, ht, rfl⟩ := hhappens
      refine Or.inr (Or.inl ⟨_, hhistory, t, ht, rfl, Or.inr (Or.inr ⟨b, hb, Or.inl ?_⟩)⟩)
      exact List.mem_map_of_mem (List.mem_of_head? hhead)
    | _ => exact Or.inl (hquiet hhappens)

/-- A cancelled timer is not startable, and no start follows a cancellation. -/
structure CancelsKept (q : TimerQueue) : Prop where
  final : q.history.Pairwise fun a b => ∀ id, a = .cancelled id → b ≠ .started id
  cancelled : ∀ id, .cancelled id ∈ q.history → ¬ q.Startable id ∧ id.sequence ≤ q.numCreated
  issued : ∀ id ∈ q.issued, id.sequence ≤ q.numCreated

/-- Every step that cancels in time keeps cancellations final. -/
theorem CancelsKept.step {a : TimerAction} (h : q.CancelsKept) (hagreed : q.Agreed)
    (hstepped : q.Stepped a q') (hintime : q.CancelsInTime a) : q'.CancelsKept := by
  obtain ⟨hnum, hissued, hhistory⟩ := recorded_of_step hagreed hstepped hintime
  have hold (id : TimerId) (hmem : TimerEvent.cancelled id ∈ q.history) :
      ¬ q'.Startable id ∧ id.sequence ≤ q'.numCreated := by
    obtain ⟨hnot, hle⟩ := h.cancelled id hmem
    refine ⟨fun hstart => ?_, hle.trans hnum⟩
    rcases hstart.of_step hstepped with hstart | hlt
    · exact hnot hstart
    · omega
  have hissued' : ∀ id ∈ q'.issued, id.sequence ≤ q'.numCreated := by
    intro id hid
    rcases hissued id hid with hid | hle
    · exact (h.issued id hid).trans hnum
    · exact hle
  rcases hhistory with heq | ⟨id, heq, hstart⟩ | ⟨id, hid, heq, hnot⟩
  · refine ⟨?_, fun id hmem => hold id (heq ▸ hmem), hissued'⟩
    rw [heq]
    exact h.final
  · refine ⟨?_, fun id' hmem => ?_, hissued'⟩
    · rw [heq, List.pairwise_append]
      refine ⟨h.final, List.pairwise_singleton .., fun a ha b hb id' ha' hb' => ?_⟩
      subst ha'
      rw [List.mem_singleton.mp hb] at hb'
      obtain rfl := TimerEvent.started.inj hb'
      exact (h.cancelled _ ha).1 hstart
    · rw [heq, List.mem_append, List.mem_singleton] at hmem
      exact hold id' (hmem.resolve_right fun h => by cases h)
  · refine ⟨?_, fun id' hmem => ?_, hissued'⟩
    · rw [heq, List.pairwise_append]
      refine ⟨h.final, List.pairwise_singleton .., fun a _ b hb id' _ hb' => ?_⟩
      rw [List.mem_singleton.mp hb] at hb'
      cases hb'
    · rw [heq, List.mem_append, List.mem_singleton] at hmem
      rcases hmem with hmem | hmem
      · exact hold id' hmem
      · obtain rfl := TimerEvent.cancelled.inj hmem
        exact ⟨hnot, (h.issued _ hid).trans hnum⟩

/-- It holds in a new queue. -/
theorem CancelsKept.of_init (h : timerRuns.init q) : q.CancelsKept := by
  obtain ⟨_, _, _, _, _, _, _, _, hissued, hhistory⟩ := h
  refine ⟨?_, fun id hmem => ?_, fun id hid => ?_⟩
  · rw [hhistory]
    exact List.Pairwise.nil
  · rw [hhistory] at hmem
    exact absurd hmem List.not_mem_nil
  · rw [hissued] at hid
    exact absurd hid List.not_mem_nil

/-- **Cancellation.** If no timer is cancelled while its insertion is queued or while it waits in
the expired batch, then its callback is never started after the cancellation. -/
theorem cancelled_not_started (h : (timerRuns.restrict CancelsInTime).Reachable q) :
    q.history.Pairwise fun a b => ∀ id, a = .cancelled id → b ≠ .started id := by
  obtain ⟨_, hkept⟩ : q.Agreed ∧ q.CancelsKept := by
    refine h.invariant (I := fun q => q.Agreed ∧ q.CancelsKept)
      (fun hinit => ⟨.of_init hinit, .of_init hinit⟩) ?_
    rintro q a q' ⟨hagreed, hkept⟩ ⟨henabled, hintime⟩ hexec
    obtain ⟨hagreed', hstepped⟩ := hagreed.of_step henabled hexec
    exact ⟨hagreed', hkept.step hagreed hstepped hintime⟩
  exact hkept.final

instance (q : TimerQueue) (a : TimerAction) :
    Decidable ((timerRuns.restrict CancelsInTime).enabled q a) :=
  inferInstanceAs (Decidable (q.mayStep a ∧ q.CancelsInTime a))

/-- A repeating timer cancels itself in its callback. -/
def cancelSelf : List TimerAction :=
  [.addTimer 5 100 50 true 10, .expire, .handleRead 100, .runTimer, .cancel ⟨5, 1⟩,
    .callbackReturns, .reset 110]

/-- Its callback is not started again. -/
theorem cancelled_not_started_cancelSelf :
    ∃ q, (timerRuns.restrict CancelsInTime).Reachable q ∧
      q.history = [.started ⟨5, 1⟩, .cancelled ⟨5, 1⟩] ∧
      q.history.Pairwise fun a b => ∀ id, a = .cancelled id → b ≠ .started id := by
  have hcheck : ((timerRuns.restrict CancelsInTime).replay newQueue cancelSelf).any (fun q =>
      decide (q.history = [.started ⟨5, 1⟩, .cancelled ⟨5, 1⟩])) = true := by decide +kernel
  obtain ⟨q, hrun, hq⟩ := System.exists_run_of_replay hcheck
  have hreach : (timerRuns.restrict CancelsInTime).Reachable q := ⟨_, _, newQueue_init, hrun⟩
  exact ⟨q, hreach, of_decide_eq_true hq, cancelled_not_started hreach⟩

/-- A callback cancels the timer that comes after it in the same batch. -/
def cancelNext : List TimerAction :=
  [.addTimer 5 100 50 true 10, .addTimer 6 (-3) 0 false 10, .expire, .handleRead 200, .runTimer,
    .cancel ⟨5, 1⟩, .callbackReturns, .runTimer]

/-- Another thread adds a timer, and its id is cancelled before the queued call runs. -/
def cancelQueued : List TimerAction :=
  [.foreignAddTimer 5 100 50 true, .cancel ⟨5, 1⟩, .runPending 10, .expire, .handleRead 200,
    .runTimer]

/-- In both cases the callback of a cancelled timer is started. -/
theorem cancelled_started :
    (∃ q, timerSystem.Reachable q ∧
      q.history = [.started ⟨6, 2⟩, .cancelled ⟨5, 1⟩, .started ⟨5, 1⟩]) ∧
    ∃ q, timerSystem.Reachable q ∧ q.history = [.cancelled ⟨5, 1⟩, .started ⟨5, 1⟩] := by
  constructor
  · have hcheck : (timerSystem.replay newQueue cancelNext).any (fun q =>
        decide (q.history = [.started ⟨6, 2⟩, .cancelled ⟨5, 1⟩, .started ⟨5, 1⟩])) = true := by
      decide +kernel
    obtain ⟨q, hrun, hq⟩ := System.exists_run_of_replay hcheck
    exact ⟨q, ⟨_, _, newQueue_init, hrun⟩, of_decide_eq_true hq⟩
  · have hcheck : (timerSystem.replay newQueue cancelQueued).any (fun q =>
        decide (q.history = [.cancelled ⟨5, 1⟩, .started ⟨5, 1⟩])) = true := by decide +kernel
    obtain ⟨q, hrun, hq⟩ := System.exists_run_of_replay hcheck
    exact ⟨q, ⟨_, _, newQueue_init, hrun⟩, of_decide_eq_true hq⟩

end Dalin.Net.TimerQueue
