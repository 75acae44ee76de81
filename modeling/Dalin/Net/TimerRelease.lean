import Dalin.Net.TimerCancel

/-!
# Timers in the tables and on the heap

`timers_` and `activeTimers_` list the same timers in every reachable state, and
the timers of the batch in progress are in neither. Every timer in them, in the
batch or in a queued call is on the heap and can be deleted, but the converse
fails: `reset` deletes no timer, because its `delete` is nested under the test
for the timers that it restarts. This file says which runs leave none behind.
-/

set_option autoImplicit false

namespace Dalin.Net.TimerQueue

open Transition

variable {q q' : TimerQueue}

/-- An address in a set is that of an entry. -/
theorem mem_addresses {s : OrderedSet Entry} {timer : ℕ} :
    timer ∈ addresses s ↔ ∃ e ∈ s, e.timer = timer := List.mem_map

/-- **The two indexes agree.** In every reachable state, also during `handleRead`, `timers_` and
`activeTimers_` contain the same timers, each once and under the timer's current expiration and
its number. The timers of the batch in progress are in neither of them, and no step fails. -/
theorem indexes_agree (h : timerRuns.Reachable q) :
    (∀ timer, (∃ e ∈ q.timers, e.timer = timer) ↔ ∃ id ∈ q.activeTimers, id.timer = timer) ∧
      (q.timers.toList.map Entry.timer).Nodup ∧ (q.activeTimers.toList.map TimerId.timer).Nodup ∧
      (∀ e ∈ q.timers, ∃ t, q.heap e.timer = some t ∧ t.expiration = e.expiration) ∧
      (∀ id ∈ q.activeTimers, ∃ t, q.heap id.timer = some t ∧ t.sequence = id.sequence) ∧
      (∀ b ∈ q.batch, ∀ e ∈ b.expired, (∀ e' ∈ q.timers, e'.timer ≠ e.timer) ∧
        ∀ id ∈ q.activeTimers, id.timer ≠ e.timer) ∧
      timerRuns.Safe q := by
  have hagreed := Agreed.of_reachable h
  have htables := hagreed.tables
  have hactive {id : TimerId} (hid : id ∈ q.activeTimers) :
      ∃ t, q.heap id.timer = some t ∧ t.sequence = id.sequence ∧
        ⟨t.expiration, id.timer⟩ ∈ q.timers :=
    (htables.active id).mp hid
  refine ⟨fun timer => ⟨?_, ?_⟩, (List.nodup_append.mp htables.nodup).2.1, ?_, htables.scheduled,
    fun id hid => ?_, fun b hb e he => ?_, hagreed.safe⟩
  · rintro ⟨e, he, rfl⟩
    obtain ⟨t, ht, _⟩ := htables.scheduled e he
    refine ⟨⟨e.timer, t.sequence⟩, (htables.active _).mpr ⟨t, ht, rfl, ?_⟩, rfl⟩
    rw [← htables.entry_unique he ht]
    exact he
  · rintro ⟨id, hid, rfl⟩
    obtain ⟨t, _, _, hmem⟩ := hactive hid
    exact ⟨_, hmem, rfl⟩
  · refine List.Nodup.map_on (fun id hid id' hid' heq => ?_) q.activeTimers.nodup
    obtain ⟨t, ht, hsequence, _⟩ := hactive hid
    obtain ⟨t', ht', hsequence', _⟩ := hactive hid'
    exact eq_of_timer ht hsequence ht' hsequence' heq
  · obtain ⟨t, ht, hsequence, _⟩ := hactive hid
    exact ⟨t, ht, hsequence⟩
  · have hmem : e.timer ∈ q.expiredTimers := by
      rw [expiredTimers_of_some hb]
      exact List.mem_map_of_mem he
    refine ⟨fun e' he' heq => ?_, fun id hid heq => ?_⟩
    · exact hagreed.not_mem_of_expired he' (heq ▸ hmem)
    · obtain ⟨t, _, _, hentry⟩ := hactive hid
      have hnot := hagreed.not_mem_of_expired hentry
      exact hnot (heq ▸ hmem)

/-- A callback adds a timer and cancels its own. -/
def midBatch : List TimerAction :=
  [.addTimer 1 1000 50 true 10, .addTimer 3 2000 0 false 10, .expire, .handleRead 1000, .runTimer,
    .addTimer 2 (-7) 0 false 1001, .cancel ⟨1, 1⟩]

/-- In the middle of that batch the sets have the same timers. -/
theorem indexes_agree_midBatch :
    ∃ q, timerRuns.Reachable q ∧ q.expiredTimers = [1] ∧
      q.timers.toList = [⟨-7, 2⟩, ⟨2000, 3⟩] ∧
      ∀ timer, (∃ e ∈ q.timers, e.timer = timer) ↔ ∃ id ∈ q.activeTimers, id.timer = timer := by
  have hcheck : (timerRuns.replay newQueue midBatch).any (fun q =>
      decide (q.expiredTimers = [1] ∧ q.timers.toList = [⟨-7, 2⟩, ⟨2000, 3⟩])) = true := by
    decide +kernel
  obtain ⟨q, hrun, hq⟩ := System.exists_run_of_replay hcheck
  obtain ⟨hexpired, htimers⟩ := of_decide_eq_true hq
  have hreach : timerRuns.Reachable q := ⟨_, _, newQueue_init, hrun⟩
  exact ⟨q, hreach, hexpired, htimers, (indexes_agree hreach).1⟩

/-! ### Deleting the timers -/

/-- `delete timer`. -/
def delete (q : TimerQueue) (timer : ℕ) : Except Failure TimerQueue := do
  let _ ← q.deref timer
  return { q with heap := Function.update q.heap timer none }

/-- The loop of `TimerQueue::~TimerQueue`. -/
def deleteAll (q : TimerQueue) : List Entry → Except Failure TimerQueue
  | [] => .ok q
  | entry :: rest => do
    let q ← q.delete entry.timer
    q.deleteAll rest

/-- `TimerQueue::~TimerQueue`, which also closes `timerfd_`. -/
def destroy (q : TimerQueue) : Except Failure TimerQueue := q.deleteAll q.timers.toList

/-- The destructor deletes timers on the heap, each once. -/
theorem deleteAll_eq_ok {entries : List Entry} (hnodup : (entries.map Entry.timer).Nodup)
    (hentries : ∀ e ∈ entries, ∃ t, q.heap e.timer = some t) :
    ∃ q', q.deleteAll entries = .ok q' ∧ ∀ timer, q'.heap timer =
      if timer ∈ entries.map Entry.timer then none else q.heap timer := by
  induction entries generalizing q with
  | nil => exact ⟨q, rfl, fun timer => by simp⟩
  | cons entry rest ih =>
    obtain ⟨hnot, hrest⟩ := List.nodup_cons.mp hnodup
    obtain ⟨t, ht⟩ := hentries entry List.mem_cons_self
    have hrest' : ∀ e ∈ rest, ∃ t',
        Function.update q.heap entry.timer none e.timer = some t' := by
      intro e he
      have hne : e.timer ≠ entry.timer := fun heq => hnot (heq ▸ List.mem_map_of_mem he)
      rw [Function.update_of_ne hne]
      exact hentries e (List.mem_cons_of_mem _ he)
    obtain ⟨q', hok, hheap⟩ := ih
      (q := { q with heap := Function.update q.heap entry.timer none }) hrest hrest'
    refine ⟨q', bind_eq_ok.mpr ⟨_, bind_eq_ok.mpr ⟨t, deref_of_some ht, rfl⟩, hok⟩,
      fun timer => ?_⟩
    rw [hheap]
    by_cases heq : timer = entry.timer
    · simp only [heq, Function.update_self, ite_self, List.map_cons, List.mem_cons_self, if_true]
    · simp only [List.map_cons, List.mem_cons, heq, Function.update_of_ne heq, false_or]

/-- This timer is in `timers_`, in the batch or in a queued call. -/
def Owned (q : TimerQueue) (timer : ℕ) : Prop :=
  timer ∈ addresses q.timers ∨ timer ∈ q.expiredTimers ∨ timer ∈ q.pendingTimers

/-- The timers that were not deleted are exactly those of the queue: those in `timers_`, those
whose insertion is queued and, during `handleRead`, those of the batch. -/
def Released (q : TimerQueue) : Prop := ∀ timer, (q.heap timer).isSome = true ↔ q.Owned timer

/-- Nothing is deleted twice or used after its deletion, by the next step or by the destructor,
and every other timer was deleted. -/
def Tidy (q : TimerQueue) : Prop :=
  timerRuns.Safe q ∧ (∃ q', q.destroy = .ok q') ∧ q.Released

/-- The end of `handleRead` finds only repeating timers that no callback of the batch cancelled. -/
def RestartsAll (q : TimerQueue) : TimerAction → Prop
  | .reset _ => ∀ timer ∈ q.expiredTimers, ∀ t ∈ q.heap timer, q.Restarts timer t
  | _ => True

/-- Every timer of the queue is on the heap. -/
theorem Agreed.allocated (h : q.Agreed) {timer : ℕ} (howned : q.Owned timer) :
    (q.heap timer).isSome = true := by
  rcases howned with hmem | houtside
  · obtain ⟨e, he, rfl⟩ := mem_addresses.mp hmem
    obtain ⟨t, ht, _⟩ := h.tables.scheduled e he
    exact Option.isSome_iff_exists.mpr ⟨t, ht⟩
  · obtain ⟨t, ht⟩ := h.tables.allocated timer (List.mem_append.mpr houtside)
    exact Option.isSome_iff_exists.mpr ⟨t, ht⟩

/-- While the tables agree, nothing is deleted twice or used after its deletion. -/
theorem Agreed.tidy_iff (h : q.Agreed) : q.Tidy ↔ q.Released := by
  refine ⟨fun htidy => htidy.2.2, fun hreleased => ⟨h.safe, ?_, hreleased⟩⟩
  have hnodup : (q.timers.toList.map Entry.timer).Nodup :=
    (List.nodup_append.mp h.tables.nodup).2.1
  obtain ⟨q', hok, _⟩ := deleteAll_eq_ok hnodup fun e he => by
    obtain ⟨t, ht, _⟩ := h.tables.scheduled e he
    exact ⟨t, ht⟩
  exact ⟨q', hok⟩

/-- A step deletes the timer that it takes out of the queue, except for `reset` with a timer that
it does not restart. -/
theorem Owned.of_step {a : TimerAction} {timer : ℕ} {t : Timer} (h : q.Owned timer)
    (hagreed : q.Agreed) (hmay : q.mayStep a) (hstepped : q.Stepped a q')
    (ht : q.heap timer = some t)
    (hrestarts : ∀ clock, a = .reset clock → timer ∈ q.expiredTimers → q.Restarts timer t)
    (hkept : (q'.heap timer).isSome = true) : q'.Owned timer := by
  unfold Owned at h ⊢
  simp only [mem_addresses, hstepped.timers, hstepped.expiredTimers, hstepped.pending] at h ⊢
  rw [hstepped.heap] at hkept
  cases a with
  | addTimer => exact h.imp_left fun ⟨e, he, heq⟩ => ⟨e, Or.inl he, heq⟩
  | foreignAddTimer => exact h.imp_right (Or.imp_right (List.mem_append_left _))
  | runPending now =>
    rcases h with ⟨e, he, heq⟩ | hexpired | hpending
    · exact Or.inl ⟨e, Or.inl he, heq⟩
    · exact Or.inr (Or.inl hexpired)
    · obtain ⟨first, rest, hrest⟩ := List.exists_cons_of_ne_nil (List.ne_nil_of_mem hpending)
      rw [hrest] at hpending
      rcases List.mem_cons.mp hpending with rfl | hmem
      · refine Or.inl ⟨⟨t.expiration, timer⟩, Or.inr ⟨?_, t, ht, rfl⟩, rfl⟩
        rw [hrest]
        rfl
      · refine Or.inr (Or.inr ?_)
        unfold pendingAfter
        rw [hrest]
        exact hmem
  | cancel id =>
    refine h.imp_left fun ⟨e, he, heq⟩ => ⟨e, ⟨he, fun hgone => ?_⟩, heq⟩
    rw [heapAfter_cancel, if_pos hgone.1, ← heq, hgone.2, Function.update_self] at hkept
    cases hkept
  | handleRead now =>
    rcases h with ⟨e, he, heq⟩ | hexpired | hpending
    · by_cases hlater : now < e.expiration
      · exact Or.inl ⟨e, ⟨he, hlater⟩, heq⟩
      · refine Or.inr (Or.inl (List.mem_map.mpr ⟨e, ?_, heq⟩))
        exact hagreed.tables.mem_below_iff.mpr ⟨he, not_lt.mp hlater⟩
    · rw [expiredTimers_of_none (Option.isNone_iff_eq_none.mp hmay)] at hexpired
      exact absurd hexpired List.not_mem_nil
    · exact Or.inr (Or.inr hpending)
  | reset clock =>
    rcases h with ⟨e, he, heq⟩ | hexpired | hpending
    · exact Or.inl ⟨e, Or.inl he, heq⟩
    · obtain ⟨b, hb⟩ := exists_batch_of_expired hexpired
      refine Or.inl ⟨⟨b.now + t.interval, timer⟩, Or.inr ⟨b, hb, hexpired, t, ht, ?_, rfl⟩, rfl⟩
      exact hrestarts clock rfl hexpired
    · exact Or.inr (Or.inr hpending)
  | _ => exact h

/-- A new timer is in the queue. -/
theorem owned_of_newId {a : TimerAction} {id : TimerId} (hstepped : q.Stepped a q')
    (h : id ∈ q.newId a) : q'.Owned id.timer := by
  unfold Owned
  simp only [mem_addresses, hstepped.timers, hstepped.expiredTimers, hstepped.pending]
  cases a with
  | addTimer timer expiration interval repeats now =>
    exact Or.inl ⟨⟨expiration, timer⟩, Or.inr rfl, congrArg TimerId.timer (Option.some.inj h)⟩
  | foreignAddTimer timer expiration interval repeats =>
    refine Or.inr (Or.inr (List.mem_append_right _ ?_))
    exact List.mem_singleton.mpr (congrArg TimerId.timer (Option.some.inj h)).symm
  | _ => cases h

/-- A queue that released its timers keeps doing so exactly in the steps that restart the whole
batch. -/
theorem Released.step_iff {a : TimerAction} (h : q.Released) (hagreed : q.Agreed)
    (hmay : q.mayStep a) (hagreed' : q'.Agreed) (hstepped : q.Stepped a q') :
    q'.Released ↔ q.RestartsAll a := by
  constructor
  · intro hreleased
    cases a with
    | reset clock =>
      intro timer hexpired t ht
      obtain ⟨b, hb⟩ := exists_batch_of_expired hexpired
      have hkept : (q'.heap timer).isSome = true := by
        rw [hstepped.heap, heapAfter_reset hb, restartedHeap_of_mem hexpired ht]
        rfl
      -- the timer can be in the queue only because it was restarted
      rcases (hreleased timer).mp hkept with hmem | hmem | hmem
      · obtain ⟨e, he, rfl⟩ := mem_addresses.mp hmem
        rcases (hstepped.timers e).mp he with he | ⟨_, _, _, t', ht', hrestarts, _⟩
        · exact absurd hexpired (hagreed.not_mem_of_expired he)
        · obtain rfl := Option.some.inj (ht.symm.trans ht')
          exact hrestarts
      · rw [hstepped.expiredTimers] at hmem
        exact absurd hmem List.not_mem_nil
      · rw [hstepped.pending] at hmem
        have hdisjoint := (List.nodup_append.mp (List.nodup_append.mp hagreed.tables.nodup).1).2.2
        exact absurd rfl (hdisjoint timer hexpired timer hmem)
    | _ => trivial
  · intro hrestarts timer
    refine ⟨fun hkept => ?_, hagreed'.allocated⟩
    obtain ⟨t, ht⟩ := Option.isSome_iff_exists.mp hkept
    rcases hstepped.exists_of_heap ht with hnew | ⟨_, t', ht', _⟩
    · exact owned_of_newId hstepped hnew
    · have howned : q.Owned timer := (h timer).mp (Option.isSome_iff_exists.mpr ⟨t', ht'⟩)
      refine howned.of_step hagreed hmay hstepped ht' (fun clock heq hexpired => ?_) hkept
      subst heq
      exact hrestarts timer hexpired t' ht'

/-- It holds in a new queue. -/
theorem Released.of_init (h : timerRuns.init q) : q.Released := by
  obtain ⟨hheap, htimers, _, _, _, _, hbatch, hpending, _⟩ := h
  intro timer
  unfold Owned
  rw [hheap, htimers, hpending, expiredTimers_of_none hbatch]
  refine iff_of_false Bool.false_ne_true ?_
  rintro (hmem | hmem | hmem) <;> exact absurd hmem List.not_mem_nil

/-- **Every timer is released exactly once** in the runs in which `reset` restarts every timer of
its batch, and in no others. -/
theorem released_once_iff {as : List TimerAction} (hinit : timerRuns.init q)
    (hrun : timerRuns.Run q as q') :
    timerRuns.Always Tidy q as ↔ timerRuns.Throughout RestartsAll q as := by
  have hagreed := Agreed.of_init hinit
  refine hrun.always_iff_throughout (I := Agreed) hagreed
    (hagreed.tidy_iff.mpr (.of_init hinit))
    (fun hagreed hmay hexec => (hagreed.of_step hmay hexec).1) ?_
  intro q a q' hagreed htidy hmay hexec
  obtain ⟨hagreed', hstepped⟩ := hagreed.of_step hmay hexec
  rw [hagreed'.tidy_iff]
  exact (hagreed.tidy_iff.mp htidy).step_iff hagreed hmay hagreed' hstepped

instance (q : TimerQueue) (a : TimerAction) : Decidable (q.RestartsAll a) := by
  unfold RestartsAll
  apply @TimerAction.casesOn _ a <;> intros <;> infer_instance

instance (q : TimerQueue) (a : TimerAction) :
    Decidable ((timerRuns.restrict RestartsAll).enabled q a) :=
  inferInstanceAs (Decidable (q.mayStep a ∧ q.RestartsAll a))

/-- A repeating timer that is not cancelled is not left behind. -/
theorem released_once_repeatingTimer :
    ∃ q, timerRuns.Run newQueue repeatingTimer q ∧
      timerRuns.Always Tidy newQueue repeatingTimer := by
  have hcheck : ((timerRuns.restrict RestartsAll).replay newQueue repeatingTimer).any
      (fun _ => true) = true := by decide +kernel
  obtain ⟨q, hrun, _⟩ := System.exists_run_of_replay hcheck
  obtain ⟨hrun', hrestarts⟩ := hrun.throughout_of_restrict
  exact ⟨q, hrun', (released_once_iff newQueue_init hrun').mpr hrestarts⟩

/-- A timer that fires once. -/
def oneShot : List TimerAction :=
  [.addTimer 5 100 0 false 10, .expire, .handleRead 100, .runTimer, .callbackReturns, .reset 110]

/-- A timer on the heap that the queue has forgotten is never deleted. -/
theorem not_tidy_of_forgotten (hbatch : q.batch = none) (htimers : q.timers.toList = [])
    (hpending : q.pendingTimers = []) {timer : ℕ} (hheap : (q.heap timer).isSome = true) :
    ¬ q.Tidy := by
  intro htidy
  rcases (htidy.2.2 timer).mp hheap with hmem | hmem | hmem
  · unfold addresses at hmem
    rw [htimers] at hmem
    exact absurd hmem List.not_mem_nil
  · rw [expiredTimers_of_none hbatch] at hmem
    exact absurd hmem List.not_mem_nil
  · rw [hpending] at hmem
    exact absurd hmem List.not_mem_nil

/-- A timer that fired once and a repeating timer that its callback cancelled are both still on
the heap after `handleRead`, in no table and in no queued call. -/
theorem not_released :
    (∃ q, timerRuns.Run newQueue oneShot q ∧ q.batch = none ∧ ¬ q.Tidy) ∧
      ∃ q, timerRuns.Run newQueue cancelSelf q ∧ q.batch = none ∧ ¬ q.Tidy := by
  have hleaks {as : List TimerAction} (hcheck : (timerRuns.replay newQueue as).any (fun q =>
      decide (q.batch.isNone = true ∧ q.timers.toList = [] ∧ q.pendingTimers = [] ∧
        (q.heap 5).isSome = true)) = true) :
      ∃ q, timerRuns.Run newQueue as q ∧ q.batch = none ∧ ¬ q.Tidy := by
    obtain ⟨q, hrun, hq⟩ := System.exists_run_of_replay hcheck
    obtain ⟨hidle, htimers, hpending, hheap⟩ := of_decide_eq_true hq
    have hbatch := Option.isNone_iff_eq_none.mp hidle
    exact ⟨q, hrun, hbatch, not_tidy_of_forgotten hbatch htimers hpending hheap⟩
  exact ⟨hleaks (by decide +kernel), hleaks (by decide +kernel)⟩

end Dalin.Net.TimerQueue
