import Dalin.Net.TimerBatch
import Dalin.Net.TimerRelease

/-!
# Stale timer ids

A `TimerId` outlives its timer, and the address in it may belong to another timer by
the time it is cancelled. The number in it tells the two apart: `cancelInLoop`
looks both up in `activeTimers_` before it follows the pointer, and `reset`
looks both up in `cancelingTimers_`. This file shows that no timer but the one with
the number of the id is affected.
-/

set_option autoImplicit false

namespace Dalin.Net.TimerQueue

open Transition

variable {q q' : TimerQueue} {id : TimerId} {t : Timer}

/-- Every timer on the heap has an id that was returned, and no two of these ids have the same
number. -/
structure Numbered (q : TimerQueue) : Prop where
  known : ∀ timer t, q.heap timer = some t → ⟨timer, t.sequence⟩ ∈ q.issued
  bounded : ∀ id ∈ q.issued, id.sequence ≤ q.numCreated
  distinct : (q.issued.map TimerId.sequence).Nodup

/-- It holds in a new queue. -/
theorem Numbered.of_init (h : timerRuns.init q) : q.Numbered := by
  obtain ⟨hheap, _, _, _, _, _, _, _, hissued, _⟩ := h
  refine ⟨fun timer t ht => ?_, fun id hid => ?_, ?_⟩
  · rw [hheap] at ht
    cases ht
  · rw [hissued] at hid
    exact absurd hid List.not_mem_nil
  · rw [hissued]
    exact List.nodup_nil

/-- A new timer takes a number that no other one has had. -/
theorem Numbered.step {a : TimerAction} (h : q.Numbered) (hstepped : q.Stepped a q') :
    q'.Numbered := by
  have hmono : q.numCreated ≤ q'.numCreated := hstepped.numCreated ▸ Nat.le_add_right ..
  refine ⟨fun timer t ht => ?_, fun id hid => ?_, ?_⟩
  · rw [hstepped.issued]
    rcases hstepped.exists_of_heap ht with hnew | ⟨_, t', ht', hsequence, _⟩
    · exact List.mem_append_right _ (Option.mem_toList.mpr hnew)
    · rw [hsequence]
      exact List.mem_append_left _ (h.known timer t' ht')
  · rw [hstepped.issued] at hid
    rcases List.mem_append.mp hid with hold | hnew
    · exact (h.bounded id hold).trans hmono
    · have hnew := Option.mem_toList.mp hnew
      rw [sequence_of_newId hnew, hstepped.numCreated, Option.mem_def.mp hnew]
      exact le_rfl
  · rw [hstepped.issued, List.map_append]
    refine List.nodup_append.mpr ⟨h.distinct, ?_, ?_⟩
    · cases q.newId a with
      | none => exact List.nodup_nil
      | some id => exact List.nodup_singleton _
    · intro n hn m hm
      obtain ⟨id, hid, rfl⟩ := List.mem_map.mp hn
      obtain ⟨id', hid', rfl⟩ := List.mem_map.mp hm
      have hle := h.bounded id hid
      have hnumber := sequence_of_newId (Option.mem_toList.mp hid')
      omega

/-- The timer with the number of an id is at the address of the id. -/
theorem Numbered.address (h : q.Numbered) (hid : id ∈ q.issued) {timer : ℕ}
    (ht : q.heap timer = some t) (hsequence : t.sequence = id.sequence) : timer = id.timer := by
  have heq := List.inj_on_of_nodup_map h.distinct (h.known timer t ht) hid hsequence
  rw [← heq]

/-- No timer with this id is on the heap. -/
def Stale (q : TimerQueue) (id : TimerId) : Prop := ∀ t ∈ q.heap id.timer, t.sequence ≠ id.sequence

/-- A step from `q` to `q'` leaves this timer as it is: in the tables, under its expiration, in
the batch, and restarted by `reset` or not. -/
structure Spared (q q' : TimerQueue) (timer : ℕ) (t : Timer) : Prop where
  heap : q'.heap timer = some t
  timers : ∀ e, e.timer = timer → (e ∈ q'.timers ↔ e ∈ q.timers)
  active : ⟨timer, t.sequence⟩ ∈ q'.activeTimers ↔ ⟨timer, t.sequence⟩ ∈ q.activeTimers
  batch : q'.batch = q.batch
  restarts : q'.Restarts timer t ↔ q.Restarts timer t

/-- `cancel` leaves every timer with another number as it is. -/
theorem Agreed.spared (h : q.Agreed) (hmay : q.mayStep (.cancel id)) (hagreed' : q'.Agreed)
    (hstepped : q.Stepped (.cancel id) q') {timer : ℕ} (ht : q.heap timer = some t)
    (hsequence : t.sequence ≠ id.sequence) : q.Spared q' timer t := by
  have hne : (⟨timer, t.sequence⟩ : TimerId) ≠ id := fun heq =>
    hsequence (congrArg TimerId.sequence heq)
  have hother (hid : id ∈ q.activeTimers) : timer ≠ id.timer := by
    rintro rfl
    obtain ⟨t', ht', hsequence', _⟩ := h.mem_active_iff.mp hid
    obtain rfl := Option.some.inj (ht.symm.trans ht')
    exact hsequence hsequence'
  refine ⟨?_, fun e he => ?_, ?_, hstepped.batch, ?_⟩
  · rw [hstepped.heap, heapAfter_cancel]
    split
    · rename_i hid
      rw [Function.update_of_ne (hother hid)]
      exact ht
    · exact ht
  · rw [hstepped.timers]
    refine and_iff_left ?_
    rintro ⟨hid, heq⟩
    exact hother hid (he.symm.trans heq)
  · rw [hagreed'.mem_active_iff, h.mem_active_iff]
    refine exists_congr fun t' => (h.scheduled_iff hmay hstepped).trans ?_
    exact and_iff_left hne
  · refine and_congr_right fun _ => not_congr ((hstepped.canceling _).trans ?_)
    exact or_iff_left fun hin => hne hin.1

/-- `cancelInLoop` of an id that is in no table follows no pointer. -/
theorem cancelInLoop_of_not_mem (hsizes : q.timers.size = q.activeTimers.size)
    (hid : id ∉ q.activeTimers) : q.cancelInLoop id = .ok { q with
      cancelingTimers := if q.callingExpiredTimers = true then q.cancelingTimers.insert id
        else q.cancelingTimers } := by
  refine bind_eq_ok.mpr ⟨(), require_of_true hsizes, ?_⟩
  rw [if_neg hid]
  split <;> rfl

/-- `cancel` of a stale id neither reads nor writes what is at its address. -/
theorem Agreed.exec_cancel_stale (h : q.Agreed) (hstale : q.Stale id)
    (hexec : q.exec (.cancel id) = .ok q') (x : Option Timer) :
    exec { q with heap := Function.update q.heap id.timer x } (.cancel id) =
      .ok { q' with heap := Function.update q'.heap id.timer x } := by
  have hid : id ∉ q.activeTimers := by
    intro hmem
    obtain ⟨t, ht, hsequence, _⟩ := h.mem_active_iff.mp hmem
    exact hstale t ht hsequence
  obtain ⟨q₀, hok, heq⟩ := bind_eq_ok.mp hexec
  rw [cancelInLoop_of_not_mem h.tables.sizes hid] at hok
  cases hok
  cases heq
  exact bind_eq_ok.mpr ⟨_, cancelInLoop_of_not_mem h.tables.sizes hid, rfl⟩

/-! ### Timers that are not cancelled -/

/-- This timer is in the queue, and if it is in the batch, it was not cancelled there. -/
def Alive (q : TimerQueue) (id : TimerId) (t : Timer) : Prop :=
  q.heap id.timer = some t ∧ t.sequence = id.sequence ∧ q.Owned id.timer ∧
    (id.timer ∈ q.expiredTimers → id ∉ q.cancelingTimers)

/-- A step deletes the timer that it cancels and no other one, and `reset` changes the expiration
of the timers that it restarts. -/
theorem Agreed.heap_of_step {a : TimerAction} (h : q.Agreed) (hmay : q.mayStep a)
    (hstepped : q.Stepped a q') (ht : q.heap id.timer = some t)
    (hsequence : t.sequence = id.sequence) (hnot : a ≠ .cancel id) :
    ∃ expiration, q'.heap id.timer = some { t with expiration := expiration } := by
  rw [hstepped.heap]
  cases a with
  | addTimer =>
    exact ⟨t.expiration, (Function.update_of_ne (ne_of_allocated hmay.2 ht) ..).trans ht⟩
  | foreignAddTimer =>
    exact ⟨t.expiration, (Function.update_of_ne (ne_of_allocated hmay ht) ..).trans ht⟩
  | cancel target =>
    refine ⟨t.expiration, ?_⟩
    rw [heapAfter_cancel]
    split
    · rename_i hid
      obtain ⟨t', ht', hsequence', _⟩ := h.mem_active_iff.mp hid
      have hother : id.timer ≠ target.timer := fun heq =>
        hnot (congrArg _ (eq_of_timer ht hsequence ht' hsequence' heq).symm)
      rw [Function.update_of_ne hother]
      exact ht
    · exact ht
  | reset clock =>
    obtain ⟨b, hb, _⟩ := exists_batch hmay
    rw [heapAfter_reset hb]
    unfold restartedHeap
    rw [ht, Option.map_some]
    split
    · exact ⟨_, rfl⟩
    · exact ⟨t.expiration, rfl⟩
  | _ => exact ⟨t.expiration, ht⟩

/-- A repeating timer stays in the queue in every step that does not cancel it. -/
theorem Alive.step {a : TimerAction} (h : q.Alive id t) (hagreed : q.Agreed) (hmay : q.mayStep a)
    (hstepped : q.Stepped a q') (hrepeats : t.repeats = true) (hnot : a ≠ .cancel id) :
    ∃ expiration, q'.Alive id { t with expiration := expiration } := by
  obtain ⟨ht, hsequence, howned, huncancelled⟩ := h
  obtain ⟨expiration, ht'⟩ := hagreed.heap_of_step hmay hstepped ht hsequence hnot
  refine ⟨expiration, ht', hsequence, ?_, fun hexpired => ?_⟩
  · refine howned.of_step hagreed hmay hstepped ht (fun clock _ hexpired => ⟨hrepeats, ?_⟩) ?_
    · rw [hsequence]
      exact huncancelled hexpired
    · rw [ht']
      rfl
  · rw [hstepped.expiredTimers] at hexpired
    rw [hstepped.canceling]
    cases a with
    | cancel target =>
      rintro (hold | ⟨rfl, _⟩)
      · exact huncancelled hexpired hold
      · exact hnot rfl
    | handleRead now => exact not_false
    | reset clock => exact absurd hexpired List.not_mem_nil
    | _ => exact huncancelled hexpired

/-- A timer in the tables stays there until it expires or is cancelled. -/
theorem Scheduled.step {a : TimerAction} (h : q.Scheduled id t) (hagreed : q.Agreed)
    (hmay : q.mayStep a) (hstepped : q.Stepped a q') (hnot : a ≠ .cancel id)
    (hlater : ∀ now, a = .handleRead now → now < t.expiration) : q'.Scheduled id t := by
  rw [hagreed.scheduled_iff hmay hstepped]
  cases a with
  | addTimer => exact Or.inl h
  | runPending => exact Or.inl h
  | cancel target => exact ⟨h, fun heq => hnot (heq ▸ rfl)⟩
  | handleRead now => exact ⟨h, hlater now rfl⟩
  | reset clock => exact Or.inl h
  | _ => exact h

/-- `reset` restarts a repeating timer of its batch that was not cancelled. -/
theorem Alive.restarted {clock : ℤ} {b : Batch} (h : q.Alive id t) (hagreed : q.Agreed)
    (hmay : q.mayStep (.reset clock)) (hstepped : q.Stepped (.reset clock) q')
    (hrepeats : t.repeats = true) (hexpired : id.timer ∈ q.expiredTimers) (hb : q.batch = some b) :
    q'.Scheduled id { t with expiration := b.now + t.interval } := by
  obtain ⟨ht, hsequence, _, huncancelled⟩ := h
  refine (hagreed.scheduled_iff hmay hstepped).mpr (Or.inr ⟨b, hb, hexpired, t, ht, hsequence,
    ⟨hrepeats, ?_⟩, ?_⟩)
  · rw [hsequence]
    exact huncancelled hexpired
  · unfold Timer.restart
    rw [if_pos hrepeats]

/-- Ids of timers that are gone do no harm to other timers, in this state and in all later ones. -/
structure Harmless (q : TimerQueue) : Prop where
  /-- Only the timer with the number of a returned id can be meant by it. -/
  address : ∀ id ∈ q.issued, ∀ timer t, q.heap timer = some t → t.sequence = id.sequence →
    timer = id.timer
  /-- `cancel` succeeds and leaves every timer with another number as it is. If no timer has this
  id, then it does not depend on what is at the address. -/
  spared : ∀ id, q.InUserCode → ∃ q', q.exec (.cancel id) = .ok q' ∧
    (∀ timer t, q.heap timer = some t → t.sequence ≠ id.sequence → q.Spared q' timer t) ∧
    (q.Stale id → ∀ x, exec { q with heap := Function.update q.heap id.timer x } (.cancel id) =
      .ok { q' with heap := Function.update q'.heap id.timer x })
  /-- A timer that is not cancelled itself stays in the tables until it expires. -/
  scheduled : ∀ as q', timerRuns.Run q as q' → ∀ id t, q.Scheduled id t → .cancel id ∉ as →
    (∀ now, .handleRead now ∈ as → now < t.expiration) → q'.Scheduled id t
  /-- A repeating timer that is not cancelled itself stays in the queue. -/
  alive : ∀ as q', timerRuns.Run q as q' → ∀ id t, q.Alive id t → t.repeats = true →
    .cancel id ∉ as → ∃ expiration, q'.Alive id { t with expiration := expiration }
  /-- And `reset` restarts it when it is in its batch. -/
  restarted : ∀ clock q', timerRuns.Run q [.reset clock] q' → ∀ id t, q.Alive id t →
    t.repeats = true → id.timer ∈ q.expiredTimers →
    ∃ b ∈ q.batch, q'.Scheduled id { t with expiration := b.now + t.interval }

/-- A run without a `cancel` of this id has none in its last step. -/
theorem ne_cancel_of_append {as : List TimerAction} {a : TimerAction}
    (h : .cancel id ∉ as ++ [a]) : .cancel id ∉ as ∧ a ≠ .cancel id := by
  rw [List.mem_append, List.mem_singleton, not_or] at h
  exact ⟨h.1, Ne.symm h.2⟩

/-- Scheduled timers stay scheduled through a run. -/
theorem Scheduled.run {as : List TimerAction} (h : q.Scheduled id t) (hagreed : q.Agreed)
    (hrun : timerRuns.Run q as q') (hnot : .cancel id ∉ as)
    (hlater : ∀ now, .handleRead now ∈ as → now < t.expiration) : q'.Scheduled id t := by
  have hboth : q'.Agreed ∧ (.cancel id ∉ as →
      (∀ now, .handleRead now ∈ as → now < t.expiration) → q'.Scheduled id t) := by
    refine hrun.history (I := fun as s => s.Agreed ∧ (.cancel id ∉ as →
      (∀ now, .handleRead now ∈ as → now < t.expiration) → s.Scheduled id t))
      ⟨hagreed, fun _ _ => h⟩ ?_
    rintro as s a s' ⟨hagreed, hkept⟩ hmay hexec
    obtain ⟨hagreed', hstepped⟩ := hagreed.of_step hmay hexec
    refine ⟨hagreed', fun hnot hlater => ?_⟩
    obtain ⟨hnot, hne⟩ := ne_cancel_of_append hnot
    have hscheduled := hkept hnot fun now hmem => hlater now (List.mem_append_left _ hmem)
    refine hscheduled.step hagreed hmay hstepped hne fun now heq => hlater now ?_
    exact List.mem_append_right _ (List.mem_singleton.mpr heq.symm)
  exact hboth.2 hnot hlater

/-- Repeating timers stay alive through a run. -/
theorem Alive.run {as : List TimerAction} (h : q.Alive id t) (hagreed : q.Agreed)
    (hrun : timerRuns.Run q as q') (hrepeats : t.repeats = true) (hnot : .cancel id ∉ as) :
    ∃ expiration, q'.Alive id { t with expiration := expiration } := by
  have hboth : q'.Agreed ∧ (.cancel id ∉ as →
      ∃ expiration, q'.Alive id { t with expiration := expiration }) := by
    refine hrun.history (I := fun as s => s.Agreed ∧ (.cancel id ∉ as →
      ∃ expiration, s.Alive id { t with expiration := expiration }))
      ⟨hagreed, fun _ => ⟨t.expiration, h⟩⟩ ?_
    rintro as s a s' ⟨hagreed, hkept⟩ hmay hexec
    obtain ⟨hagreed', hstepped⟩ := hagreed.of_step hmay hexec
    refine ⟨hagreed', fun hnot => ?_⟩
    obtain ⟨hnot, hne⟩ := ne_cancel_of_append hnot
    obtain ⟨_, halive⟩ := hkept hnot
    exact halive.step hagreed hmay hstepped hrepeats hne
  exact hboth.2 hnot

/-- **Stale ids are harmless.** In every reachable state, where new timers may have been created
at the addresses of deleted ones, an id affects the timer with its number only, and the pointer in
it is not followed once this timer is gone. No step follows a dangling pointer. -/
theorem stale_ids_harmless (h : timerRuns.Reachable q) : q.Harmless ∧ timerRuns.Safe q := by
  have hagreed := Agreed.of_reachable h
  have hnumbered : q.Numbered := by
    have hboth : q.Agreed ∧ q.Numbered := by
      refine h.invariant (I := fun q => q.Agreed ∧ q.Numbered)
        (fun hinit => ⟨.of_init hinit, .of_init hinit⟩) ?_
      rintro q a q' ⟨hagreed, hnumbered⟩ hmay hexec
      obtain ⟨hagreed', hstepped⟩ := hagreed.of_step hmay hexec
      exact ⟨hagreed', hnumbered.step hstepped⟩
    exact hboth.2
  refine ⟨⟨fun id hid timer t => hnumbered.address hid, fun id huser => ?_,
    fun as q' hrun id t hscheduled => hscheduled.run hagreed hrun,
    fun as q' hrun id t halive => halive.run hagreed hrun,
    fun clock q' hrun id t halive hrepeats hexpired => ?_⟩, hagreed.safe⟩
  · have hmay : q.mayStep (.cancel id) := huser
    obtain ⟨q', hexec, hagreed', hstepped⟩ := hagreed.step hmay
    exact ⟨q', hexec, fun timer t => hagreed.spared hmay hagreed' hstepped,
      fun hstale => hagreed.exec_cancel_stale hstale hexec⟩
  · obtain ⟨u, henabled, hexec, hnil⟩ := hrun.uncons
    obtain rfl := hnil.unique .nil
    have hmay : q.mayStep (.reset clock) := henabled
    obtain ⟨_, hstepped⟩ := hagreed.of_step hmay hexec
    obtain ⟨b, hb⟩ := exists_batch_of_expired hexpired
    exact ⟨b, hb, halive.restarted hagreed hmay hstepped hrepeats hexpired hb⟩

/-- A timer is cancelled, the next one is created at its address and runs, and its callback
cancels the id of the first one. -/
def reusedAddress : List TimerAction :=
  [.addTimer 5 100 0 false 10, .cancel ⟨5, 1⟩, .addTimer 5 100 50 true 20, .expire,
    .handleRead 100, .runTimer, .cancel ⟨5, 1⟩, .callbackReturns]

/-- The timer that took over the address is restarted. -/
theorem stale_ids_harmless_reusedAddress : ∃ q, timerRuns.Run newQueue reusedAddress q ∧
    q.issued = [⟨5, 1⟩, ⟨5, 2⟩] ∧ q.expiredTimers = [5] ∧ q.Harmless := by
  have hcheck : (timerRuns.replay newQueue reusedAddress).any (fun q =>
      decide (q.issued = [⟨5, 1⟩, ⟨5, 2⟩] ∧ q.expiredTimers = [5])) = true := by
    decide +kernel
  obtain ⟨q, hrun, hq⟩ := System.exists_run_of_replay hcheck
  obtain ⟨hissued, hexpired⟩ := of_decide_eq_true hq
  exact ⟨q, hrun, hissued, hexpired, (stale_ids_harmless ⟨_, _, newQueue_init, hrun⟩).1⟩

end Dalin.Net.TimerQueue
