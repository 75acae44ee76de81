import Dalin.Net.TimerTables

/-!
# Runs of the timer queue

A `handleRead` in progress keeps the expired timers outside of the tables, and so
does a queued call of `addTimerInLoop`. This file follows the timers through whole
runs: the tables agree in every reachable state, and no step fails.
-/

set_option autoImplicit false

namespace Dalin.Net

open Transition

namespace TimerQueue

variable {q q' : TimerQueue}

/-- The timers of the batch in progress. -/
def expiredTimers (q : TimerQueue) : List ℕ :=
  match q.batch with
  | none => []
  | some b => b.expired.map Entry.timer

/-- Outside of `handleRead` there is no batch. -/
theorem expiredTimers_of_none (h : q.batch = none) : q.expiredTimers = [] := by
  unfold expiredTimers
  rw [h]

/-- The timers of the batch. -/
theorem expiredTimers_of_some {b : Batch} (h : q.batch = some b) :
    q.expiredTimers = b.expired.map Entry.timer := by
  unfold expiredTimers
  rw [h]

/-- A timer of the batch shows that there is one. -/
theorem exists_batch_of_expired {timer : ℕ} (h : timer ∈ q.expiredTimers) :
    ∃ b, q.batch = some b := by
  cases hb : q.batch with
  | none =>
    rw [expiredTimers_of_none hb] at h
    exact absurd h List.not_mem_nil
  | some b => exact ⟨b, rfl⟩

/-- The tables agree, and the timers of queued calls and of the batch are outside of them. -/
structure Consistent (q : TimerQueue) : Prop where
  tables : Tables q (q.expiredTimers ++ q.pendingTimers)
  calling : q.callingExpiredTimers = q.batch.isSome
  batch : ∀ b ∈ q.batch, b.rest <:+ b.expired ∧ 0 < b.now

/-- The same, whatever the clock reads. -/
structure Agreed (q : TimerQueue) : Prop where
  tables : Tables q (q.expiredTimers ++ q.pendingTimers)
  calling : q.callingExpiredTimers = q.batch.isSome
  batch : ∀ b ∈ q.batch, b.rest <:+ b.expired

/-- Which steps may come next, whatever the clock reads. -/
def mayStep (q : TimerQueue) : TimerAction → Prop
  | .expire => q.timerfd = .armed
  | .addTimer timer _ interval repeats _ => q.InUserCode ∧ q.MayCreate timer interval repeats
  | .foreignAddTimer timer _ interval repeats => q.MayCreate timer interval repeats
  | .runPending _ => q.batch.isNone = true ∧ q.pendingTimers ≠ []
  | .cancel _ => q.InUserCode
  | .handleRead _ => q.batch.isNone = true
  | .runTimer => q.batch.any (fun b => !b.inCallback && !b.rest.isEmpty) = true
  | .callbackReturns => q.batch.any (fun b => b.inCallback) = true
  | .reset _ => q.batch.any (fun b => !b.inCallback && b.rest.isEmpty) = true

instance (q : TimerQueue) (a : TimerAction) : Decidable (q.mayStep a) := by
  unfold mayStep
  apply @TimerAction.casesOn _ a <;> intros <;> infer_instance

/-- A step that may come next with a positive clock reading may come next. -/
theorem mayStep_of_enabled {a : TimerAction} (h : q.enabled a) : q.mayStep a := by
  cases a with
  | addTimer => exact ⟨h.1, h.2.1⟩
  | runPending => exact ⟨h.1, h.2.1⟩
  | handleRead => exact h.1
  | reset => exact h.1
  | _ => exact h

/-- A timer of the batch is not in `timers_`. -/
theorem Agreed.not_mem_of_expired (h : q.Agreed) {e : Entry} (he : e ∈ q.timers) :
    e.timer ∉ q.expiredTimers :=
  fun hmem => h.tables.not_mem he (List.mem_append_left _ hmem)

/-- What is consistent agrees. -/
theorem Consistent.agreed (h : q.Consistent) : q.Agreed :=
  ⟨h.tables, h.calling, fun b hb => (h.batch b hb).1⟩

/-- The queue after `addTimerInLoop`. -/
def added (q : TimerQueue) (timer : ℕ) (t : Timer) (now : ℤ) : TimerQueue :=
  if q.earliest t.expiration = true then (q.withTimer timer t).resetTimerfd t.expiration now
  else q.withTimer timer t

/-- `addTimerInLoop` puts a timer into the tables, and sets the timerfd if it is the earliest. -/
theorem Tables.addTimerInLoop {outside : List ℕ} {timer : ℕ} {t : Timer}
    (h : Tables q (timer :: outside)) (ht : q.heap timer = some t) (now : ℤ) :
    q.addTimerInLoop timer now = .ok (q.added timer t now) ∧
      Tables (q.added timer t now) outside := by
  obtain ⟨hinsert, htables⟩ := h.insert ht
  constructor
  · refine bind_eq_ok.mpr ⟨_, hinsert, ?_⟩
    change (if q.earliest t.expiration = true then _ else _) = _
    unfold added
    split
    · exact bind_eq_ok.mpr ⟨t, deref_of_some ht, rfl⟩
    · rfl
  · unfold added
    split
    · exact htables.congr rfl rfl rfl
    · exact htables

/-- `addTimerInLoop` changes the tables and the timerfd only. -/
theorem added_eq (q : TimerQueue) (timer : ℕ) (t : Timer) (now : ℤ) :
    ∃ timerfd lastSettime, q.added timer t now = { q.withTimer timer t with
      timerfd := timerfd, lastSettime := lastSettime } := by
  unfold added
  split
  · exact ⟨_, _, rfl⟩
  · exact ⟨q.timerfd, q.lastSettime, rfl⟩

/-- What a timer is when `addTimer` has just created it. -/
def created (q : TimerQueue) (expiration interval : ℤ) (repeats : Bool) : Timer :=
  ⟨expiration, interval, repeats, q.numCreated + 1⟩

/-- `addTimer` in the thread of the loop. -/
theorem Agreed.exec_addTimer {timer : ℕ} {interval : ℤ} {repeats : Bool} (h : q.Agreed)
    (hmay : q.MayCreate timer interval repeats) (expiration now : ℤ) :
    ∃ q', q.exec (.addTimer timer expiration interval repeats now) = .ok q' ∧ q'.Agreed ∧
      q' = ((q.newTimer timer expiration interval repeats).added timer
        (q.created expiration interval repeats) now).issue timer := by
  obtain ⟨hok, htables⟩ := (h.tables.newTimer hmay expiration).addTimerInLoop
    (t := q.created expiration interval repeats) (Function.update_self ..) now
  obtain ⟨timerfd, lastSettime, hadded⟩ := (q.newTimer timer expiration interval repeats).added_eq
    timer (q.created expiration interval repeats) now
  refine ⟨_, bind_eq_ok.mpr ⟨_, hok, rfl⟩, ?_, rfl⟩
  rw [hadded] at htables ⊢
  exact ⟨htables.congr rfl rfl rfl, h.calling, h.batch⟩

/-- `addTimer` in another thread. -/
theorem Agreed.exec_foreignAddTimer {timer : ℕ} {expiration interval : ℤ} {repeats : Bool}
    (h : q.Agreed) (hmay : q.MayCreate timer interval repeats) :
    ∃ q', q.exec (.foreignAddTimer timer expiration interval repeats) = .ok q' ∧
      q'.Agreed ∧ q' = { q.newTimer timer expiration interval repeats with
        pendingTimers := q.pendingTimers ++ [timer] }.issue timer := by
  have hperm : (q.expiredTimers ++ (q.pendingTimers ++ [timer])).Perm
      (timer :: (q.expiredTimers ++ q.pendingTimers)) := by
    rw [← List.append_assoc]
    exact List.perm_append_singleton ..
  have htables := (h.tables.newTimer hmay expiration).subperm hperm.subperm
  exact ⟨_, rfl, ⟨htables.congr rfl rfl rfl, h.calling, h.batch⟩, rfl⟩

/-- The next queued `addTimerInLoop`. -/
theorem Agreed.exec_runPending {now : ℤ} (h : q.Agreed)
    (henabled : q.mayStep (.runPending now)) :
    ∃ q' timer rest t, q.exec (.runPending now) = .ok q' ∧ q'.Agreed ∧
      q.pendingTimers = timer :: rest ∧ q.heap timer = some t ∧
      q' = { q with pendingTimers := rest }.added timer t now := by
  obtain ⟨hidle, hne⟩ := henabled
  have hbatch : q.batch = none := Option.isNone_iff_eq_none.mp hidle
  have htables := h.tables
  cases hpending : q.pendingTimers with
  | nil => exact absurd hpending hne
  | cons timer rest =>
    rw [expiredTimers_of_none hbatch, hpending, List.nil_append] at htables
    obtain ⟨t, ht⟩ := htables.allocated timer List.mem_cons_self
    have htables' : Tables { q with pendingTimers := rest } (timer :: rest) :=
      htables.congr rfl rfl rfl
    obtain ⟨hok, hadded⟩ := htables'.addTimerInLoop ht now
    obtain ⟨timerfd, lastSettime, heq⟩ := { q with pendingTimers := rest }.added_eq timer t now
    refine ⟨_, timer, rest, t, ?_, ⟨?_, ?_, ?_⟩, rfl, ht, rfl⟩
    · simp only [exec, hpending]
      exact hok
    · rw [heq] at hadded ⊢
      unfold expiredTimers
      simp only [withTimer, hbatch, List.nil_append] at hadded ⊢
      exact hadded
    · rw [heq]
      exact h.calling
    · rw [heq]
      exact h.batch

/-- `cancel` in the thread of the loop. -/
theorem Agreed.exec_cancel (h : q.Agreed) (id : TimerId) :
    ∃ q₀ history, q.exec (.cancel id) = .ok { q₀ with history := history } ∧
      { q₀ with history := history }.Agreed ∧
      history = q.history ++ (if id ∈ q.issued then [TimerEvent.cancelled id] else []) ∧
      ((id ∈ q.activeTimers ∧ ∃ t, q.heap id.timer = some t ∧ t.sequence = id.sequence ∧
          q₀ = { q with
            timers := q.timers.erase ⟨t.expiration, id.timer⟩
            heap := Function.update q.heap id.timer none
            activeTimers := q.activeTimers.erase id }) ∨
        (id ∉ q.activeTimers ∧ q.callingExpiredTimers = true ∧
          q₀ = { q with cancelingTimers := q.cancelingTimers.insert id }) ∨
        (id ∉ q.activeTimers ∧ q.callingExpiredTimers = false ∧ q₀ = q)) := by
  obtain ⟨q₀, hok, htables, hcases⟩ := h.tables.cancelInLoop id
  have hsame : q₀.batch = q.batch ∧ q₀.pendingTimers = q.pendingTimers ∧
      q₀.callingExpiredTimers = q.callingExpiredTimers ∧ q₀.history = q.history := by
    rcases hcases with ⟨_, t, _, _, rfl⟩ | ⟨_, _, rfl⟩ | ⟨_, _, rfl⟩ <;> exact ⟨rfl, rfl, rfl, rfl⟩
  obtain ⟨hbatch, hpending, hcalling, hhistory⟩ := hsame
  refine ⟨q₀, _, bind_eq_ok.mpr ⟨q₀, hok, rfl⟩, ⟨?_, ?_, ?_⟩, by rw [hhistory], hcases⟩
  · unfold expiredTimers at htables ⊢
    simp only [hbatch, hpending]
    exact htables.congr rfl rfl rfl
  · exact hcalling.trans (h.calling.trans (congrArg _ hbatch.symm))
  · intro b hb
    exact h.batch b (hbatch ▸ hb)

/-- `handleRead` up to its first callback. -/
theorem Agreed.exec_handleRead {now : ℤ} (h : q.Agreed)
    (henabled : q.mayStep (.handleRead now)) :
    ∃ q' active expired, q.exec (.handleRead now) = .ok q' ∧ q'.Agreed ∧
      expired = q.timers.below ⟨now, UINTPTR_MAX⟩ ∧
      q' = { q.readTimerfd with
        timers := q.timers.above ⟨now, UINTPTR_MAX⟩
        activeTimers := active
        callingExpiredTimers := true
        cancelingTimers := .empty
        batch := some ⟨now, expired, expired, false⟩ } ∧
      (∀ e ∈ q'.timers, now < e.expiration) ∧ ∀ e ∈ expired, e.expiration ≤ now := by
  have hbatch : q.batch = none := Option.isNone_iff_eq_none.mp henabled
  have htables := h.tables
  rw [expiredTimers_of_none hbatch, List.nil_append] at htables
  have hread : Tables q.readTimerfd q.pendingTimers := htables.congr rfl rfl rfl
  obtain ⟨active, hok, hcut, hlater, hearlier⟩ := hread.getExpired now
  refine ⟨_, active, _, bind_eq_ok.mpr ⟨_, hok, rfl⟩, ⟨?_, rfl, ?_⟩, rfl, rfl, hlater, hearlier⟩
  · exact hcut.congr rfl rfl rfl
  · intro b hb
    obtain rfl := Option.some.inj hb
    exact List.suffix_rfl

/-- A test of the batch in progress that succeeds finds one. -/
theorem exists_batch {p : Batch → Bool} (h : q.batch.any p = true) :
    ∃ b, q.batch = some b ∧ p b = true := by
  cases hb : q.batch with
  | none =>
    rw [hb] at h
    cases h
  | some b =>
    rw [hb] at h
    exact ⟨b, rfl, h⟩

/-- The call of the next `run()`. -/
theorem Agreed.exec_runTimer (h : q.Agreed) (henabled : q.mayStep .runTimer) :
    ∃ q' b entry rest t, q.exec .runTimer = .ok q' ∧ q'.Agreed ∧ q.batch = some b ∧
      b.rest = entry :: rest ∧ q.heap entry.timer = some t ∧
      q' = { q with
        batch := some ⟨b.now, b.expired, rest, true⟩
        history := q.history ++ [.started ⟨entry.timer, t.sequence⟩] } := by
  obtain ⟨b, hb, hnext⟩ := exists_batch henabled
  obtain ⟨now, expired, all, inCallback⟩ := b
  cases all with
  | nil => simp at hnext
  | cons entry rest =>
    have hsuffix := h.batch _ hb
    have htables := h.tables
    have hexpired : q.expiredTimers = expired.map Entry.timer := expiredTimers_of_some hb
    have hmem : entry.timer ∈ q.expiredTimers ++ q.pendingTimers := by
      rw [hexpired]
      exact List.mem_append_left _ (List.mem_map_of_mem (hsuffix.subset List.mem_cons_self))
    obtain ⟨t, ht⟩ := htables.allocated _ hmem
    refine ⟨_, _, entry, rest, t, ?_, ⟨?_, ?_, ?_⟩, hb, rfl, ht, rfl⟩
    · simp only [exec, hb]
      exact bind_eq_ok.mpr ⟨t, deref_of_some ht, rfl⟩
    · rw [hexpired] at htables
      exact htables.congr rfl rfl rfl
    · have hcalling := h.calling
      rw [hb] at hcalling
      exact hcalling
    · intro b hb'
      obtain rfl := Option.some.inj hb'
      exact (List.suffix_cons ..).trans hsuffix

/-- The queue after the end of `reset`. -/
def rearmed (q : TimerQueue) (clock : ℤ) : TimerQueue :=
  match q.timers.first? with
  | none => q
  | some e => if 0 < e.expiration then q.resetTimerfd e.expiration clock else q

/-- The end of `reset` finds the expiration of the earliest timer in its entry. -/
theorem Tables.rearm {outside : List ℕ} (h : Tables q outside) (clock : ℤ) :
    q.rearm clock = .ok (q.rearmed clock) := by
  unfold TimerQueue.rearm rearmed
  cases he : q.timers.first? with
  | none => rfl
  | some e =>
    obtain ⟨t, ht, hexpiration⟩ := h.scheduled e (OrderedSet.le_of_first? he).1
    refine bind_eq_ok.mpr ⟨t, deref_of_some ht, ?_⟩
    rw [hexpiration]
    simp only
    split <;> rfl

/-- The end of `reset` changes the timerfd only. -/
theorem rearmed_eq (q : TimerQueue) (clock : ℤ) :
    ∃ timerfd lastSettime, q.rearmed clock = { q with
      timerfd := timerfd, lastSettime := lastSettime } := by
  unfold rearmed
  split
  · exact ⟨q.timerfd, q.lastSettime, rfl⟩
  · split
    · exact ⟨_, _, rfl⟩
    · exact ⟨q.timerfd, q.lastSettime, rfl⟩

/-- The end of `handleRead`. -/
theorem Agreed.exec_reset {clock : ℤ} (h : q.Agreed) (henabled : q.mayStep (.reset clock)) :
    ∃ q' q₀ b timers active, q.exec (.reset clock) = .ok q' ∧ q'.Agreed ∧ q.batch = some b ∧
      q₀ = { q with
        callingExpiredTimers := false
        heap := q.restartedHeap b.now q.expiredTimers
        timers := timers
        activeTimers := active } ∧
      q' = { q₀.rearmed clock with batch := none } ∧
      ∀ e, e ∈ timers ↔ e ∈ q.timers ∨ e.timer ∈ q.expiredTimers ∧
        ∃ t, q.heap e.timer = some t ∧ q.Restarts e.timer t ∧
          e.expiration = b.now + t.interval := by
  obtain ⟨b, hb, _⟩ := exists_batch henabled
  have htables := h.tables
  rw [expiredTimers_of_some hb] at htables ⊢
  have hidle : Tables { q with callingExpiredTimers := false }
      (b.expired.map Entry.timer ++ q.pendingTimers) := htables.congr rfl rfl rfl
  obtain ⟨timers, active, hok, hrestarted, htimers⟩ := hidle.restartTimers b.now
  generalize hq₀ : ({ q with
    callingExpiredTimers := false
    heap := q.restartedHeap b.now (b.expired.map Entry.timer)
    timers := timers
    activeTimers := active } : TimerQueue) = q₀
  change restartTimers _ b.now b.expired = .ok { q with
    callingExpiredTimers := false
    heap := q.restartedHeap b.now (b.expired.map Entry.timer)
    timers := timers
    activeTimers := active } at hok
  change Tables { q with
    callingExpiredTimers := false
    heap := q.restartedHeap b.now (b.expired.map Entry.timer)
    timers := timers
    activeTimers := active } _ at hrestarted
  rw [hq₀] at hok hrestarted
  obtain ⟨timerfd, lastSettime, heq⟩ := q₀.rearmed_eq clock
  refine ⟨_, q₀, b, timers, active, ?_, ⟨?_, ?_, ?_⟩, hb, hq₀.symm, rfl, htimers⟩
  · simp only [exec]
    split
    · rename_i b' hb'
      obtain rfl := Option.some.inj (hb.symm.trans hb')
      exact bind_eq_ok.mpr ⟨_, bind_eq_ok.mpr ⟨_, hok, hrestarted.rearm clock⟩, rfl⟩
    · rename_i hb'
      cases hb.symm.trans hb'
  · rw [heq]
    subst hq₀
    exact hrestarted.congr rfl rfl rfl
  · rw [heq]
    subst hq₀
    rfl
  · intro b' hb'
    cases hb'

/-- It holds in a new queue. -/
theorem Agreed.of_init (h : timerSystem.init q) : q.Agreed := by
  obtain ⟨hheap, htimers, hactive, hcalling, _, _, hbatch, hpending, _⟩ := h
  have hno {e : Entry} : e ∉ q.timers := by
    rw [htimers]
    exact OrderedSet.not_mem_empty
  have hexpired : q.expiredTimers = [] := expiredTimers_of_none hbatch
  refine ⟨⟨?_, ?_, fun e he => absurd he hno, fun id => ?_, ?_, fun timer t ht => ?_⟩, ?_,
    fun b hb => ?_⟩
  · rw [hexpired, hpending, htimers]
    exact List.nodup_nil
  · rw [hexpired, hpending]
    exact fun timer hmem => absurd hmem List.not_mem_nil
  · rw [hactive]
    refine iff_of_false OrderedSet.not_mem_empty ?_
    rintro ⟨_, _, _, hmem⟩
    exact hno hmem
  · rw [htimers, hactive]
    rfl
  · rw [hheap] at ht
    cases ht
  · rw [hcalling, hbatch]
    rfl
  · rw [hbatch] at hb
    cases hb

/-- It holds in a new queue. -/
theorem Consistent.of_init (h : timerSystem.init q) : q.Consistent := by
  have hagreed := Agreed.of_init h
  obtain ⟨_, _, _, _, _, _, hbatch, _⟩ := h
  refine ⟨hagreed.tables, hagreed.calling, fun b hb => ?_⟩
  rw [hbatch] at hb
  cases hb

/-! ### What a step does -/

/-- The heap after a step. -/
def heapAfter (q : TimerQueue) : TimerAction → ℕ → Option Timer
  | .addTimer timer expiration interval repeats _ =>
    Function.update q.heap timer (some (q.created expiration interval repeats))
  | .foreignAddTimer timer expiration interval repeats =>
    Function.update q.heap timer (some (q.created expiration interval repeats))
  | .cancel id => if id ∈ q.activeTimers then Function.update q.heap id.timer none else q.heap
  | .reset _ =>
    match q.batch with
    | some b => q.restartedHeap b.now q.expiredTimers
    | none => q.heap
  | _ => q.heap

/-- A cancel frees the timer if it is active. -/
theorem heapAfter_cancel (id : TimerId) : q.heapAfter (.cancel id) =
    if id ∈ q.activeTimers then Function.update q.heap id.timer none else q.heap := rfl

/-- A `reset` restarts timers of the batch. -/
theorem heapAfter_reset {b : Batch} (hb : q.batch = some b) (clock : ℤ) :
    q.heapAfter (.reset clock) = q.restartedHeap b.now q.expiredTimers := by
  simp only [heapAfter, hb]

/-- An entry of `timers_` after a step. -/
def Entered (q : TimerQueue) (e : Entry) : TimerAction → Prop
  | .addTimer timer expiration _ _ _ => e ∈ q.timers ∨ e = ⟨expiration, timer⟩
  | .runPending _ => e ∈ q.timers ∨ q.pendingTimers.head? = some e.timer ∧
    ∃ t, q.heap e.timer = some t ∧ t.expiration = e.expiration
  | .cancel id => e ∈ q.timers ∧ ¬(id ∈ q.activeTimers ∧ e.timer = id.timer)
  | .handleRead now => e ∈ q.timers ∧ now < e.expiration
  | .reset _ => e ∈ q.timers ∨ ∃ b ∈ q.batch, e.timer ∈ q.expiredTimers ∧
    ∃ t, q.heap e.timer = some t ∧ q.Restarts e.timer t ∧ e.expiration = b.now + t.interval
  | _ => e ∈ q.timers

/-- The `handleRead` in progress after a step. -/
def batchAfter (q : TimerQueue) : TimerAction → Option Batch
  | .handleRead now => some ⟨now, q.timers.below ⟨now, UINTPTR_MAX⟩,
    q.timers.below ⟨now, UINTPTR_MAX⟩, false⟩
  | .runTimer => q.batch.map fun b => { b with rest := b.rest.tail, inCallback := true }
  | .callbackReturns => q.batch.map fun b => { b with inCallback := false }
  | .reset _ => none
  | _ => q.batch

/-- An id in `cancelingTimers_` after a step. -/
def Noted (q : TimerQueue) (id : TimerId) : TimerAction → Prop
  | .cancel id' => id ∈ q.cancelingTimers ∨
    id = id' ∧ id ∉ q.activeTimers ∧ q.batch.isSome = true
  | .handleRead _ => False
  | _ => id ∈ q.cancelingTimers

/-- The timers of the queued calls after a step. -/
def pendingAfter (q : TimerQueue) : TimerAction → List ℕ
  | .foreignAddTimer timer _ _ _ => q.pendingTimers ++ [timer]
  | .runPending _ => q.pendingTimers.tail
  | _ => q.pendingTimers

/-- The id of the timer that a step creates. -/
def newId (q : TimerQueue) : TimerAction → Option TimerId
  | .addTimer timer _ _ _ _ => some ⟨timer, q.numCreated + 1⟩
  | .foreignAddTimer timer _ _ _ => some ⟨timer, q.numCreated + 1⟩
  | _ => none

/-- What a step adds to the history. -/
def Happens (q : TimerQueue) : TimerAction → List TimerEvent → Prop
  | .cancel id, events => events = if id ∈ q.issued then [.cancelled id] else []
  | .runTimer, events => ∃ b ∈ q.batch, ∃ entry t, b.rest.head? = some entry ∧
    q.heap entry.timer = some t ∧ events = [.started ⟨entry.timer, t.sequence⟩]
  | _, events => events = []

/-- Everything a step does to the timers. -/
structure Stepped (q : TimerQueue) (a : TimerAction) (q' : TimerQueue) : Prop where
  heap : q'.heap = q.heapAfter a
  timers : ∀ e, e ∈ q'.timers ↔ q.Entered e a
  batch : q'.batch = q.batchAfter a
  canceling : ∀ id, id ∈ q'.cancelingTimers ↔ q.Noted id a
  pending : q'.pendingTimers = q.pendingAfter a
  numCreated : q'.numCreated = q.numCreated + (q.newId a).toList.length
  issued : q'.issued = q.issued ++ (q.newId a).toList
  history : ∃ events, q.Happens a events ∧ q'.history = q.history ++ events

/-- Every step succeeds, and the tables agree after it. -/
theorem Agreed.step {a : TimerAction} (h : q.Agreed) (hmay : q.mayStep a) :
    ∃ q', q.exec a = .ok q' ∧ q'.Agreed ∧ q.Stepped a q' := by
  have hnothing : q.history = q.history ++ [] := (List.append_nil _).symm
  have hissued : q.issued = q.issued ++ [] := (List.append_nil _).symm
  cases a with
  | expire =>
    have htables := h.tables
    exact ⟨_, rfl, ⟨htables.congr rfl rfl rfl, h.calling, h.batch⟩,
      rfl, fun _ => Iff.rfl, rfl, fun _ => Iff.rfl, rfl, rfl, hissued, [], rfl, hnothing⟩
  | addTimer timer expiration interval repeats now =>
    obtain ⟨q', hok, hagreed, rfl⟩ := h.exec_addTimer hmay.2 expiration now
    obtain ⟨timerfd, lastSettime, heq⟩ := (q.newTimer timer expiration interval repeats).added_eq
      timer (q.created expiration interval repeats) now
    refine ⟨_, hok, hagreed, ?_⟩
    rw [heq]
    refine ⟨rfl, fun e => ?_, rfl, fun _ => Iff.rfl, rfl, rfl, rfl, [], rfl, hnothing⟩
    exact OrderedSet.mem_insert.trans or_comm
  | foreignAddTimer timer expiration interval repeats =>
    obtain ⟨q', hok, hagreed, rfl⟩ := h.exec_foreignAddTimer hmay
    exact ⟨_, hok, hagreed, rfl, fun _ => Iff.rfl, rfl, fun _ => Iff.rfl, rfl, rfl, rfl, [], rfl,
      hnothing⟩
  | runPending now =>
    obtain ⟨q', timer, rest, t, hok, hagreed, hpending, ht, rfl⟩ := h.exec_runPending hmay
    obtain ⟨timerfd, lastSettime, heq⟩ := { q with pendingTimers := rest }.added_eq timer t now
    refine ⟨_, hok, hagreed, ?_⟩
    rw [heq]
    refine ⟨rfl, fun e => ?_, rfl, fun _ => Iff.rfl, ?_, rfl, hissued, [], rfl, hnothing⟩
    · refine OrderedSet.mem_insert.trans (or_comm.trans (or_congr_right ?_))
      rw [hpending, List.head?_cons]
      constructor
      · rintro rfl
        exact ⟨rfl, t, ht, rfl⟩
      · rintro ⟨htimer, t', ht', hexpiration⟩
        obtain rfl := Option.some.inj htimer
        obtain rfl := Option.some.inj (ht.symm.trans ht')
        rw [hexpiration]
    · unfold pendingAfter
      rw [hpending]
      rfl
  | cancel id =>
    obtain ⟨q₀, history, hok, hagreed, hhistory, hcases⟩ := h.exec_cancel id
    refine ⟨_, hok, hagreed, ?_⟩
    rcases hcases with ⟨hid, t, ht, hsequence, rfl⟩ | ⟨hid, hcalling, rfl⟩ | ⟨hid, hcalling, hsame⟩
    · refine ⟨(if_pos hid).symm, fun e => ?_, rfl, fun id' => ?_, rfl, rfl, hissued, _, rfl,
        hhistory⟩
      · refine OrderedSet.mem_erase.trans (and_comm.trans (and_congr_right fun he => ?_))
        refine not_congr ⟨fun heq => ⟨hid, congrArg Entry.timer heq⟩, fun heq => ?_⟩
        have hentry := h.tables.entry_unique he (heq.2 ▸ ht)
        rw [hentry, heq.2]
      · exact (or_iff_left fun hnot => hnot.2.1 (hnot.1 ▸ hid)).symm
    · have hbatch : q.batch.isSome = true := h.calling ▸ hcalling
      refine ⟨(if_neg hid).symm, fun e => ?_, rfl, fun id' => ?_, rfl, rfl, hissued, _, rfl,
        hhistory⟩
      · exact (and_iff_left fun hno => hid hno.1).symm
      · refine OrderedSet.mem_insert.trans (or_comm.trans (or_congr_right ?_))
        exact ⟨fun heq => ⟨heq, heq ▸ hid, hbatch⟩, And.left⟩
    · have hbatch : q.batch.isSome ≠ true := by
        rw [← h.calling, hcalling]
        decide
      rw [hsame]
      refine ⟨(if_neg hid).symm, fun e => ?_, rfl, fun id' => ?_, rfl, rfl, hissued, _, rfl,
        hhistory⟩
      · exact (and_iff_left fun hno => hid hno.1).symm
      · exact (or_iff_left fun hno => hbatch hno.2.2).symm
  | handleRead now =>
    obtain ⟨q', active, expired, hok, hagreed, rfl, rfl, hlater, hearlier⟩ :=
      h.exec_handleRead hmay
    refine ⟨_, hok, hagreed, rfl, fun e => ?_, rfl, fun id => ?_, rfl, rfl, hissued, [], rfl,
      hnothing⟩
    · have hmem := OrderedSet.mem_iff_below_or_above (s := q.timers) (x := ⟨now, UINTPTR_MAX⟩)
        (y := e)
      refine ⟨fun he => ⟨hmem.mpr (Or.inr he), hlater e he⟩, fun he => ?_⟩
      refine (hmem.mp he.1).resolve_left fun hbelow => ?_
      exact absurd (hearlier e hbelow) (not_le.mpr he.2)
    · exact iff_of_false OrderedSet.not_mem_empty not_false
  | runTimer =>
    obtain ⟨q', b, entry, rest, t, hok, hagreed, hb, hrest, ht, rfl⟩ := h.exec_runTimer hmay
    refine ⟨_, hok, hagreed, rfl, fun _ => Iff.rfl, ?_, fun _ => Iff.rfl, rfl, rfl, hissued, _,
      ⟨b, hb, entry, t, ?_, ht, rfl⟩, rfl⟩
    · unfold batchAfter
      rw [hb, Option.map_some, hrest]
      rfl
    · rw [hrest]
      rfl
  | callbackReturns =>
    obtain ⟨b, hb, _⟩ := exists_batch hmay
    have htables := h.tables
    have hcalling := h.calling
    unfold expiredTimers at htables
    rw [hb] at htables hcalling
    refine ⟨_, rfl, ⟨?_, ?_, fun b' hb' => ?_⟩, rfl, fun _ => Iff.rfl, rfl, fun _ => Iff.rfl, rfl,
      rfl, hissued, [], rfl, hnothing⟩
    · unfold expiredTimers
      simp only [hb, Option.map_some]
      exact htables.congr rfl rfl rfl
    · simp only [hb, Option.map_some]
      exact hcalling
    · simp only [hb, Option.map_some] at hb'
      obtain rfl := Option.some.inj hb'
      exact h.batch b hb
  | reset clock =>
    obtain ⟨q', q₀, b, timers, active, hok, hagreed, hb, rfl, rfl, htimers⟩ := h.exec_reset hmay
    refine ⟨_, hok, hagreed, ?_⟩
    obtain ⟨timerfd, lastSettime, heq⟩ := rearmed_eq { q with
      callingExpiredTimers := false
      heap := q.restartedHeap b.now q.expiredTimers
      timers := timers
      activeTimers := active } clock
    rw [heq]
    refine ⟨?_, fun e => (htimers e).trans (or_congr_right ?_), rfl, fun _ => Iff.rfl, rfl, rfl,
      hissued, [], rfl, hnothing⟩
    · exact (heapAfter_reset hb clock).symm
    · rw [hb]
      exact ⟨fun hin => ⟨b, rfl, hin⟩, fun ⟨b', hb', hin⟩ => Option.some.inj hb' ▸ hin⟩

/-- A step that was carried out leaves the tables in agreement. -/
theorem Agreed.of_step {a : TimerAction} (h : q.Agreed) (hmay : q.mayStep a)
    (hexec : q.exec a = .ok q') : q'.Agreed ∧ q.Stepped a q' := by
  obtain ⟨q₁, hok, hstepped⟩ := h.step hmay
  rw [hexec] at hok
  cases hok
  exact hstepped

/-- A new timer takes the next number. -/
theorem sequence_of_newId {a : TimerAction} {id : TimerId} (h : id ∈ q.newId a) :
    id.sequence = q.numCreated + 1 := by
  cases a with
  | addTimer => exact Option.some.inj h ▸ rfl
  | foreignAddTimer => exact Option.some.inj h ▸ rfl
  | _ => cases h

/-- A timer on the heap after a step is new, or was there with the same number. -/
theorem Stepped.exists_of_heap {a : TimerAction} (h : q.Stepped a q') {timer : ℕ} {t : Timer}
    (ht : q'.heap timer = some t) : (⟨timer, t.sequence⟩ : TimerId) ∈ q.newId a ∨
      (∀ id ∈ q.newId a, id.timer ≠ timer) ∧
        ∃ t', q.heap timer = some t' ∧ t.sequence = t'.sequence ∧ t.repeats = t'.repeats := by
  have hnew {timer' : ℕ} {t' : Timer}
      (ht : Function.update q.heap timer' (some t') timer = some t) :
      timer' = timer ∧ t' = t ∨ timer' ≠ timer ∧ q.heap timer = some t := by
    by_cases heq : timer = timer'
    · subst heq
      rw [Function.update_self] at ht
      exact Or.inl ⟨rfl, Option.some.inj ht⟩
    · rw [Function.update_of_ne heq] at ht
      exact Or.inr ⟨Ne.symm heq, ht⟩
  rw [h.heap] at ht
  cases a with
  | addTimer timer' expiration interval repeats =>
    rcases hnew ht with ⟨rfl, rfl⟩ | ⟨hne, ht'⟩
    · exact Or.inl rfl
    · exact Or.inr ⟨fun id hid => Option.some.inj hid ▸ hne, t, ht', rfl, rfl⟩
  | foreignAddTimer timer' expiration interval repeats =>
    rcases hnew ht with ⟨rfl, rfl⟩ | ⟨hne, ht'⟩
    · exact Or.inl rfl
    · exact Or.inr ⟨fun id hid => Option.some.inj hid ▸ hne, t, ht', rfl, rfl⟩
  | cancel id =>
    refine Or.inr ⟨fun id hid => (by cases hid), ?_⟩
    rw [heapAfter_cancel] at ht
    split at ht
    · by_cases heq : timer = id.timer
      · subst heq
        rw [Function.update_self] at ht
        cases ht
      · rw [Function.update_of_ne heq] at ht
        exact ⟨t, ht, rfl, rfl⟩
    · exact ⟨t, ht, rfl, rfl⟩
  | reset =>
    refine Or.inr ⟨fun id hid => (by cases hid), ?_⟩
    cases hb : q.batch with
    | none =>
      simp only [heapAfter, hb] at ht
      exact ⟨t, ht, rfl, rfl⟩
    | some b =>
      rw [heapAfter_reset hb] at ht
      exact exists_of_restartedHeap ht
  | _ => exact Or.inr ⟨fun id hid => (by cases hid), t, ht, rfl, rfl⟩

/-- The timers of the batch after a step. -/
def expiredAfter (q : TimerQueue) : TimerAction → List ℕ
  | .handleRead now => (q.timers.below ⟨now, UINTPTR_MAX⟩).map Entry.timer
  | .reset _ => []
  | _ => q.expiredTimers

/-- The batch keeps its timers until `reset` returns. -/
theorem Stepped.expiredTimers {a : TimerAction} (h : q.Stepped a q') :
    q'.expiredTimers = q.expiredAfter a := by
  have hbatch := h.batch
  have hsame {b : Batch → Batch} (hmap : q'.batch = q.batch.map b)
      (hb : ∀ x, (b x).expired = x.expired) : q'.expiredTimers = q.expiredTimers := by
    cases hq : q.batch with
    | none =>
      rw [hq] at hmap
      exact (expiredTimers_of_none hmap).trans (expiredTimers_of_none hq).symm
    | some x =>
      rw [hq] at hmap
      rw [expiredTimers_of_some hmap, expiredTimers_of_some hq, hb]
  cases a with
  | handleRead now => exact expiredTimers_of_some hbatch
  | reset clock => exact expiredTimers_of_none hbatch
  | runTimer => exact hsame hbatch fun _ => rfl
  | callbackReturns => exact hsame hbatch fun _ => rfl
  | _ => exact hsame (hbatch.trans (congrFun Option.map_id.symm q.batch)) fun _ => rfl

/-- The clock reading of a `handleRead` in progress does not change. -/
theorem now_of_step {a : TimerAction} (h : q.Stepped a q') {b : Batch} (hb : b ∈ q'.batch) :
    a = .handleRead b.now ∨ ∃ b' ∈ q.batch, b'.now = b.now := by
  rw [h.batch] at hb
  cases a with
  | handleRead now =>
    obtain rfl := Option.some.inj hb
    exact Or.inl rfl
  | runTimer =>
    obtain ⟨b', hb', rfl⟩ := Option.map_eq_some_iff.mp hb
    exact Or.inr ⟨b', hb', rfl⟩
  | callbackReturns =>
    obtain ⟨b', hb', rfl⟩ := Option.map_eq_some_iff.mp hb
    exact Or.inr ⟨b', hb', rfl⟩
  | reset => cases hb
  | _ => exact Or.inr ⟨b, hb, rfl⟩

/-- Positive clock readings keep the queue consistent. -/
theorem Consistent.of_step {a : TimerAction} (h : q.Consistent) (henabled : q.enabled a)
    (hexec : q.exec a = .ok q') : q'.Consistent := by
  obtain ⟨hagreed, hstepped⟩ := h.agreed.of_step (mayStep_of_enabled henabled) hexec
  refine ⟨hagreed.tables, hagreed.calling, fun b hb => ⟨hagreed.batch b hb, ?_⟩⟩
  rcases now_of_step hstepped hb with rfl | ⟨b', hb', hnow⟩
  · exact henabled.2
  · rw [← hnow]
    exact (h.batch b' hb').2

end TimerQueue

/-- All runs of a timer queue from its construction on, whatever the clock reads. -/
def timerRuns : System TimerQueue TimerAction Failure :=
  { timerSystem with enabled := TimerQueue.mayStep }

instance (q : TimerQueue) (a : TimerAction) : Decidable (timerRuns.enabled q a) :=
  inferInstanceAs (Decidable (q.mayStep a))

namespace TimerQueue

/-- The tables agree in every reachable state. -/
theorem Agreed.of_reachable {q : TimerQueue} (h : timerRuns.Reachable q) : q.Agreed :=
  h.invariant Agreed.of_init fun hagreed hmay hexec => (hagreed.of_step hmay hexec).1

/-- No step from a state in which the tables agree fails. -/
theorem Agreed.safe {q : TimerQueue} (h : q.Agreed) : timerRuns.Safe q := by
  intro a hmay
  obtain ⟨q', hok, _⟩ := h.step hmay
  exact ⟨q', hok⟩

end TimerQueue

end Dalin.Net
