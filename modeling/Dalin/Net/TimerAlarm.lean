import Dalin.Net.TimerRun

/-!
# The timerfd of the timer queue

A timerfd expires once and is then disarmed. `TimerQueue` sets it again when a new
timer becomes the earliest one and at the end of `handleRead`, unless the earliest
expiration is not a valid timestamp. This file shows that no timer is stranded:
between operations, a queue with timers has a timerfd that is armed or readable.
-/

set_option autoImplicit false

namespace Dalin.Net

open Transition

/-! ### The relative delay -/

/-- The delay of `howMuchTimeFromNow` in microseconds. -/
theorem howMuchTimeFromNow_eq (expiration now : ℤ) :
    ∃ microseconds, microseconds = max 100 (expiration - now) ∧
      howMuchTimeFromNow expiration now =
        ⟨microseconds / 1000000, microseconds % 1000000 * 1000⟩ := by
  refine ⟨if expiration - now < 100 then 100 else expiration - now, ?_, ?_⟩
  · split <;> omega
  · have hpos : 0 ≤ if expiration - now < 100 then 100 else expiration - now := by split <;> omega
    unfold howMuchTimeFromNow
    simp only [kMicroSecondsPerSecond]
    rw [Int.tdiv_eq_ediv_of_nonneg hpos, Int.tmod_eq_emod_of_nonneg hpos]
    rfl

/-- The delay is not zero, normalised, and not longer than it has to be. -/
theorem howMuchTimeFromNow_spec (expiration now : ℤ) :
    howMuchTimeFromNow expiration now ≠ ⟨0, 0⟩ ∧
      (howMuchTimeFromNow expiration now).Normalised ∧
      (howMuchTimeFromNow expiration now).nanoseconds = 1000 * max 100 (expiration - now) := by
  obtain ⟨microseconds, hmax, heq⟩ := howMuchTimeFromNow_eq expiration now
  have hpos : 100 ≤ microseconds := by omega
  rw [heq, ← hmax]
  refine ⟨fun hzero => ?_, ⟨?_, ?_, ?_⟩, ?_⟩
  · obtain ⟨hsec, hnsec⟩ := (Timespec.mk.injEq ..).mp hzero
    omega
  · change 0 ≤ microseconds / 1000000
    omega
  · change 0 ≤ microseconds % 1000000 * 1000
    omega
  · change microseconds % 1000000 * 1000 < 1000000000
    omega
  · change microseconds / 1000000 * 1000000000 + microseconds % 1000000 * 1000 = _
    omega

/-- A call of `timerfd_settime` that arms the timerfd in time for the earliest timer. -/
def Settime.Timely (s : Settime) : Prop :=
  s.delay ≠ ⟨0, 0⟩ ∧ s.delay.Normalised ∧ ∃ e, s.timers.first? = some e ∧
    s.delay.nanoseconds ≤ 1000 * max 100 (e.expiration - s.now)

namespace TimerQueue

variable {q q' : TimerQueue}

/-- No timer is stranded. During `handleRead` the timerfd may be disarmed, but not while a timer
is queued whose expiration would keep `reset` from setting it. -/
structure Alarmed (q : TimerQueue) : Prop where
  armed : ∀ e ∈ q.timers, q.batch = none ∨ e.expiration ≤ 0 → q.timerfd ≠ .disarmed
  wasSet : q.timerfd ≠ .disarmed → ∃ s, q.lastSettime = some s
  timely : ∀ s ∈ q.lastSettime, s.Timely

/-- `resetTimerfd` arms the timerfd. -/
theorem resetTimerfd_armed (q : TimerQueue) (expiration now : ℤ) :
    (q.resetTimerfd expiration now).timerfd ≠ .disarmed := by
  obtain ⟨hzero, hnormalised, _⟩ := howMuchTimeFromNow_spec expiration now
  unfold resetTimerfd settime
  simp only [hnormalised, hzero, not_true_eq_false, if_false]
  decide

/-- `resetTimerfd` for the earliest timer arms the timerfd in time. -/
theorem Alarmed.of_resetTimerfd {e : Entry} (now : ℤ) (h : q.timers.first? = some e) :
    (q.resetTimerfd e.expiration now).Alarmed := by
  obtain ⟨hzero, hnormalised, hnanoseconds⟩ := howMuchTimeFromNow_spec e.expiration now
  refine ⟨fun _ _ _ => q.resetTimerfd_armed _ _, fun _ => ⟨_, rfl⟩, fun s hs => ?_⟩
  · obtain rfl := Option.some.inj hs
    exact ⟨hzero, hnormalised, e, h, hnanoseconds.le⟩

/-- The entries are ordered by their expirations first. -/
theorem expiration_le {e e' : Entry} (h : e ≤ e') : e.expiration ≤ e'.expiration := by
  rcases Prod.Lex.le_iff.mp h with hlt | ⟨heq, _⟩
  · exact hlt.le
  · exact heq.le

/-- The earliest timer is first in the tables when it is added. -/
theorem first?_of_earliest {timer : ℕ} {t : Timer} (h : q.earliest t.expiration = true) :
    (q.withTimer timer t).timers.first? = some ⟨t.expiration, timer⟩ := by
  refine OrderedSet.first?_insert_of_lt fun e he => ?_
  unfold earliest at h
  split at h
  · rename_i hnone
    exact absurd he (OrderedSet.not_mem_of_first? hnone)
  · rename_i e₀ hfirst
    have hlt := of_decide_eq_true h
    have hle := expiration_le ((OrderedSet.le_of_first? hfirst).2 e he)
    exact Prod.Lex.lt_iff.mpr (Or.inl (hlt.trans_le hle))

/-- A timer that is not the earliest comes after another one. -/
theorem exists_of_not_earliest {expiration : ℤ} (h : q.earliest expiration = false) :
    ∃ e ∈ q.timers, e.expiration ≤ expiration := by
  unfold earliest at h
  split at h
  · cases h
  · rename_i e hfirst
    exact ⟨e, (OrderedSet.le_of_first? hfirst).1, not_lt.mp (of_decide_eq_false h)⟩

/-- `addTimerInLoop` sets the timerfd if nothing else does. -/
theorem Alarmed.added (h : q.Alarmed) (timer : ℕ) (t : Timer) (now : ℤ) :
    (q.added timer t now).Alarmed := by
  unfold TimerQueue.added
  split
  · rename_i hearliest
    exact Alarmed.of_resetTimerfd (e := ⟨t.expiration, timer⟩) now (first?_of_earliest hearliest)
  · rename_i hnot
    obtain ⟨e₀, he₀, hle⟩ := exists_of_not_earliest (Bool.eq_false_iff.mpr hnot)
    refine ⟨fun e he hcase => ?_, h.wasSet, h.timely⟩
    rcases OrderedSet.mem_insert.mp he with rfl | he
    · exact h.armed e₀ he₀ (hcase.imp_right fun hnonpos => hle.trans hnonpos)
    · exact h.armed e he hcase

/-- A queue with fewer timers and the same timerfd strands none. -/
theorem Alarmed.of_subset (h : q.Alarmed) (htimers : ∀ e ∈ q'.timers, e ∈ q.timers)
    (hbatch : q'.batch = none → q.batch = none) (htimerfd : q'.timerfd = q.timerfd)
    (hset : q'.lastSettime = q.lastSettime) : q'.Alarmed := by
  refine ⟨fun e he hcase => ?_, fun hnot => ?_, fun s hs => ?_⟩
  · rw [htimerfd]
    exact h.armed e (htimers e he) (hcase.imp_left hbatch)
  · rw [hset]
    exact h.wasSet (htimerfd ▸ hnot)
  · exact h.timely s (hset ▸ hs)

/-- A read of the timerfd does not set it. -/
theorem wasSet_of_readTimerfd (h : q.readTimerfd.timerfd ≠ .disarmed) : q.timerfd ≠ .disarmed := by
  intro hdisarmed
  refine h ?_
  unfold readTimerfd
  rw [hdisarmed]
  rfl

/-- Every step keeps timers from being stranded. -/
theorem Alarmed.step {a : TimerAction} (h : q.Alarmed) (hconsistent : q.Consistent)
    (henabled : q.enabled a) (hexec : q.exec a = .ok q') : q'.Alarmed := by
  have hmay := mayStep_of_enabled henabled
  cases a with
  | expire =>
    cases hexec
    refine ⟨fun _ _ _ hdisarmed => (by cases hdisarmed), fun _ => h.wasSet ?_, h.timely⟩
    change q.timerfd = .armed at henabled
    rw [henabled]
    decide
  | addTimer timer expiration interval repeats now =>
    obtain ⟨q₁, hok, _, rfl⟩ := hconsistent.agreed.exec_addTimer henabled.2.1 expiration now
    rw [hexec] at hok
    cases hok
    have hnew : (q.newTimer timer expiration interval repeats).Alarmed :=
      ⟨h.armed, h.wasSet, h.timely⟩
    have hadded := hnew.added timer (q.created expiration interval repeats) now
    exact ⟨hadded.armed, hadded.wasSet, hadded.timely⟩
  | foreignAddTimer timer expiration interval repeats =>
    cases hexec
    exact ⟨h.armed, h.wasSet, h.timely⟩
  | runPending now =>
    obtain ⟨q₁, timer, rest, t, hok, _, _, _, rfl⟩ := hconsistent.agreed.exec_runPending hmay
    rw [hexec] at hok
    cases hok
    have hrest : { q with pendingTimers := rest }.Alarmed := ⟨h.armed, h.wasSet, h.timely⟩
    exact hrest.added _ _ now
  | cancel target =>
    obtain ⟨q₀, _, hok, _, _, hcases⟩ := hconsistent.agreed.exec_cancel target
    rw [hexec] at hok
    cases hok
    rcases hcases with ⟨_, t, _, _, rfl⟩ | ⟨_, _, rfl⟩ | ⟨_, _, rfl⟩
    · exact h.of_subset (fun e he => (OrderedSet.mem_erase.mp he).2) id rfl rfl
    · exact h.of_subset (fun e he => he) id rfl rfl
    · exact h.of_subset (fun e he => he) id rfl rfl
  | handleRead now =>
    obtain ⟨q₁, _, _, hok, _, _, hq₁, hlater, _⟩ := hconsistent.agreed.exec_handleRead hmay
    rw [hexec] at hok
    cases hok
    have hpos := henabled.2
    subst hq₁
    refine ⟨fun e he hcase => ?_, fun hnot => h.wasSet (wasSet_of_readTimerfd hnot), h.timely⟩
    rcases hcase with hnone | hnonpos
    · cases hnone
    · have hlt := hlater e he
      omega
  | runTimer =>
    obtain ⟨q₁, b, _, _, _, hok, _, hb, _, _, rfl⟩ := hconsistent.agreed.exec_runTimer hmay
    rw [hexec] at hok
    cases hok
    exact h.of_subset (fun e he => he) (fun hnone => by cases hnone) rfl rfl
  | callbackReturns =>
    cases hexec
    refine h.of_subset (fun e he => he) (fun hnone => ?_) rfl rfl
    exact Option.map_eq_none_iff.mp hnone
  | reset clock =>
    obtain ⟨q₁, q₀, b, timers, active, hok, _, hb, hq₀, hq₁, htimers⟩ :=
      hconsistent.agreed.exec_reset hmay
    rw [hexec] at hok
    cases hok
    subst hq₁
    have hpos := (hconsistent.batch b hb).2
    cases hfirst : q₀.timers.first? with
    | none =>
      have heq : q₀.rearmed clock = q₀ := by
        unfold rearmed
        rw [hfirst]
      rw [heq]
      subst hq₀
      exact ⟨fun e he => absurd he (OrderedSet.not_mem_of_first? hfirst), h.wasSet, h.timely⟩
    | some e =>
      by_cases hvalid : 0 < e.expiration
      · have heq : q₀.rearmed clock = q₀.resetTimerfd e.expiration clock := by
          unfold rearmed
          rw [hfirst]
          exact if_pos hvalid
        have halarmed := Alarmed.of_resetTimerfd clock hfirst
        rw [heq]
        exact ⟨fun _ _ _ => q₀.resetTimerfd_armed _ _, halarmed.wasSet, halarmed.timely⟩
      · have heq : q₀.rearmed clock = q₀ := by
          unfold rearmed
          rw [hfirst]
          exact if_neg hvalid
        rw [heq]
        subst hq₀
        have hnonpos := not_lt.mp hvalid
        have hmem : e ∈ q.timers := by
          refine ((htimers e).mp (OrderedSet.le_of_first? hfirst).1).resolve_right ?_
          rintro ⟨_, t, ht, hrestarts, hexpiration⟩
          have hinterval := (hconsistent.tables.heap _ t ht).2 hrestarts.1
          omega
        exact ⟨fun _ _ _ => h.armed e hmem (Or.inr hnonpos), h.wasSet, h.timely⟩

/-- It holds in a new queue. -/
theorem Alarmed.of_init (h : timerSystem.init q) : q.Alarmed := by
  obtain ⟨_, htimers, _, _, htimerfd, hset, _⟩ := h
  refine ⟨fun e he => ?_, fun hnot => absurd htimerfd hnot, fun s hs => ?_⟩
  · rw [htimers] at he
    exact absurd he OrderedSet.not_mem_empty
  · rw [hset] at hs
    cases hs

/-- **Timers are not stranded.** Whenever no `handleRead` is in progress and a timer is queued,
the timerfd is armed or readable, and the delay that `timerfd_settime` was given last was not
zero, was normalised, and was not longer than the time to the earliest timer at that moment, or
than 100 microseconds. -/
theorem timers_not_stranded (h : timerSystem.Reachable q) (hidle : q.batch = none)
    (htimers : ∃ e, e ∈ q.timers) :
    q.timerfd ≠ .disarmed ∧ ∃ s, q.lastSettime = some s ∧ s.Timely := by
  obtain ⟨_, halarmed⟩ : q.Consistent ∧ q.Alarmed := by
    refine h.invariant (I := fun q => q.Consistent ∧ q.Alarmed)
      (fun hinit => ⟨.of_init hinit, .of_init hinit⟩) ?_
    rintro q a q' ⟨hconsistent, halarmed⟩ henabled hexec
    exact ⟨hconsistent.of_step henabled hexec, halarmed.step hconsistent henabled hexec⟩
  obtain ⟨e, he⟩ := htimers
  have harmed := halarmed.armed e he (Or.inl hidle)
  obtain ⟨s, hs⟩ := halarmed.wasSet harmed
  exact ⟨harmed, s, hs, halarmed.timely s hs⟩

/-- A timer queue that was just constructed. -/
def newQueue : TimerQueue :=
  ⟨fun _ => none, 0, .empty, false, .empty, .empty, .disarmed, none, none, [], [], []⟩

/-- Nothing has happened in it. -/
theorem newQueue_init : timerSystem.init newQueue :=
  ⟨rfl, rfl, rfl, rfl, rfl, rfl, rfl, rfl, rfl, rfl⟩

/-- A repeating timer runs, and adds a timer in the past. -/
def repeatingTimer : List TimerAction :=
  [.addTimer 1 1000 50 true 10, .expire, .handleRead 1000, .runTimer,
    .addTimer 2 (-7) 0 false 1001, .callbackReturns, .reset 1002]

/-- Both timers wait, and the timerfd is set. -/
theorem timers_not_stranded_repeatingTimer :
    ∃ q, timerSystem.Reachable q ∧ q.timers.toList = [⟨-7, 2⟩, ⟨1050, 1⟩] ∧
      q.timerfd ≠ .disarmed ∧ ∃ s, q.lastSettime = some s ∧ s.Timely := by
  have hcheck : (timerSystem.replay newQueue repeatingTimer).any (fun q =>
      decide (q.batch.isNone = true ∧ q.timers.toList = [⟨-7, 2⟩, ⟨1050, 1⟩])) = true := by
    decide +kernel
  obtain ⟨q, hrun, hq⟩ := System.exists_run_of_replay hcheck
  obtain ⟨hidle, htimers⟩ := of_decide_eq_true hq
  have hmem : (⟨-7, 2⟩ : Entry) ∈ q.timers := by
    change _ ∈ q.timers.toList
    rw [htimers]
    exact List.mem_cons_self
  have hreach : timerSystem.Reachable q := ⟨_, _, newQueue_init, hrun⟩
  exact ⟨q, hreach, htimers,
    timers_not_stranded hreach (Option.isNone_iff_eq_none.mp hidle) ⟨_, hmem⟩⟩

end TimerQueue

end Dalin.Net
