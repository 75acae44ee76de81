import Dalin.Library.RoundRobin
import Dalin.Net.LoopHandOver

/-!
# The start of a pool

`start` puts the loops of its threads into `loops_` in the order of their
construction, and `getNextLoop` takes them in turn from the first on. `start`
does not get stuck: as long as it has not returned, some thread can go on.
-/

set_option autoImplicit false

namespace Dalin.Net

open Monitors RoundRobin Transition

variable {s s' : EventLoopThreadPool}

/-- The loop that a pool of `n` threads gives at a turn. -/
def poolTurn (n k : ℕ) : Option PoolLoop := some (if n = 0 then .base else .inThread (k % n))

namespace EventLoopThreadPool

/-- How far `start` is. -/
def Progress (s : EventLoopThreadPool) : Prop :=
  match s.place with
  | .idle => s.threads.length = s.loops.length ∧
      s.loops.length = if s.started then s.asked.toNat else 0
  | .looping i => s.threads.length = i ∧ s.loops.length = i ∧ i ≤ s.asked.toNat
  | .waiting i => s.threads.length = i + 1 ∧ s.loops.length = i ∧ i < s.asked.toNat

/-- A pool whose threads and loops are in order. -/
structure Pooled (s : EventLoopThreadPool) : Prop where
  threads : ∀ k t, s.threads[k]? = some t → Handing k t
  loops : s.loops = (List.range s.loops.length).map fun k => some (.inThread k)
  progress : s.Progress
  started : s.place ≠ .idle → s.started = true ∧ s.asked = s.numThreads
  given : s.given =
    if s.place = .idle then (List.range s.given.length).map (poolTurn s.loops.length) else []
  next : s.next = if s.loops = [] then 0 else s.given.length % s.loops.length

/-- A new pool is in order. -/
theorem New.pooled (h : New s) : Pooled s := by
  refine ⟨fun k t ht => ?_, ?_, ?_, fun hplace => ?_, ?_, ?_⟩
  · simp [h.threads] at ht
  · simp [h.loops]
  · simp [Progress, h.place, h.threads, h.loops, h.started]
  · exact absurd h.place hplace
  · simp [h.given, h.place]
  · simp [h.next, h.loops]

/-- A thread that stays in order keeps the pool in order. -/
theorem Pooled.modifyThread (h : Pooled s) {k : ℕ} {f : EventLoopThread → EventLoopThread}
    (hf : ∀ t, s.threads[k]? = some t → Handing k (f t)) : Pooled (s.modifyThread k f) := by
  have hlength : (s.modifyThread k f).threads.length = s.threads.length := List.length_modify ..
  refine ⟨fun j t ht => ?_, h.loops, ?_, h.started, h.given, h.next⟩
  · change (s.threads.modify k f)[j]? = some t at ht
    rw [List.getElem?_modify] at ht
    obtain ⟨t₀, ht₀, hnow⟩ := Option.map_eq_some_iff.mp ht
    by_cases hjk : k = j
    · subst hjk
      rw [if_pos rfl] at hnow
      exact hnow ▸ hf t₀ ht₀
    · rw [if_neg hjk] at hnow
      exact hnow ▸ h.threads j t₀ ht₀
  · have hprogress := h.progress
    unfold Progress at hprogress ⊢
    rw [hlength]
    exact hprogress

/-- The next thread of `start`. -/
theorem Pooled.newThread (h : Pooled s) {i : ℕ} (hplace : s.place = .looping i)
    (hi : i < s.numThreads) : ∃ s', s.newThread i = .ok s' ∧ Pooled s' := by
  obtain ⟨t, ht, hhanding, -⟩ := Handing.startLoop i
  have hprogress := h.progress
  simp only [Progress, hplace] at hprogress
  obtain ⟨hthreads, hloops, hle⟩ := hprogress
  obtain ⟨hstarted, hasked⟩ := h.started (by simp [hplace])
  have hgiven := h.given
  rw [hplace, if_neg (by simp)] at hgiven
  refine ⟨_, bind_eq_ok.mpr ⟨t, ht, rfl⟩, ⟨fun k t' ht' => ?_, h.loops, ?_,
    fun _ => ⟨hstarted, hasked⟩, hgiven, h.next⟩⟩
  · change (s.threads ++ [t])[k]? = some t' at ht'
    rw [List.getElem?_append] at ht'
    split at ht'
    · exact h.threads k t' ht'
    · rename_i hk
      rw [List.getElem?_singleton] at ht'
      split at ht'
      · obtain rfl : k = i := by omega
        exact Option.some.inj ht' ▸ hhanding
      · cases ht'
  · change (s.threads ++ [t]).length = i + 1 ∧ s.loops.length = i ∧ i < s.asked.toNat
    rw [List.length_append, List.length_singleton]
    omega

/-- The rest of the body, when `startLoop` has returned. -/
theorem Pooled.pushBack (h : Pooled s) {i : ℕ} {t : EventLoopThread} (hplace : s.place = .waiting i)
    (ht : s.threads[i]? = some t) (hreturned : t.monitor.place .owner = .outside) :
    Pooled (s.pushBack i t) := by
  have hprogress := h.progress
  simp only [Progress, hplace] at hprogress
  obtain ⟨hthreads, hloops, hlt⟩ := hprogress
  have hgiven := h.given
  rw [hplace, if_neg (by simp)] at hgiven
  have hloop := (h.threads i t ht).returned hreturned
  refine ⟨h.threads, ?_, ?_, fun _ => h.started (by simp [hplace]), hgiven, ?_⟩
  · change s.loops ++ [t.returned] =
      (List.range (s.loops ++ [t.returned]).length).map fun k => some (.inThread k)
    rw [List.length_append, List.length_singleton, List.range_succ, List.map_append, ← h.loops,
      hloop, hloops]
    rfl
  · change s.threads.length = i + 1 ∧ (s.loops ++ [t.returned]).length = i + 1 ∧
      i + 1 ≤ s.asked.toNat
    rw [List.length_append, List.length_singleton]
    omega
  · change s.next = if s.loops ++ [t.returned] = [] then 0
      else s.given.length % (s.loops ++ [t.returned]).length
    rw [if_neg (by simp), hgiven, List.length_nil, Nat.zero_mod, h.next, hgiven, List.length_nil,
      Nat.zero_mod, ite_self]

/-- `getNextLoop` gives the loop whose turn it is. -/
theorem Pooled.getNextLoop (h : Pooled s) (hplace : s.place = .idle) :
    ∃ s', s.getNextLoop true = .ok s' ∧ Pooled s' := by
  have hgiven := h.given
  rw [hplace, if_pos rfl] at hgiven
  have hnext := h.next
  have hturns (loop : Option PoolLoop) (hloop : loop = poolTurn s.loops.length s.given.length) :
      s.given ++ [loop] = if s.place = .idle then
        (List.range (s.given ++ [loop]).length).map (poolTurn s.loops.length) else [] := by
    rw [if_pos hplace, List.length_append, List.length_singleton, List.range_succ,
      List.map_append, ← hgiven, hloop]
    rfl
  by_cases hempty : s.loops = []
  · refine ⟨{ s with given := s.given ++ [some .base] }, ?_, ⟨h.threads, h.loops, h.progress,
      h.started, hturns _ ?_, ?_⟩⟩
    · simp [EventLoopThreadPool.getNextLoop, assertInLoopThread, hempty, bind, Except.bind, pure,
        Except.pure]
    · simp [poolTurn, hempty]
    · simpa [hempty] using hnext
  · have hpos : 0 < s.loops.length := List.length_pos_iff.mpr hempty
    rw [if_neg hempty] at hnext
    have hlt := Nat.mod_lt s.given.length hpos
    have hloop : s.loops[s.next]? = some (some (.inThread s.next)) := by
      rw [h.loops, List.getElem?_map, List.getElem?_range (by omega)]
      rfl
    refine ⟨{ s with
      given := s.given ++ [some (.inThread s.next)]
      next := advance s.loops.length s.next }, ?_, ⟨h.threads, h.loops, h.progress, h.started,
        hturns _ ?_, ?_⟩⟩
    · simp [EventLoopThreadPool.getNextLoop, assertInLoopThread, hempty, hloop, bind, Except.bind,
        pure, Except.pure, advance]
    · simp [poolTurn, hempty, hnext]
    · change advance s.loops.length s.next = if s.loops = [] then 0 else
        (s.given ++ [some (PoolLoop.inThread s.next)]).length % s.loops.length
      rw [if_neg hempty, hnext, advance_mod hpos, List.length_append, List.length_singleton]

/-- `start` begins with an empty pool. -/
theorem Pooled.start (h : Pooled s) {inLoop : Bool} (hplace : s.place = .idle)
    (hok : s.start inLoop = .ok s') : Pooled s' := by
  obtain ⟨hstarted, hrest⟩ := require_bind_eq_ok.mp hok
  obtain ⟨-, -, hnow⟩ := bind_eq_ok.mp hrest
  cases hnow
  have hprogress := h.progress
  simp only [Progress, hplace, hstarted, Bool.false_eq_true, if_false] at hprogress
  obtain ⟨hthreads, hloops⟩ := hprogress
  have hnext := h.next
  rw [if_pos (List.length_eq_zero_iff.mp hloops)] at hnext
  refine ⟨h.threads, h.loops, ?_, fun _ => ⟨rfl, rfl⟩, (if_neg (by simp)).symm, ?_⟩
  · change s.threads.length = 0 ∧ s.loops.length = 0 ∧ 0 ≤ s.numThreads.toNat
    omega
  · change s.next = if s.loops = [] then 0 else 0 % s.loops.length
    rw [hnext, Nat.zero_mod, ite_self]

/-- `start` ends with all of its threads. -/
theorem Pooled.startReturns (h : Pooled s) {i : ℕ} (hplace : s.place = .looping i)
    (hi : s.numThreads ≤ i) : Pooled { s with place := .idle } := by
  have hprogress := h.progress
  simp only [Progress, hplace] at hprogress
  obtain ⟨hthreads, hloops, hle⟩ := hprogress
  obtain ⟨hstarted, hasked⟩ := h.started (by simp [hplace])
  have hgiven := h.given
  rw [hplace, if_neg (by simp)] at hgiven
  refine ⟨h.threads, h.loops, ?_, fun hne => absurd rfl hne, ?_, h.next⟩
  · change s.threads.length = s.loops.length ∧
      s.loops.length = if s.started then s.asked.toNat else 0
    rw [hstarted, if_pos rfl]
    omega
  · change s.given = if PoolPlace.idle = .idle then _ else []
    rw [if_pos rfl, hgiven]
    rfl

/-- Every step keeps the pool in order. -/
theorem Pooled.step (h : Pooled s) {a : PoolStep} (henabled : poolSystem.enabled s a)
    (hexec : poolSystem.exec s a = .ok s') : Pooled s' := by
  change s.enabled a at henabled
  change s.exec a = .ok s' at hexec
  cases a with
  | setThreadNum numThreads =>
    cases hexec
    change s.place = .idle at henabled
    exact ⟨h.threads, h.loops, h.progress, fun hne => absurd henabled hne, h.given, h.next⟩
  | start inLoop => exact h.start henabled hexec
  | newThread =>
    cases hplace : s.place with
    | looping i =>
      simp only [enabled, hplace] at henabled
      simp only [exec, hplace] at hexec
      obtain ⟨s₀, hok, hpooled⟩ := h.newThread hplace henabled
      cases hok.symm.trans hexec
      exact hpooled
    | _ => simp only [enabled, hplace] at henabled
  | pushBack =>
    cases hplace : s.place with
    | waiting i =>
      simp only [enabled, hplace] at henabled
      cases ht : s.threads[i]? with
      | none => simp [ht] at henabled
      | some t =>
        simp only [exec, hplace, ht] at hexec
        simp only [ht, Option.any_some] at henabled
        cases hexec
        exact h.pushBack hplace ht (of_decide_eq_true henabled)
    | _ => simp only [enabled, hplace] at henabled
  | startReturns =>
    cases hexec
    cases hplace : s.place with
    | looping i =>
      simp only [enabled, hplace] at henabled
      exact h.startReturns hplace henabled
    | _ => simp only [enabled, hplace] at henabled
  | getNextLoop inLoop =>
    cases inLoop with
    | false => cases hexec
    | true =>
      obtain ⟨s₀, hok, hpooled⟩ := h.getNextLoop henabled
      cases hok.symm.trans hexec
      exact hpooled
  | threadFunc k =>
    cases hexec
    refine h.modifyThread fun t ht => (h.threads k t ht).threadFunc ?_
    simp only [enabled, ht, Option.any_some, Bool.and_eq_true, Bool.not_eq_true'] at henabled
    exact henabled.2
  | handOff k a =>
    cases hexec
    obtain ⟨hcontinues, t₀, ht₀, hmonitor⟩ := henabled
    refine h.modifyThread fun t ht => (h.threads k t ht).exec ?_ hcontinues
    cases ht₀.symm.trans ht
    exact hmonitor

/-- Every reachable pool is in order. -/
theorem pooled_of_reachable (h : poolSystem.Reachable s) : Pooled s :=
  h.invariant (fun hnew => hnew.pooled) fun hI henabled hexec => hI.step henabled hexec

/-- A spurious wake-up. -/
def Spurious (s : EventLoopThreadPool) : PoolStep → Prop
  | .handOff k a => ∃ t ∈ s.threads[k]?, ∃ c, t.monitor.place a.thread = .asleep c
  | _ => False

end EventLoopThreadPool

/-- A step that is not a new call on the pool. -/
def PoolStep.continues : PoolStep → Bool
  | .setThreadNum _ | .start _ | .getNextLoop _ => false
  | _ => true

open EventLoopThreadPool

/-- **A started pool deals its loops out in turn.** In every reachable state in which `start` has
returned, `loops_` holds the loops of as many threads as were asked for, each thread's own, in the
order of their construction; the calls of `getNextLoop` since `start` have returned them in turn,
and no loop was returned twice more than another. Without threads it is always the base loop. -/
theorem pool_deals_in_turn (h : poolSystem.Reachable s) (hplace : s.place = .idle)
    (hstarted : s.started = true) :
    s.loops = (List.range s.asked.toNat).map (fun k => some (.inThread k)) ∧
      s.given = (List.range s.given.length).map (poolTurn s.asked.toNat) ∧
      ∀ i j, i < s.asked.toNat → j < s.asked.toNat →
        s.given.count (some (.inThread i)) ≤ s.given.count (some (.inThread j)) + 1 := by
  have hpooled := pooled_of_reachable h
  have hprogress := hpooled.progress
  simp only [Progress, hplace, hstarted, if_true] at hprogress
  have hloops := hpooled.loops
  have hgiven := hpooled.given
  rw [hprogress.2] at hloops hgiven
  rw [if_pos hplace] at hgiven
  refine ⟨hloops, hgiven, fun i j hi hj => ?_⟩
  have hn : 0 < s.asked.toNat := by omega
  have hmap : s.given = (turns s.asked.toNat s.given.length).map fun k => some (.inThread k) := by
    rw [turns, List.map_map]
    refine hgiven.trans (List.map_congr_left fun k _ => ?_)
    simp [poolTurn, Nat.pos_iff_ne_zero.mp hn]
  have hinj : Function.Injective fun k => some (PoolLoop.inThread k) :=
    fun k k' heq => PoolLoop.inThread.inj (Option.some.inj heq)
  have hcount (i : ℕ) : s.given.count (some (.inThread i)) =
      (turns s.asked.toNat s.given.length).count i := by
    conv_lhs => rw [hmap]
    exact List.count_map_of_injective _ _ hinj i
  rw [hcount, hcount]
  exact count_turns_le hn hi hj _

/-- **`start` does not get stuck.** In every reachable state in which `start` has not returned,
the base thread or one of the new threads can take a step other than a spurious wake-up, and
the step succeeds. -/
theorem pool_start_goes_on (h : poolSystem.Reachable s) (hplace : s.place ≠ .idle) :
    ∃ a s', a.continues = true ∧ ¬s.Spurious a ∧ poolSystem.enabled s a ∧
      poolSystem.exec s a = .ok s' := by
  have hpooled := pooled_of_reachable h
  cases hp : s.place with
  | idle => exact absurd hp hplace
  | looping i =>
    by_cases hi : i < s.numThreads
    · obtain ⟨s', hok, -⟩ := hpooled.newThread hp hi
      refine ⟨.newThread, s', rfl, fun hs => hs, ?_, ?_⟩
      · simpa [poolSystem, enabled, hp] using hi
      · simpa [poolSystem, exec, hp] using hok
    · refine ⟨.startReturns, _, rfl, fun hs => hs, ?_, rfl⟩
      simpa [poolSystem, enabled, hp] using hi
  | waiting i =>
    have hprogress := hpooled.progress
    simp only [Progress, hp] at hprogress
    obtain ⟨t, ht⟩ : ∃ t, s.threads[i]? = some t :=
      ⟨_, List.getElem?_eq_getElem (by omega)⟩
    by_cases howner : t.monitor.place .owner = .outside
    · refine ⟨.pushBack, s.pushBack i t, rfl, fun hs => hs, ?_, ?_⟩
      · simp [poolSystem, enabled, hp, ht, howner]
      · simp [poolSystem, exec, hp, ht]
    have hhanding := hpooled.threads i t ht
    rcases hhanding.exists_step howner with hnot | ⟨a, henabled, hcontinues, hmoving⟩
    · refine ⟨.threadFunc i, _, rfl, fun hs => hs, ?_, rfl⟩
      simp [poolSystem, enabled, ht, hhanding.started, hnot]
    · refine ⟨.handOff i a, _, rfl, ?_, ⟨hcontinues, t, ht, henabled⟩, rfl⟩
      rintro ⟨t', ht', c, hc⟩
      cases ht.symm.trans ht'
      simp [hc, Place.moving] at hmoving

/-- A new pool. -/
def newPool : EventLoopThreadPool := ⟨false, 0, 0, [], [], .idle, 0, []⟩

/-- A pool for two threads makes the first one, which has not constructed its loop yet. -/
def startWithTwo : List PoolStep := [.setThreadNum 2, .start true, .newThread]

/-- The thread of number `k` hands its loop over while the owner sleeps. -/
def handOver (k : ℕ) : List PoolStep :=
  [.acquire .owner, .test .owner, .sleep .owner].map (.handOff k) ++ [.threadFunc k] ++
    [.acquire .loopThread, .test .loopThread, .act .loopThread, .signal .loopThread (some .owner),
      .leave .loopThread, .acquire .owner, .test .owner, .act .owner, .signal .owner none,
      .leave .owner].map (.handOff k) ++ [.pushBack]

/-- The rest of `start`, and three calls of `getNextLoop`. -/
def dealThreeTimes : List PoolStep :=
  handOver 0 ++ [.newThread] ++ handOver 1 ++
    [.startReturns, .getNextLoop true, .getNextLoop true, .getNextLoop true]

/-- A run of a new pool ends in a reachable state. -/
theorem newPool_reachable {s : EventLoopThreadPool} {as : List PoolStep}
    (h : poolSystem.Run newPool as s) : poolSystem.Reachable s :=
  ⟨newPool, as, ⟨rfl, rfl, rfl, rfl, rfl, rfl, rfl⟩, h⟩

/-- The third loop given is the first one again. -/
theorem pool_deals_in_turn_dealThreeTimes : ∃ s : EventLoopThreadPool, s.given.length = 3 ∧
    s.given = (List.range s.given.length).map (poolTurn s.asked.toNat) := by
  have hcheck : (poolSystem.replay newPool (startWithTwo ++ dealThreeTimes)).any
      (fun s => decide (s.place = .idle ∧ s.started = true ∧ s.given.length = 3)) = true := by
    decide +kernel
  obtain ⟨s, hrun, hs⟩ := System.exists_run_of_replay hcheck
  obtain ⟨hplace, hstarted, hlength⟩ := of_decide_eq_true hs
  exact ⟨s, hlength, (pool_deals_in_turn (newPool_reachable hrun) hplace hstarted).2.1⟩

/-- `startLoop` sleeps, and a step other than a spurious wake-up can be taken. -/
theorem pool_start_goes_on_startWithTwo : ∃ s : EventLoopThreadPool, s.place = .waiting 0 ∧
    ∃ a s', a.continues = true ∧ ¬s.Spurious a ∧ poolSystem.enabled s a ∧
      poolSystem.exec s a = .ok s' := by
  have hcheck : (poolSystem.replay newPool startWithTwo).any
      (fun s => decide (s.place = .waiting 0)) = true := by decide +kernel
  obtain ⟨s, hrun, hs⟩ := System.exists_run_of_replay hcheck
  have hplace := of_decide_eq_true hs
  exact ⟨s, hplace, pool_start_goes_on (newPool_reachable hrun) (by simp [hplace])⟩

end Dalin.Net
