import Dalin.Base.ThreadPool

/-!
# Waiting in the thread pool

Workers wait for tasks and producers wait for space, each on a condition of
their own, and every push and every pop signals one thread. This file shows that
these signals are enough while the pool runs, and when `stop` leaves a producer
behind: it wakes the workers only.
-/

set_option autoImplicit false

namespace Dalin.ThreadPool

open Transition ThreadFamily

variable {ω π φ : Type} [Fintype ω] [DecidableEq ω] [Fintype π] [DecidableEq π]
  {s t : ThreadPool ω π φ}

/-! ### Wake-ups -/

/-- The queue keeps its bound, and whoever sleeps has no reason to be awake: wake-ups are in
flight for all tasks in the queue while a worker sleeps, and for all of its free space while a
producer does. -/
structure Attended (s : ThreadPool ω π φ) : Prop where
  bound : 0 < s.maxQueueSize → s.taskQueue.length ≤ s.maxQueueSize
  workers : (notEmpty φ).Covered s.worker s.taskQueue.length
  producers : (notFull φ).Covered s.producer (s.maxQueueSize - s.taskQueue.length)
  bounded : ∀ p, (notFull φ).asleep (s.producer p) = true → 0 < s.maxQueueSize
  stopped : s.running = false → ∀ w, (notEmpty φ).asleep (s.worker w) = false

omit [Fintype ω] [Fintype π] [DecidableEq π] in
/-- A worker that goes on leaves the others asleep or awake as they were. -/
theorem awake_of_update {w : ω} (place : WorkerPlace φ)
    (hplace : (notEmpty φ).asleep place = false)
    (h : ∀ w', (notEmpty φ).asleep (s.worker w') = false) (w' : ω) :
    (notEmpty φ).asleep (Function.update s.worker w place w') = false := by
  by_cases heq : w' = w
  · subst heq
    rw [Function.update_self]
    exact hplace
  · rw [Function.update_of_ne heq]
    exact h w'

omit [DecidableEq π] in
/-- A worker goes on, and was not on a wake-up. -/
theorem Attended.moveWorker {w : ω} (h : s.Attended) (place : WorkerPlace φ)
    (hfrom : (notEmpty φ).woken (s.worker w) = false)
    (hplace : (notEmpty φ).asleep place = false) : (s.moveWorker w place).Attended :=
  ⟨h.bound, h.workers.move hfrom hplace, h.producers, h.bounded,
    fun hstopped => awake_of_update place hplace (h.stopped hstopped)⟩

omit [DecidableEq ω] in
/-- A producer goes on, and was not on a wake-up. -/
theorem Attended.moveProducer {p : π} {place : ProducerPlace φ} (h : s.Attended)
    (hfrom : (notFull φ).woken (s.producer p) = false)
    (hplace : (notFull φ).asleep place = false) : (s.moveProducer p place).Attended := by
  refine ⟨h.bound, h.workers, h.producers.move hfrom hplace, fun p' hasleep => ?_, h.stopped⟩
  obtain ⟨p'', hasleep⟩ := Condition.asleep_of_update hplace ⟨p', hasleep⟩
  exact h.bounded p'' hasleep

/-- `takeTask` serves a wake-up of the workers and signals a producer. -/
theorem Attended.takeTask {w : ω} {notified : Option π} (h : s.Attended)
    (henabled : s.enabled (.takeTask w notified)) : (s.takeTask w notified).Attended := by
  obtain ⟨_, hsignals⟩ := henabled
  unfold ThreadPool.takeTask
  split
  · rename_i hempty
    have hzero : s.taskQueue.length = 0 := by
      rw [hempty]
      rfl
    have hcovered (place : WorkerPlace φ) :
        (notEmpty φ).Covered (Function.update s.worker w place) s.taskQueue.length := by
      rw [hzero]
      exact Condition.covered_zero
    split
    · rename_i hrunning
      refine ⟨h.bound, hcovered _, h.producers, h.bounded, fun hstopped => ?_⟩
      cases hrunning.symm.trans hstopped
    · exact ⟨h.bound, hcovered _, h.producers, h.bounded,
        fun hstopped => awake_of_update _ rfl (h.stopped hstopped)⟩
  · rename_i task rest hqueue
    have hlength : s.taskQueue.length = rest.length + 1 := by
      rw [hqueue]
      rfl
    have hworkers : (notEmpty φ).Covered (Function.update s.worker w (.taken (some task)))
        rest.length := by
      refine (h.workers.leave rfl).mono ?_
      omega
    have hstopped (hs : s.running = false) := awake_of_update
      (w := w) (.taken (some task)) rfl (h.stopped hs)
    have hbound : 0 < s.maxQueueSize → rest.length ≤ s.maxQueueSize := fun hpos => by
      have hle := h.bound hpos
      omega
    split
    · rename_i hpos
      rw [if_neg (by simp [hqueue]; omega)] at hsignals
      refine ⟨hbound, hworkers, ?_, fun _ _ => hpos, hstopped⟩
      refine (h.producers.notify hsignals).mono ?_
      change s.maxQueueSize - rest.length ≤ s.maxQueueSize - s.taskQueue.length + 1
      omega
    · rename_i hzero
      refine ⟨hbound, hworkers, ?_, h.bounded, hstopped⟩
      change (notFull φ).Covered s.producer (s.maxQueueSize - rest.length)
      have hnone : s.maxQueueSize - rest.length = 0 := by omega
      rw [hnone]
      exact Condition.covered_zero

/-- `addTask` serves a wake-up of the producers and signals a worker, or goes to sleep at a
full queue. -/
theorem Attended.pushTask {p : π} {task : φ} {notified : Option ω} (h : s.Attended)
    (hsignals : if s.IsFull then notified = none else (notEmpty φ).Signals s.worker notified) :
    (s.pushTask p task notified).Attended := by
  unfold ThreadPool.pushTask
  split
  · rename_i hfull
    refine ⟨h.bound, h.workers, ?_, fun _ _ => hfull.1, h.stopped⟩
    have hnone : s.maxQueueSize - s.taskQueue.length = 0 := Nat.sub_eq_zero_of_le hfull.2
    change (notFull φ).Covered _ (s.maxQueueSize - s.taskQueue.length)
    rw [hnone]
    exact Condition.covered_zero
  · rename_i hnot
    rw [if_neg hnot] at hsignals
    have hlength : (s.taskQueue ++ [task]).length = s.taskQueue.length + 1 := by simp
    refine ⟨fun hpos => ?_, ?_, ?_, fun p' hasleep => ?_, fun hstopped w => ?_⟩
    · have hspace : s.taskQueue.length < s.maxQueueSize := not_le.mp fun hle => hnot ⟨hpos, hle⟩
      change (s.taskQueue ++ [task]).length ≤ s.maxQueueSize
      omega
    · change (notEmpty φ).Covered _ (s.taskQueue ++ [task]).length
      rw [hlength]
      exact h.workers.notify hsignals
    · change (notFull φ).Covered _ (s.maxQueueSize - (s.taskQueue ++ [task]).length)
      refine (h.producers.leave rfl).mono ?_
      omega
    · obtain ⟨p'', hasleep⟩ := Condition.asleep_of_update rfl ⟨p', hasleep⟩
      exact h.bounded p'' hasleep
    · refine Bool.eq_false_iff.mpr fun hasleep => ?_
      cases (h.stopped hstopped w).symm.trans (Condition.asleep_of_notify hsignals w hasleep)

/-- Every step keeps the pool attended. -/
theorem Attended.step {a : PoolStep ω π φ} (h : s.Attended) (henabled : s.enabled a) :
    (s.exec a).Attended := by
  cases a with
  | testRunning w =>
    refine h.moveWorker _ ?_ ?_
    · change s.worker w = .testing at henabled
      rw [henabled]
      rfl
    · split <;> rfl
  | takeTask w notified => exact h.takeTask henabled
  | callTask w =>
    change (s.worker w).hasTaken = true at henabled
    have hwoken : (notEmpty φ).woken (s.worker w) = false := by
      cases hw : s.worker w with
      | taken => rfl
      | _ => rw [hw] at henabled; cases henabled
    have hmove (place : WorkerPlace φ) := h.moveWorker (w := w) place hwoken
    change (s.callTask w).Attended
    unfold ThreadPool.callTask
    split
    · rename_i task _
      have htask := hmove (.running task) rfl
      exact ⟨htask.bound, htask.workers, htask.producers, htask.bounded, htask.stopped⟩
    · exact hmove .testing rfl
  | taskReturns w =>
    change (s.taskReturns w).Attended
    unfold ThreadPool.taskReturns
    split
    · rename_i task hw
      have hwoken : (notEmpty φ).woken (s.worker w) = false := by
        rw [hw]
        rfl
      have htesting := h.moveWorker (w := w) .testing hwoken rfl
      exact ⟨htesting.bound, htesting.workers, htesting.producers, htesting.bounded,
        htesting.stopped⟩
    · exact h
  | addTask p task =>
    refine h.moveProducer ?_ rfl
    change s.producer p = .outside at henabled
    rw [henabled]
    rfl
  | pushTask p notified =>
    simp only [exec]
    split
    · exact h.pushTask henabled.2
    · exact h
  | stop =>
    have hawake := Condition.awake_of_notifyAll (notEmpty φ) s.worker
    refine ⟨h.bound, fun hasleep => ?_, h.producers, h.bounded, fun _ => hawake⟩
    obtain ⟨w, hw⟩ := hasleep
    cases (hawake w).symm.trans hw
  | stopReturns => exact ⟨h.bound, h.workers, h.producers, h.bounded, h.stopped⟩
  | wakeWorker w =>
    exact h.moveWorker _ ((notEmpty φ).not_woken _ henabled) ((notEmpty φ).woken_wake _ henabled).1
  | wakeProducer p =>
    exact h.moveProducer ((notFull φ).not_woken _ henabled) ((notFull φ).woken_wake _ henabled).1

/-- It holds before the first step. -/
theorem Attended.of_init (h : (threadPoolSystem ω π φ).init s) : s.Attended := by
  obtain ⟨hrunning, hqueue, hworker, hproducer, _⟩ := h
  refine ⟨fun _ => ?_, fun hasleep => ?_, fun hasleep => ?_, fun p hasleep => ?_,
    fun hstopped => ?_⟩
  · rw [hqueue]
    exact Nat.zero_le _
  · obtain ⟨w, hw⟩ := hasleep
    rw [hworker] at hw
    cases hw
  · obtain ⟨p, hp⟩ := hasleep
    rw [hproducer] at hp
    cases hp
  · rw [hproducer] at hasleep
    cases hasleep
  · cases hrunning.symm.trans hstopped

/-- **Wake-ups suffice.** The queue respects its bound. While it is not empty, not all workers
sleep; while it is not full, a sleeping producer has a wake-up in flight to one of them; and
once `stop` was called, no worker sleeps. -/
theorem wakeups_suffice [Nonempty ω] (h : (threadPoolSystem ω π φ).Reachable s) :
    (0 < s.maxQueueSize → s.taskQueue.length ≤ s.maxQueueSize) ∧
    (s.taskQueue ≠ [] → ∃ w, (notEmpty φ).asleep (s.worker w) = false) ∧
    (s.running = true → ¬ s.IsFull → (∃ p, (notFull φ).asleep (s.producer p) = true) →
      ∃ p, (notFull φ).woken (s.producer p) = true) ∧
    (s.running = false → ∀ w, (notEmpty φ).asleep (s.worker w) = false) := by
  have hattended : s.Attended := by
    refine h.invariant Attended.of_init fun hI henabled hexec => ?_
    cases hexec
    exact hI.step henabled
  refine ⟨hattended.bound, fun hne => ?_, fun _ hnot hasleep => ?_, hattended.stopped⟩
  · obtain ⟨w⟩ := ‹Nonempty ω›
    cases hw : (notEmpty φ).asleep (s.worker w) with
    | false => exact ⟨w, hw⟩
    | true =>
      obtain ⟨w', hw'⟩ := hattended.workers.exists_woken (List.length_pos_of_ne_nil hne) ⟨w, hw⟩
      refine ⟨w', ?_⟩
      cases hasleep : (notEmpty φ).asleep (s.worker w') with
      | false => rfl
      | true => cases ((notEmpty φ).not_woken _ hasleep).symm.trans hw'
  · obtain ⟨p, hp⟩ := hasleep
    have hpos := hattended.bounded p hp
    have hspace : s.taskQueue.length < s.maxQueueSize := not_le.mp fun hle => hnot ⟨hpos, hle⟩
    exact hattended.producers.exists_woken (by omega) ⟨p, hp⟩

/-- A pool with one worker, two producers and a queue of one task, after `start`. -/
def newPool : ThreadPool Unit Bool ℕ :=
  ⟨1, true, [], fun _ => .testing, fun _ => .outside, .outside, [], [], [], []⟩

/-- Nothing has happened in it. -/
theorem newPool_init : (threadPoolSystem Unit Bool ℕ).init newPool :=
  ⟨rfl, rfl, fun _ => rfl, fun _ => rfl, rfl, rfl, rfl, rfl, rfl⟩

/-- The queue is filled, and both producers go to sleep. -/
def fillQueue : List (PoolStep Unit Bool ℕ) :=
  [.testRunning (), .addTask false 1, .pushTask false none, .addTask false 2,
    .pushTask false none, .addTask true 3, .pushTask true none]

instance (a : PoolStep Unit Bool ℕ) (s : ThreadPool Unit Bool ℕ) :
    Decidable ((threadPoolSystem Unit Bool ℕ).enabled s a) :=
  inferInstanceAs (Decidable (s.enabled a))

/-- The worker takes the task, and one of the producers that sleep is signalled. -/
theorem wakeups_suffice_fillQueue :
    ∃ s, (threadPoolSystem Unit Bool ℕ).Reachable s ∧
      (notFull ℕ).asleep (s.producer true) = true ∧
      ∃ p, (notFull ℕ).woken (s.producer p) = true := by
  have hcheck : ((threadPoolSystem Unit Bool ℕ).replay newPool
      (fillQueue ++ [.takeTask () (some false)])).any (fun s =>
        decide (s.running = true ∧ ¬ s.IsFull ∧
          (notFull ℕ).asleep (s.producer true) = true)) = true := by decide +kernel
  obtain ⟨s, hrun, hs⟩ := System.exists_run_of_replay hcheck
  obtain ⟨hrunning, hnot, hasleep⟩ := of_decide_eq_true hs
  have hreach : (threadPoolSystem Unit Bool ℕ).Reachable s := ⟨_, _, newPool_init, hrun⟩
  exact ⟨s, hreach, hasleep, (wakeups_suffice hreach).2.2.1 hrunning hnot ⟨true, hasleep⟩⟩

/-! ### Producers after `stop` -/

/-- After `stop` all workers have ended, so that no task is taken any more, and a producer
sleeps. -/
def Stranded (s : ThreadPool ω π φ) : Prop :=
  s.running = false ∧ s.AllExited ∧ ∃ p, (notFull φ).asleep (s.producer p) = true

/-- The last worker ends only when no producer sleeps, and after that no producer finds the
queue full. -/
def Releases (s : ThreadPool ω π φ) : PoolStep ω π φ → Prop
  | .testRunning w => s.running = false → (∀ w', w' ≠ w → (s.worker w').hasExited = true) →
    ∀ p, (notFull φ).asleep (s.producer p) = false
  | .pushTask _ _ => s.running = false → s.AllExited → ¬ s.IsFull
  | _ => True

instance (s : ThreadPool ω π φ) (a : PoolStep ω π φ) : Decidable (s.Releases a) := by
  unfold Releases
  apply @PoolStep.casesOn _ _ _ _ a <;> intros <;> infer_instance

/-- No worker ends before `stop`. -/
def Serving (s : ThreadPool ω π φ) : Prop :=
  s.running = true → ∀ w, (s.worker w).hasExited = false

omit [Fintype ω] [DecidableEq ω] [Fintype π] [DecidableEq π] in
/-- A wake-up is not the end of a worker. -/
theorem hasExited_wake {place : WorkerPlace φ} (h : (notEmpty φ).asleep place = true) :
    ((notEmpty φ).wake place).hasExited = false := by
  cases place with
  | asleep => rfl
  | _ => cases h

omit [Fintype ω] [Fintype π] [DecidableEq π] in
/-- A signal ends no worker. -/
theorem hasExited_notify (notified : Option ω) (w : ω) :
    ((notEmpty φ).notify s.worker notified w).hasExited = (s.worker w).hasExited := by
  cases notified with
  | none => rfl
  | some w' =>
    change (Function.update s.worker w' ((notEmpty φ).wake (s.worker w')) w).hasExited = _
    by_cases heq : w = w'
    · subst heq
      rw [Function.update_self]
      cases s.worker w <;> rfl
    · rw [Function.update_of_ne heq]

omit [Fintype ω] [Fintype π] [DecidableEq π] in
/-- A worker that goes on, but not to its end, leaves no worker ended. -/
theorem Serving.moveWorker {w : ω} (h : s.Serving) (place : WorkerPlace φ)
    (hplace : place.hasExited = false) : (s.moveWorker w place).Serving := by
  intro hrunning w'
  change (Function.update s.worker w place w').hasExited = false
  by_cases heq : w' = w
  · subst heq
    rw [Function.update_self]
    exact hplace
  · rw [Function.update_of_ne heq]
    exact h hrunning w'

omit [Fintype ω] [Fintype π] in
/-- No step lets a worker end before `stop`. -/
theorem Serving.step {a : PoolStep ω π φ} (h : s.Serving) (henabled : s.enabled a) :
    (s.exec a).Serving := by
  cases a with
  | testRunning w =>
    cases hrunning : s.running with
    | true =>
      simp only [exec, hrunning, if_true]
      exact h.moveWorker _ rfl
    | false =>
      intro hr
      cases hrunning.symm.trans hr
  | takeTask w notified =>
    change (s.takeTask w notified).Serving
    unfold ThreadPool.takeTask
    split
    · split <;> exact h.moveWorker _ rfl
    · rename_i task rest _
      exact h.moveWorker (.taken (some task)) rfl
  | callTask w =>
    change (s.callTask w).Serving
    unfold ThreadPool.callTask
    split
    · rename_i task _
      exact h.moveWorker (.running task) rfl
    · exact h.moveWorker _ rfl
  | taskReturns w =>
    change (s.taskReturns w).Serving
    unfold ThreadPool.taskReturns
    split
    · exact h.moveWorker .testing rfl
    · exact h
  | pushTask p notified =>
    simp only [exec]
    split
    · unfold ThreadPool.pushTask
      split
      · exact h
      · exact fun hrunning w => (hasExited_notify notified w).trans (h hrunning w)
    · exact h
  | stop =>
    intro hrunning
    cases hrunning
  | wakeWorker w =>
    exact h.moveWorker _ (hasExited_wake henabled)
  | addTask p task => exact h
  | stopReturns => exact h
  | wakeProducer p => exact h

omit [Fintype ω] [DecidableEq ω] [Fintype π] [DecidableEq π] in
/-- A step that strands a producer ends the last worker or puts a producer to sleep. -/
theorem not_stranded_of {u : ThreadPool ω π φ} (h : ¬ s.Stranded) (hrunning : u.running = s.running)
    (hexited : u.AllExited → s.AllExited)
    (hasleep : (∃ p, (notFull φ).asleep (u.producer p) = true) →
      ∃ p, (notFull φ).asleep (s.producer p) = true) : ¬ u.Stranded := fun hu =>
  h ⟨hrunning ▸ hu.1, hexited hu.2.1, hasleep hu.2.2⟩

omit [Fintype ω] [Fintype π] [DecidableEq π] in
/-- A worker that a step moves, but not to its end, strands no producer. -/
theorem not_stranded_of_worker {u : ThreadPool ω π φ} {w : ω} {place : WorkerPlace φ}
    (hw : u.worker = Function.update s.worker w place) (hplace : place.hasExited = false) :
    ¬ u.Stranded := by
  rintro ⟨_, hall, _⟩
  have hexited := hall w
  rw [hw, Function.update_self, hplace] at hexited
  cases hexited

omit [Fintype ω] [Fintype π] in
/-- A step strands a producer exactly if it does not release the producers. -/
theorem stranded_step_iff [Nonempty ω] {a : PoolStep ω π φ} (hserving : s.Serving)
    (h : ¬ s.Stranded) (henabled : s.enabled a) : ¬ (s.exec a).Stranded ↔ s.Releases a := by
  cases a with
  | testRunning w =>
    cases hrunning : s.running with
    | true =>
      simp only [exec, Releases, hrunning, if_true]
      exact iff_of_true (not_stranded_of_worker rfl rfl) (fun hr => by cases hr)
    | false =>
      -- the worker ends
      simp only [exec, Releases, hrunning, Bool.false_eq_true, if_false, true_implies]
      constructor
      · intro hstranded hothers p
        refine Bool.eq_false_iff.mpr fun hasleep => hstranded ⟨hrunning, fun w' => ?_, p, hasleep⟩
        change (Function.update s.worker w .exited w').hasExited = true
        by_cases heq : w' = w
        · subst heq
          rw [Function.update_self]
          rfl
        · rw [Function.update_of_ne heq]
          exact hothers w' heq
      · rintro hawake ⟨_, hall, p, hasleep⟩
        refine Bool.eq_false_iff.mp (hawake (fun w' hne => ?_) p) hasleep
        have hexited := hall w'
        change (Function.update s.worker w .exited w').hasExited = true at hexited
        rwa [Function.update_of_ne hne] at hexited
  | takeTask w notified =>
    refine iff_of_true ?_ trivial
    change ¬ (s.takeTask w notified).Stranded
    unfold ThreadPool.takeTask
    split
    · split <;> exact not_stranded_of_worker rfl rfl
    · exact not_stranded_of_worker rfl rfl
  | callTask w =>
    refine iff_of_true ?_ trivial
    change ¬ (s.callTask w).Stranded
    unfold ThreadPool.callTask
    split <;> exact not_stranded_of_worker rfl rfl
  | taskReturns w =>
    refine iff_of_true ?_ trivial
    change ¬ (s.taskReturns w).Stranded
    unfold ThreadPool.taskReturns
    split
    · exact not_stranded_of_worker rfl rfl
    · exact h
  | addTask p task =>
    exact iff_of_true (not_stranded_of h rfl id (Condition.asleep_of_update rfl)) trivial
  | pushTask p notified =>
    obtain ⟨hwants, _⟩ := henabled
    obtain ⟨task, htask⟩ := Option.isSome_iff_exists.mp hwants
    simp only [exec, htask, Releases]
    unfold ThreadPool.pushTask
    split
    · -- the producer goes to sleep
      rename_i hfull
      constructor
      · intro hstranded hrunning hall _
        refine hstranded ⟨hrunning, hall, p, ?_⟩
        change (notFull φ).asleep (Function.update s.producer p _ p) = true
        rw [Function.update_self]
        rfl
      · rintro hnot ⟨hrunning, hall, _⟩
        exact hnot hrunning hall hfull
    · rename_i hnot
      refine iff_of_true (not_stranded_of h rfl (fun hall w => ?_)
        (Condition.asleep_of_update rfl)) fun _ _ => hnot
      exact (hasExited_notify notified w).symm.trans (hall w)
  | stop =>
    refine iff_of_true ?_ trivial
    rintro ⟨_, hall, hasleep⟩
    have hexited (w : ω) : (s.worker w).hasExited = true := by
      have hw := hall w
      change ((notEmpty φ).wake (s.worker w)).hasExited = true at hw
      cases hplace : s.worker w with
      | exited => rfl
      | _ =>
        rw [hplace] at hw
        cases hw
    cases hrunning : s.running with
    | true =>
      obtain ⟨w⟩ := ‹Nonempty ω›
      cases (hserving hrunning w).symm.trans (hexited w)
    | false => exact h ⟨hrunning, hexited, hasleep⟩
  | stopReturns => exact iff_of_true h trivial
  | wakeWorker w =>
    exact iff_of_true (not_stranded_of_worker rfl (hasExited_wake henabled)) trivial
  | wakeProducer p =>
    refine iff_of_true (not_stranded_of h rfl id (Condition.asleep_of_update ?_)) trivial
    exact ((notFull φ).woken_wake _ henabled).1

omit [Fintype ω] [Fintype π] in
/-- **Producers after `stop`.** A run leaves no producer behind exactly if, whenever the last
worker ends, no producer sleeps, and no producer comes to a full queue after that. -/
theorem strands_no_producer_iff [Nonempty ω] {as : List (PoolStep ω π φ)}
    (hinit : (threadPoolSystem ω π φ).init s) (hrun : (threadPoolSystem ω π φ).Run s as t) :
    (threadPoolSystem ω π φ).Always (fun u => ¬ u.Stranded) s as ↔
      (threadPoolSystem ω π φ).Throughout Releases s as := by
  obtain ⟨hrunning, _, hworker, _⟩ := hinit
  refine hrun.always_iff_throughout (I := Serving) (fun _ w => ?_) (fun hstranded => ?_) ?_ ?_
  · rw [hworker]
    rfl
  · cases hrunning.symm.trans hstranded.1
  · intro u a v hI henabled hexec
    cases hexec
    exact hI.step henabled
  · intro u a v hI hP henabled hexec
    cases hexec
    exact stranded_step_iff hI hP henabled

/-- A producer sleeps at the full queue when `stop` is called, and the worker ends after its
task without taking another one. -/
def stopWhileFull : List (PoolStep Unit Bool ℕ) :=
  [.testRunning (), .addTask false 1, .pushTask false none, .takeTask () none, .callTask (),
    .addTask false 2, .pushTask false none, .addTask false 3, .pushTask false none, .stop,
    .taskReturns (), .testRunning (), .stopReturns]

/-- It can happen. -/
theorem stopWhileFull_check : ((threadPoolSystem Unit Bool ℕ).replay newPool stopWhileFull).any
    (fun s => decide (s.stopper = .returned ∧ s.running = false ∧ s.AllExited ∧
      (notFull ℕ).asleep (s.producer false) = true ∧
      ∀ p, (notFull ℕ).woken (s.producer p) = false)) = true := by decide +kernel

/-- `stop` has returned, and a producer sleeps in `addTask` with no wake-up in flight. -/
theorem producer_stranded_stopWhileFull :
    ∃ s, (threadPoolSystem Unit Bool ℕ).Reachable s ∧ s.stopper = .returned ∧
      s.running = false ∧ s.AllExited ∧ (notFull ℕ).asleep (s.producer false) = true ∧
      ∀ p, (notFull ℕ).woken (s.producer p) = false := by
  obtain ⟨s, hrun, hs⟩ := System.exists_run_of_replay stopWhileFull_check
  exact ⟨s, ⟨_, _, newPool_init, hrun⟩, of_decide_eq_true hs⟩

/-- A producer sleeps at the full queue until the worker takes a task, and then `stop` is called. -/
def stopAfterWait : List (PoolStep Unit Bool ℕ) :=
  [.testRunning (), .addTask false 1, .pushTask false none, .addTask false 2, .pushTask false none,
    .takeTask () (some false), .callTask (), .pushTask false none, .stop, .taskReturns (),
    .testRunning (), .stopReturns]

instance (a : PoolStep Unit Bool ℕ) (s : ThreadPool Unit Bool ℕ) :
    Decidable (((threadPoolSystem Unit Bool ℕ).restrict Releases).enabled s a) :=
  inferInstanceAs (Decidable (s.enabled a ∧ s.Releases a))

/-- The one run does not meet the condition, and the other one meets it and strands nobody. -/
theorem strands_no_producer_iff_stopWhileFull :
    ¬ (threadPoolSystem Unit Bool ℕ).Throughout Releases newPool stopWhileFull ∧
      ∃ s, (threadPoolSystem Unit Bool ℕ).Run newPool stopAfterWait s ∧ s.stopper = .returned ∧
        (threadPoolSystem Unit Bool ℕ).Always (fun u => ¬ u.Stranded) newPool stopAfterWait := by
  refine ⟨fun hthroughout => ?_, ?_⟩
  · obtain ⟨s, hrun, hs⟩ := System.exists_run_of_replay stopWhileFull_check
    obtain ⟨_, hrunning, hall, hasleep, _⟩ := of_decide_eq_true hs
    have halways := (strands_no_producer_iff newPool_init hrun).mpr hthroughout
    exact halways _ s List.prefix_rfl hrun ⟨hrunning, hall, false, hasleep⟩
  · have hcheck : (((threadPoolSystem Unit Bool ℕ).restrict Releases).replay newPool
        stopAfterWait).any (fun s => decide (s.stopper = .returned)) = true := by decide +kernel
    obtain ⟨s, hrestricted, hs⟩ := System.exists_run_of_replay hcheck
    obtain ⟨hrun, hthroughout⟩ := hrestricted.throughout_of_restrict
    exact ⟨s, hrun, of_decide_eq_true hs,
      (strands_no_producer_iff newPool_init hrun).mpr hthroughout⟩

end Dalin.ThreadPool
