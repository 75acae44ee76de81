import Dalin.Base.ThreadPoolWaits
import Mathlib.Data.List.Infix

/-!
# The tasks of the thread pool

Several workers take tasks from one queue and run them at the same time. This
file keeps account of the tasks that were popped, called and finished, and shows
that `stop` leaves a prefix of the pushed tasks finished and the rest in the queue.
-/

set_option autoImplicit false

namespace Dalin

open Transition ThreadFamily

/-- The task that a worker has popped and not called. -/
def WorkerPlace.takenTask {φ : Type} : WorkerPlace φ → Multiset φ
  | .taken (some task) => {task}
  | _ => 0

/-- The task that a worker is in. -/
def WorkerPlace.runningTask {φ : Type} : WorkerPlace φ → Multiset φ
  | .running task => {task}
  | _ => 0

namespace ThreadPool

variable {ω π φ : Type} [Fintype ω] [DecidableEq ω] [DecidableEq π]
  {s : ThreadPool ω π φ}

/-- Every pushed task is popped or in the queue; a popped one was called or is about to be, and
a task that was called has returned or is running. -/
structure Accounted (s : ThreadPool ω π φ) : Prop where
  queued : s.dequeued ++ s.taskQueue = s.pushed
  taken : (s.dequeued : Multiset φ) = s.started + total WorkerPlace.takenTask s.worker
  running : (s.started : Multiset φ) = s.finished + total WorkerPlace.runningTask s.worker
  returned : s.stopper = .returned → s.AllExited

omit [DecidableEq π] in
/-- A worker that carries no task goes on without one. -/
theorem Accounted.moveWorker {w : ω} {place : WorkerPlace φ} (h : s.Accounted)
    (hfrom : (s.worker w).takenTask = 0 ∧ (s.worker w).runningTask = 0)
    (hplace : place.takenTask = 0 ∧ place.runningTask = 0)
    (hexited : (s.worker w).hasExited = false) : (s.moveWorker w place).Accounted := by
  refine ⟨h.queued, ?_, ?_, fun hreturned => ?_⟩
  · refine h.taken.trans (congrArg _ (total_update_of_eq ?_).symm)
    rw [hfrom.1, hplace.1]
  · refine h.running.trans (congrArg _ (total_update_of_eq ?_).symm)
    rw [hfrom.2, hplace.2]
  · cases hexited.symm.trans (h.returned hreturned w)

omit [Fintype ω] [DecidableEq ω] [DecidableEq π] in
/-- A worker that waits for the mutex carries no task and has not ended. -/
theorem idle_of_wantsMutex {place : WorkerPlace φ} (h : place.wantsMutex = true) :
    (place.takenTask = 0 ∧ place.runningTask = 0) ∧ place.hasExited = false := by
  cases place with
  | entering => exact ⟨⟨rfl, rfl⟩, rfl⟩
  | woken => exact ⟨⟨rfl, rfl⟩, rfl⟩
  | _ => cases h

omit [Fintype ω] [DecidableEq ω] [DecidableEq π] in
/-- A wake-up does not change what a worker carries. -/
theorem carries_wake (place : WorkerPlace φ) :
    ((notEmpty φ).wake place).takenTask = place.takenTask ∧
      ((notEmpty φ).wake place).runningTask = place.runningTask ∧
      ((notEmpty φ).wake place).hasExited = place.hasExited := by
  cases place <;> exact ⟨rfl, rfl, rfl⟩

omit [DecidableEq π] in
/-- A signal does not change what the workers carry. -/
theorem carries_notify (notified : Option ω) :
    total WorkerPlace.takenTask ((notEmpty φ).notify s.worker notified) =
        total WorkerPlace.takenTask s.worker ∧
      total WorkerPlace.runningTask ((notEmpty φ).notify s.worker notified) =
        total WorkerPlace.runningTask s.worker := by
  cases notified with
  | none => exact ⟨rfl, rfl⟩
  | some w =>
    obtain ⟨htaken, hrunning, _⟩ := carries_wake (s.worker w)
    exact ⟨total_update_of_eq htaken, total_update_of_eq hrunning⟩

omit [Fintype ω] [DecidableEq ω] [DecidableEq π] in
/-- A task at the end of a record is one more task. -/
theorem coe_append_singleton (tasks : List φ) (task : φ) :
    ((tasks ++ [task] : List φ) : Multiset φ) = tasks + {task} :=
  (Multiset.coe_add tasks [task]).symm

/-- `takeTask` pops the first task for its worker. -/
theorem Accounted.takeTask {w : ω} {notified : Option π} (h : s.Accounted)
    (hwants : (s.worker w).wantsMutex = true) : (s.takeTask w notified).Accounted := by
  obtain ⟨hidle, hexited⟩ := idle_of_wantsMutex hwants
  unfold ThreadPool.takeTask
  split
  · split
    · exact h.moveWorker hidle ⟨rfl, rfl⟩ hexited
    · exact h.moveWorker hidle ⟨rfl, rfl⟩ hexited
  · rename_i task rest hqueue
    refine ⟨?_, ?_, ?_, fun hreturned => ?_⟩
    · have hqueued := h.queued
      rw [hqueue] at hqueued
      change (s.dequeued ++ [task]) ++ rest = s.pushed
      rw [← hqueued, List.append_assoc]
      rfl
    · have hupdate : total WorkerPlace.takenTask
          (Function.update s.worker w (.taken (some task))) + 0 =
            total WorkerPlace.takenTask s.worker + {task} := by
        rw [← hidle.1]
        exact total_update WorkerPlace.takenTask s.worker w (.taken (some task))
      rw [add_zero] at hupdate
      change ((s.dequeued ++ [task] : List φ) : Multiset φ) = s.started +
        total WorkerPlace.takenTask (Function.update s.worker w (.taken (some task)))
      rw [hupdate, coe_append_singleton, h.taken, add_assoc]
    · refine h.running.trans (congrArg _ (total_update_of_eq ?_).symm)
      rw [hidle.2]
      rfl
    · cases hexited.symm.trans (h.returned hreturned w)

omit [DecidableEq π] in
/-- A worker calls the task that it has popped. -/
theorem Accounted.callTask {w : ω} (h : s.Accounted) (htaken : (s.worker w).hasTaken = true) :
    (s.callTask w).Accounted := by
  have hexited : (s.worker w).hasExited = false := by
    cases hw : s.worker w with
    | exited =>
      rw [hw] at htaken
      cases htaken
    | _ => rfl
  unfold ThreadPool.callTask
  split
  · rename_i task hw
    refine ⟨h.queued, ?_, ?_, fun hreturned => ?_⟩
    · have hupdate : total WorkerPlace.takenTask (Function.update s.worker w (.running task)) +
          {task} = total WorkerPlace.takenTask s.worker + 0 := by
        have hplain := total_update WorkerPlace.takenTask s.worker w (.running task)
        rw [hw] at hplain
        exact hplain
      rw [add_zero] at hupdate
      change (s.dequeued : Multiset φ) = ((s.started ++ [task] : List φ) : Multiset φ) +
        total WorkerPlace.takenTask (Function.update s.worker w (.running task))
      rw [h.taken, ← hupdate, coe_append_singleton, add_assoc, add_comm ({task} : Multiset φ)]
    · have hupdate : total WorkerPlace.runningTask (Function.update s.worker w (.running task)) +
          0 = total WorkerPlace.runningTask s.worker + {task} := by
        have hplain := total_update WorkerPlace.runningTask s.worker w (.running task)
        rw [hw] at hplain
        exact hplain
      rw [add_zero] at hupdate
      change ((s.started ++ [task] : List φ) : Multiset φ) = s.finished +
        total WorkerPlace.runningTask (Function.update s.worker w (.running task))
      rw [hupdate, coe_append_singleton, h.running, add_assoc]
    · cases hexited.symm.trans (h.returned hreturned w)
  · rename_i hother
    have hidle : (s.worker w).takenTask = 0 ∧ (s.worker w).runningTask = 0 := by
      cases hw : s.worker w with
      | taken task =>
        cases task with
        | none => exact ⟨rfl, rfl⟩
        | some task => exact absurd hw (hother task)
      | _ =>
        rw [hw] at htaken
        cases htaken
    exact h.moveWorker hidle ⟨rfl, rfl⟩ hexited

omit [DecidableEq π] in
/-- A worker returns from its task. -/
theorem Accounted.taskReturns {w : ω} (h : s.Accounted) : (s.taskReturns w).Accounted := by
  unfold ThreadPool.taskReturns
  split
  · rename_i task hw
    refine ⟨h.queued, ?_, ?_, fun hreturned => ?_⟩
    · refine h.taken.trans (congrArg _ (total_update_of_eq ?_).symm)
      rw [hw]
      rfl
    · have hupdate : total WorkerPlace.runningTask (Function.update s.worker w .testing) +
          {task} = total WorkerPlace.runningTask s.worker + 0 := by
        have hplain := total_update WorkerPlace.runningTask s.worker w .testing
        rw [hw] at hplain
        exact hplain
      rw [add_zero] at hupdate
      change (s.started : Multiset φ) = ((s.finished ++ [task] : List φ) : Multiset φ) +
        total WorkerPlace.runningTask (Function.update s.worker w .testing)
      rw [h.running, ← hupdate, coe_append_singleton, add_assoc, add_comm ({task} : Multiset φ)]
    · have hexited := h.returned hreturned w
      rw [hw] at hexited
      cases hexited
  · exact h

/-- Every step keeps account of the tasks. -/
theorem Accounted.step {a : PoolStep ω π φ} (h : s.Accounted) (henabled : s.enabled a) :
    (s.exec a).Accounted := by
  cases a with
  | testRunning w =>
    change s.worker w = .testing at henabled
    have hidle : (s.worker w).takenTask = 0 ∧ (s.worker w).runningTask = 0 := by
      rw [henabled]
      exact ⟨rfl, rfl⟩
    refine h.moveWorker hidle ?_ ?_
    · split <;> exact ⟨rfl, rfl⟩
    · rw [henabled]
      rfl
  | takeTask w notified => exact h.takeTask henabled.1
  | callTask w => exact h.callTask henabled
  | taskReturns w => exact h.taskReturns
  | addTask p task => exact ⟨h.queued, h.taken, h.running, h.returned⟩
  | pushTask p notified =>
    simp only [exec]
    split
    · rename_i task _
      unfold ThreadPool.pushTask
      split
      · exact ⟨h.queued, h.taken, h.running, h.returned⟩
      · obtain ⟨htaken, hrunning⟩ := carries_notify (s := s) notified
        refine ⟨?_, h.taken.trans (congrArg _ htaken.symm),
          h.running.trans (congrArg _ hrunning.symm), fun hreturned w => ?_⟩
        · change s.dequeued ++ (s.taskQueue ++ [task]) = s.pushed ++ [task]
          rw [← List.append_assoc, h.queued]
        · exact (hasExited_notify notified w).trans (h.returned hreturned w)
    · exact h
  | stop =>
    have hwake (w : ω) := carries_wake (s.worker w)
    refine ⟨h.queued, h.taken.trans (congrArg _ ?_), h.running.trans (congrArg _ ?_),
      fun hreturned => by cases hreturned⟩
    · exact Finset.sum_congr rfl fun w _ => (hwake w).1.symm
    · exact Finset.sum_congr rfl fun w _ => (hwake w).2.1.symm
  | stopReturns => exact ⟨h.queued, h.taken, h.running, fun _ => henabled.2⟩
  | wakeWorker w =>
    change (notEmpty φ).asleep (s.worker w) = true at henabled
    have hw : s.worker w = .asleep := by
      cases hplace : s.worker w with
      | asleep => rfl
      | _ =>
        rw [hplace] at henabled
        cases henabled
    refine h.moveWorker ?_ ?_ ?_
    · rw [hw]
      exact ⟨rfl, rfl⟩
    · rw [hw]
      exact ⟨rfl, rfl⟩
    · rw [hw]
      rfl
  | wakeProducer p => exact ⟨h.queued, h.taken, h.running, h.returned⟩

/-- It holds before the first step. -/
theorem Accounted.of_init (h : (threadPoolSystem ω π φ).init s) : s.Accounted := by
  obtain ⟨_, hqueue, hworker, _, hstopper, hpushed, hdequeued, hstarted, hfinished⟩ := h
  refine ⟨?_, ?_, ?_, fun hreturned => ?_⟩
  · rw [hqueue, hpushed, hdequeued]
    rfl
  · rw [hdequeued, hstarted, total_eq_zero fun w => by rw [hworker]; rfl]
    rfl
  · rw [hstarted, hfinished, total_eq_zero fun w => by rw [hworker]; rfl]
    rfl
  · cases hstopper.symm.trans hreturned

omit [DecidableEq ω] [DecidableEq π] in
/-- When `stop` has returned, the tasks that were popped are those that were called, and those
that have returned. -/
theorem Accounted.of_returned (h : s.Accounted) (hreturned : s.stopper = .returned) :
    s.finished.Perm s.dequeued ∧ s.started.Perm s.finished := by
  have hexited (w : ω) : s.worker w = .exited := by
    have hw := h.returned hreturned w
    cases hplace : s.worker w with
    | exited => rfl
    | _ =>
      rw [hplace] at hw
      cases hw
  have htaken := h.taken
  have hrunning := h.running
  rw [total_eq_zero fun w => by rw [hexited]; rfl, add_zero] at htaken hrunning
  exact ⟨(Multiset.coe_eq_coe.mp (htaken.trans hrunning)).symm, Multiset.coe_eq_coe.mp hrunning⟩

omit [Fintype ω] [DecidableEq ω] [DecidableEq π] in
/-- A prefix that contains an element contains what comes before it. -/
theorem mem_of_split {all done before after : List φ} {task task' : φ}
    (hall : all = before ++ task :: after) (hnodup : all.Nodup) (hdone : done <+: all)
    (hmem : task ∈ done) (hmem' : task' ∈ before) : task' ∈ done := by
  subst hall
  have hbefore : before <+: before ++ task :: after := List.prefix_append ..
  rcases List.prefix_or_prefix_of_prefix hdone hbefore with hle | hle
  · have hdisjoint := (List.nodup_append.mp hnodup).2.2
    exact absurd rfl (hdisjoint task (hle.subset hmem) task List.mem_cons_self)
  · exact hle.subset hmem'

/-- **Prefix of the pushed tasks.** Tasks are popped in the order of the pushes, and each is
called at most once. When `stop` has returned, the tasks that were popped have finished and the
others are still in the queue; a task that was called has all tasks before it finished. -/
theorem executes_in_push_order (h : (threadPoolSystem ω π φ).Reachable s) :
    s.dequeued ++ s.taskQueue = s.pushed ∧ s.started.Subperm s.dequeued ∧
    (s.stopper = .returned → s.finished.Perm s.dequeued ∧
      ∀ before task after, s.pushed = before ++ task :: after → s.pushed.Nodup →
        task ∈ s.started → ∀ task' ∈ before, task' ∈ s.finished) := by
  have haccounted : s.Accounted := by
    refine h.invariant Accounted.of_init fun hI henabled hexec => ?_
    cases hexec
    exact hI.step henabled
  refine ⟨haccounted.queued, ?_, fun hreturned => ?_⟩
  · refine Multiset.coe_le.mp ?_
    rw [haccounted.taken]
    exact Multiset.le_add_right ..
  · obtain ⟨hfinished, hstarted⟩ := haccounted.of_returned hreturned
    refine ⟨hfinished, fun before task after hall hnodup hmem task' hmem' => ?_⟩
    have hdone : s.dequeued <+: s.pushed := ⟨_, haccounted.queued⟩
    have hdequeued : task ∈ s.dequeued := (hstarted.trans hfinished).subset hmem
    exact hfinished.symm.subset (mem_of_split hall hnodup hdone hdequeued hmem')

/-- Two tasks are pushed, and `stop` comes while the first of them runs. -/
def stopDuringTask : List (PoolStep Unit Bool ℕ) :=
  [.testRunning (), .addTask false 1, .pushTask false none, .takeTask () none, .callTask (),
    .addTask true 2, .pushTask true none, .stop, .taskReturns (), .testRunning (), .stopReturns]

/-- The first task has finished, and the second one stays in the queue. -/
theorem executes_in_push_order_stopDuringTask :
    ∃ s, (threadPoolSystem Unit Bool ℕ).Reachable s ∧ s.stopper = .returned ∧
      s.pushed = [1, 2] ∧ s.taskQueue = [2] ∧ s.finished.Perm s.dequeued := by
  have hcheck : ((threadPoolSystem Unit Bool ℕ).replay newPool stopDuringTask).any (fun s =>
      decide (s.stopper = .returned ∧ s.pushed = [1, 2] ∧ s.taskQueue = [2])) = true := by
    decide +kernel
  obtain ⟨s, hrun, hs⟩ := System.exists_run_of_replay hcheck
  obtain ⟨hreturned, hpushed, hqueue⟩ := of_decide_eq_true hs
  have hreach : (threadPoolSystem Unit Bool ℕ).Reachable s := ⟨_, _, newPool_init, hrun⟩
  exact ⟨s, hreach, hreturned, hpushed, hqueue, ((executes_in_push_order hreach).2.2 hreturned).1⟩

end ThreadPool

end Dalin
