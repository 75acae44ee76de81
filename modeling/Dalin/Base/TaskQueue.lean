import Dalin.Library.MonitorWork

/-!
# The task queue of a thread pool

The critical sections of a `ThreadPool` that has threads, taken apart into single
operations on `mutex_`, `notEmpty_` and `notFull_`. Any thread may call any of the
functions, so the workers and their loop `while (running_)` are among the runs. The
tasks come out in the order in which they went in, the two `notify`s never lose a
task or a free place, and the `notifyAll` of `stop` reaches every worker.
-/

set_option autoImplicit false

namespace Dalin

open Monitors Transition

/-- The functions of a `ThreadPool` that lock `mutex_`. -/
inductive TaskQueueCall (φ : Type)
  | addTask (task : φ)
  | takeTask
  | stop
  | queueSize
  deriving DecidableEq

/-- The task that a call brings. -/
def TaskQueueCall.brings {φ : Type} : TaskQueueCall φ → Option φ
  | .addTask task => some task
  | _ => none

/-- What they return. -/
inductive TaskQueueResult (φ : Type)
  | nothing
  /-- `Task()` is `none`. -/
  | task (task : Option φ)
  | size (n : ℕ)
  deriving DecidableEq

/-- The task that a call returns. -/
def TaskQueueResult.taken {φ : Type} : TaskQueueResult φ → Option φ
  | .task returned => returned
  | _ => none

/-- The condition variables of a `ThreadPool`. -/
inductive TaskQueueCondition
  | notEmpty
  | notFull
  deriving DecidableEq

/-- What `mutex_` protects: `taskQueue_` and `running_`. -/
structure TaskQueue (φ : Type) where
  tasks : List φ
  running : Bool
  deriving DecidableEq

namespace TaskQueue

variable {φ : Type} {maxQueueSize : ℕ}

/-- `ThreadPool::isFull`. -/
def isFull (maxQueueSize : ℕ) (q : TaskQueue φ) : Bool :=
  decide (0 < maxQueueSize ∧ maxQueueSize ≤ q.tasks.length)

/-- `ThreadPool`, for calls of `addTask` that find threads. -/
def threadPool (φ : Type) (maxQueueSize : ℕ) :
    Monitor (TaskQueue φ) (TaskQueueCall φ) TaskQueueCondition (TaskQueueResult φ) where
  guard
    -- `while (isFull())`
    | .addTask _, q => !q.isFull maxQueueSize
    -- `while (taskQueue_.empty() && running_)`
    | .takeTask, q => !(q.tasks.isEmpty && q.running)
    | _, _ => true
  cond
    | .addTask _ => some .notFull
    | .takeTask => some .notEmpty
    | _ => none
  body
    | .addTask task, q => { q with tasks := q.tasks ++ [task] }
    | .takeTask, q => { q with tasks := q.tasks.tail }
    | .stop, q => { q with running := false }
    | .queueSize, q => q
  result
    | .takeTask, q => .task q.tasks.head?
    | .queueSize, q => .size q.tasks.length
    | _, _ => .nothing
  signal
    | .addTask _, _ => .one .notEmpty
    | .takeTask, q => if q.tasks ≠ [] ∧ 0 < maxQueueSize then .one .notFull else .silent
    | .stop, _ => .all .notEmpty
    | .queueSize, _ => .silent

end TaskQueue

open TaskQueue

/-- A pool in the hands of some threads, after `running_ = true` in `start`. Each thread may call
all of the functions as often as it likes. -/
abbrev taskQueueSystem (θ φ : Type) [DecidableEq θ] (maxQueueSize : ℕ) :
    System (State θ (TaskQueue φ) (TaskQueueCall φ) TaskQueueCondition (TaskQueueResult φ))
      (Action θ (TaskQueueCall φ)) Empty :=
  (threadPool φ maxQueueSize).system (fun _ _ => True) ⟨[], true⟩

/-- A call that has acted. -/
abbrev TaskQueueEntry (θ φ : Type) := Entry θ (TaskQueueCall φ) (TaskQueueResult φ)

namespace TaskQueueCall

variable {θ φ : Type}

/-- The tasks that calls of `addTask` brought. -/
def added (entries : List (TaskQueueEntry θ φ)) : List φ :=
  entries.filterMap fun e => e.call.brings

/-- The tasks that calls of `takeTask` returned. -/
def taken (entries : List (TaskQueueEntry θ φ)) : List φ :=
  entries.filterMap fun e => e.result.taken

/-- `stop` has been called. -/
def Stopped (entries : List (TaskQueueEntry θ φ)) : Prop := ∃ e ∈ entries, e.call = .stop

end TaskQueueCall

open TaskQueueCall

section

variable {θ φ : Type} {maxQueueSize : ℕ}

/-- What some calls that acted one at a time leave behind. -/
structure Queued (maxQueueSize : ℕ) (entries : List (TaskQueueEntry θ φ)) (q : TaskQueue φ) :
    Prop where
  order : added entries = taken entries ++ q.tasks
  bound : 0 < maxQueueSize → q.tasks.length ≤ maxQueueSize
  running : q.running = false ↔ Stopped entries

/-- One call more. -/
theorem Queued.snoc {entries : List (TaskQueueEntry θ φ)} {q : TaskQueue φ}
    {e : TaskQueueEntry θ φ} (h : Queued maxQueueSize entries q)
    (hguard : (threadPool φ maxQueueSize).guard e.call q = true)
    (hresult : e.result = (threadPool φ maxQueueSize).result e.call q) :
    Queued maxQueueSize (entries ++ [e]) ((threadPool φ maxQueueSize).body e.call q) := by
  obtain ⟨t, c, r⟩ := e
  change r = (threadPool φ maxQueueSize).result c q at hresult
  change (threadPool φ maxQueueSize).guard c q = true at hguard
  subst hresult
  have hstopped : Stopped (entries ++ [⟨t, c, (threadPool φ maxQueueSize).result c q⟩]) ↔
      Stopped entries ∨ c = .stop := by
    simp [Stopped, or_and_right, exists_or]
  refine ⟨?_, fun hmax => ?_, ?_⟩
  · unfold added taken
    rw [List.filterMap_append, List.filterMap_append]
    change added entries ++ _ = (taken entries ++ _) ++ _
    rw [h.order]
    cases c with
    | addTask task => simp [threadPool, brings, TaskQueueResult.taken]
    | takeTask =>
      cases htasks : q.tasks <;> simp [threadPool, brings, TaskQueueResult.taken, htasks]
    | stop | queueSize => simp [threadPool, brings, TaskQueueResult.taken]
  · have hbound := h.bound hmax
    cases c with
    | addTask task =>
      have hroom : q.tasks.length < maxQueueSize := by
        simpa [threadPool, isFull, hmax] using hguard
      change (q.tasks ++ [task]).length ≤ maxQueueSize
      rw [List.length_append, List.length_singleton]
      omega
    | takeTask =>
      change q.tasks.tail.length ≤ maxQueueSize
      rw [List.length_tail]
      omega
    | stop | queueSize => exact hbound
  · rw [hstopped, ← h.running]
    cases c with
    | stop => simp [threadPool]
    | addTask | takeTask | queueSize => simp [threadPool]

/-- All calls. -/
theorem queued_of_run {entries : List (TaskQueueEntry θ φ)} {q : TaskQueue φ}
    (h : ((threadPool φ maxQueueSize).atomic θ).Run ⟨[], true⟩ entries q) :
    Queued maxQueueSize entries q := by
  refine h.history (I := fun entries q => Queued maxQueueSize entries q) ?_
    fun {entries q e q'} hI henabled hexec => ?_
  · exact ⟨rfl, fun _ => Nat.zero_le _, by simp [Stopped]⟩
  · have hbody : (threadPool φ maxQueueSize).body e.call q = q' := Except.ok.inj hexec
    rw [← hbody]
    exact hI.snoc henabled.1 henabled.2

section

variable {θ φ : Type} [DecidableEq θ] {maxQueueSize : ℕ}
  {s t : State θ (TaskQueue φ) (TaskQueueCall φ) TaskQueueCondition (TaskQueueResult φ)}

/-- **The queue serves in order.** In every reachable state the tasks that were added are those
that were taken, in the same order, and then those in the queue, which respects its bound. Each
thread has returned from its calls in their order. A `takeTask` returned the next task that was
not taken before it, and no task only after `stop`; a `queueSize` told how many were left. -/
theorem queue_serves_in_order (h : (taskQueueSystem θ φ maxQueueSize).Reachable s) :
    added s.log = taken s.log ++ s.data.tasks ∧
      (0 < maxQueueSize → s.data.tasks.length ≤ maxQueueSize) ∧
      (∀ u, State.callsOf u s.returned <+: State.callsOf u s.log) ∧
      ∀ before e after, s.log = before ++ e :: after →
        (e.call = .takeTask → e.result = .task (added before)[(taken before).length]? ∧
          (e.result = .task none → Stopped before)) ∧
        (e.call = .queueSize →
          e.result = .size ((added before).length - (taken before).length)) := by
  obtain ⟨-, hlinear⟩ := State.linear_of_reachable h
  have hqueued := queued_of_run hlinear.atomic
  refine ⟨hqueued.order, hqueued.bound, fun u => ?_, fun before e after hlog => ?_⟩
  · rw [hlinear.own u]
    exact List.prefix_append ..
  have hrun := hlinear.atomic
  rw [hlog] at hrun
  obtain ⟨q, hbefore, hrest⟩ := hrun.split
  obtain ⟨-, ⟨hguard, hresult⟩, -, -⟩ := hrest.uncons
  have hwas := queued_of_run hbefore
  obtain ⟨u, c, r⟩ := e
  refine ⟨?_, ?_⟩
  · rintro rfl
    change r = .task q.tasks.head? at hresult
    refine ⟨?_, fun hnone => ?_⟩
    · change r = _
      rw [hresult, hwas.order, List.getElem?_append_right le_rfl, Nat.sub_self,
        List.head?_eq_getElem?]
    · change r = .task none at hnone
      have hempty : q.tasks = [] :=
        List.head?_eq_none_iff.mp (TaskQueueResult.task.inj (hresult.symm.trans hnone))
      have hstopped : q.running = false := by simpa [threadPool, hempty] using hguard
      exact hwas.running.mp hstopped
  · rintro rfl
    change r = .size q.tasks.length at hresult
    change r = _
    rw [hresult, hwas.order, List.length_append, Nat.add_sub_cancel_left]

/-- The part of the guards that `stop` makes true for everybody, or that is always true. -/
def heeded (maxQueueSize : ℕ) : TaskQueueCall φ → TaskQueue φ → Bool
  | .addTask _, _ => decide (maxQueueSize = 0)
  | .takeTask, q => !q.running
  | _, _ => true

omit [DecidableEq θ] in
/-- `stop` notifies all workers. -/
theorem threadPool_attentive : State.Attentive (threadPool φ maxQueueSize)
    (fun (_ : θ) (_ : TaskQueueCall φ) => True) (heeded maxQueueSize) := by
  refine ⟨fun c q hheed => ?_, fun c c' q hfalse _ htrue => ?_⟩
  · cases c with
    | addTask task =>
      have hmax : maxQueueSize = 0 := of_decide_eq_true hheed
      simp [threadPool, isFull, hmax]
    | takeTask =>
      have hstopped : q.running = false := by simpa [heeded] using hheed
      simp [threadPool, hstopped]
    | stop | queueSize => rfl
  · cases c with
    | addTask task => cases hfalse.symm.trans htrue
    | takeTask =>
      cases c' with
      | stop => exact ⟨.notEmpty, rfl, .inl rfl⟩
      | addTask | takeTask | queueSize => cases hfalse.symm.trans htrue
    | stop | queueSize => cases hfalse

/-- A worker waits for a task, and `addTask` signals for the one that it brings. -/
theorem threadPool_announces_notEmpty :
    Announces (threadPool φ maxQueueSize) .notEmpty fun q => q.tasks.length := by
  refine ⟨fun c q hcond hfalse => ?_, fun c q hguard => ?_⟩
  · cases c with
    | takeTask =>
      have hempty : q.tasks = [] ∧ q.running = true := by simpa [threadPool] using hfalse
      rw [hempty.1, List.length_nil]
    | addTask | stop | queueSize => cases hcond
  · cases c with
    | addTask task => simp [threadPool]
    | takeTask => simp [threadPool]
    | stop | queueSize => simp [threadPool]

/-- A producer waits for a free place, and `takeTask` signals for the one that it leaves. -/
theorem threadPool_announces_notFull :
    Announces (threadPool φ maxQueueSize) .notFull fun q => maxQueueSize - q.tasks.length := by
  refine ⟨fun c q hcond hfalse => ?_, fun c q hguard => ?_⟩
  · cases c with
    | addTask task =>
      have hfull : 0 < maxQueueSize ∧ maxQueueSize ≤ q.tasks.length := by
        simpa [threadPool, isFull] using hfalse
      omega
    | takeTask | stop | queueSize => cases hcond
  · cases c with
    | addTask task =>
      change maxQueueSize - (q.tasks ++ [task]).length ≤ maxQueueSize - q.tasks.length - 1 + 0
      rw [List.length_append, List.length_singleton]
      omega
    | takeTask =>
      have hsignal : (threadPool φ maxQueueSize).signal .takeTask q =
          if q.tasks ≠ [] ∧ 0 < maxQueueSize then .one .notFull else .silent := rfl
      change maxQueueSize - q.tasks.tail.length ≤ maxQueueSize - q.tasks.length - 0 + _
      rw [hsignal, List.length_tail]
      by_cases hsignals : q.tasks ≠ [] ∧ 0 < maxQueueSize
      · rw [if_pos hsignals, if_pos rfl]
        omega
      · have hnone : q.tasks.length = 0 ∨ maxQueueSize = 0 := by
          rw [List.length_eq_zero_iff]
          by_contra hboth
          obtain ⟨htasks, hmax⟩ := not_or.mp hboth
          exact hsignals ⟨htasks, by omega⟩
        rw [if_neg hsignals, if_neg (by decide)]
        omega
    | stop | queueSize => simp [threadPool]

/-- Whoever could take or bring a task does not sleep unless another thread sees to it. -/
theorem threadPool_roused [Fintype θ] (h : (taskQueueSystem θ φ maxQueueSize).Reachable s) :
    State.Roused (threadPool φ maxQueueSize) s := by
  intro u c hasleep hguard
  have hheard := State.heard_of_reachable threadPool_attentive h
  have hsignalled (hheed : heeded maxQueueSize c s.data = true) :
      ∃ v, (s.place v).moving = true := by
    obtain ⟨v, c', r, sig, hv, -⟩ := hheard.signalled u c hasleep hheed
    exact ⟨v, by simp [hv, Place.moving]⟩
  cases c with
  | addTask task =>
    by_cases hmax : maxQueueSize = 0
    · exact hsignalled (decide_eq_true hmax)
    have hroom : s.data.tasks.length < maxQueueSize := by
      have hnot := of_decide_eq_false (Bool.not_eq_true' _ ▸ hguard)
      omega
    exact (State.enough_of_reachable threadPool_announces_notFull h).exists_moving hasleep rfl
      (by omega)
  | takeTask =>
    cases hrunning : s.data.running with
    | false => exact hsignalled (by simp [heeded, hrunning])
    | true =>
      have htasks : s.data.tasks ≠ [] := by simpa [threadPool, hrunning] using hguard
      exact (State.enough_of_reachable threadPool_announces_notEmpty h).exists_moving hasleep rfl
        (List.length_pos_iff.mpr htasks)
  | stop | queueSize => exact hsignalled rfl

/-- **A pool comes to rest only when it has to.** In every reachable state a thread that is awake
in a call can go on; or those in a call are workers asleep at an empty queue that has not been
stopped, or producers asleep at a full one. -/
theorem pool_goes_on [Fintype θ] (h : (taskQueueSystem θ φ maxQueueSize).Reachable s) :
    (∃ a, (taskQueueSystem θ φ maxQueueSize).enabled s a ∧ a.continues = true ∧
        (s.place a.thread).moving = true) ∨
      ∀ u, s.place u = .outside ∨
        s.place u = .asleep .takeTask ∧ s.data.tasks = [] ∧ ¬Stopped s.log ∨
        ∃ task, s.place u = .asleep (.addTask task) ∧ 0 < maxQueueSize ∧
          s.data.tasks.length = maxQueueSize := by
  obtain ⟨hexcl, hlinear⟩ := State.linear_of_reachable h
  have hqueued := queued_of_run hlinear.atomic
  rcases (threadPool_roused h).goes_on (fun _ _ => True) hexcl with hstep | hrest
  · exact .inl hstep
  refine .inr fun u => ?_
  rcases hrest u with houtside | ⟨c, hasleep, hfalse⟩
  · exact .inl houtside
  cases c with
  | takeTask =>
    have hempty : s.data.tasks = [] ∧ s.data.running = true := by simpa [threadPool] using hfalse
    refine .inr (.inl ⟨hasleep, hempty.1, fun hstopped => ?_⟩)
    cases hempty.2.symm.trans (hqueued.running.mpr hstopped)
  | addTask task =>
    have hfull : 0 < maxQueueSize ∧ maxQueueSize ≤ s.data.tasks.length := by
      simpa [threadPool, isFull] using hfalse
    have hbound := hqueued.bound hfull.1
    exact .inr (.inr ⟨task, hasleep, hfull.1, by omega⟩)
  | stop | queueSize => cases hfalse

/-- In a stopped pool without a bound nobody has to wait. -/
theorem threadPool_lasting :
    State.Lasting (threadPool φ 0) (fun q => q.running = false) := by
  refine ⟨fun c q hstopped => ?_, fun c q hstopped => ?_⟩
  · cases c with
    | addTask task => rfl
    | takeTask => simp [threadPool, hstopped]
    | stop | queueSize => rfl
  · cases c with
    | stop => rfl
    | addTask | takeTask | queueSize => exact hstopped

/-- **A stopped pool lets everybody go.** Once `stop` has acted on a pool without a bound, each of
the threads in its functions makes at most seven steps without new calls, and one that is awake can
take the next step until all of them have returned. -/
theorem stopped_pool_lets_go [Fintype θ] {as : List (Action θ (TaskQueueCall φ))}
    (h : (taskQueueSystem θ φ 0).Reachable s) (hstopped : Stopped s.log)
    (hrun : ((threadPool φ 0).continuing (fun _ _ => True) ⟨[], true⟩).Run s as t) :
    (∀ u, (as.countP fun a => a.thread = u) ≤ 7) ∧
      ((∃ a, ((threadPool φ 0).continuing (fun _ _ => True) ⟨[], true⟩).enabled t a ∧
          (t.place a.thread).moving = true) ∨
        ∀ u, t.place u = .outside) := by
  have hqueued := queued_of_run (State.linear_of_reachable h).2.atomic
  have hfree := threadPool_lasting.always (hqueued.running.mpr hstopped) (fun _ _ => True)
    ⟨[], true⟩ as
  exact State.all_return threadPool_roused h hfree hrun

end

end

/-- A pool that nobody has used. -/
def newTaskQueue : State Bool (TaskQueue ℕ) (TaskQueueCall ℕ) TaskQueueCondition
    (TaskQueueResult ℕ) := ⟨⟨[], true⟩, none, fun _ => .outside, [], []⟩

/-- A thread calls a function and returns, if its guard is true. -/
def throughCall (t : Bool) (c : TaskQueueCall ℕ) (notified : Option Bool) :
    List (Action Bool (TaskQueueCall ℕ)) :=
  [.call t c, .acquire t, .test t, .act t, .signal t notified, .leave t]

/-- A thread calls a function and falls asleep. -/
def sleepInCall (t : Bool) (c : TaskQueueCall ℕ) : List (Action Bool (TaskQueueCall ℕ)) :=
  [.call t c, .acquire t, .test t, .sleep t]

/-- A producer fills a queue for one task and waits until a worker takes the task. -/
def fillAndTake : List (Action Bool (TaskQueueCall ℕ)) :=
  throughCall false (.addTask 7) none ++ sleepInCall false (.addTask 8) ++
    throughCall true .takeTask (some false) ++
    [.acquire false, .test false, .act false, .signal false none, .leave false]

/-- A worker waits, and another thread calls `stop` but has not notified yet. -/
def stopBeforeNotify : List (Action Bool (TaskQueueCall ℕ)) :=
  sleepInCall true .takeTask ++ [.call false .stop, .acquire false, .test false, .act false]

/-- Both return. -/
def notifyAllAndReturn : List (Action Bool (TaskQueueCall ℕ)) :=
  [.signal false none, .leave false, .acquire true, .test true, .act true, .signal true none,
    .leave true]

/-- A run of a pool that nobody has used ends in a reachable state. -/
theorem newTaskQueue_reachable {maxQueueSize : ℕ} {s : State Bool (TaskQueue ℕ) (TaskQueueCall ℕ)
      TaskQueueCondition (TaskQueueResult ℕ)} {as : List (Action Bool (TaskQueueCall ℕ))}
    (h : (taskQueueSystem Bool ℕ maxQueueSize).Run newTaskQueue as s) :
    (taskQueueSystem Bool ℕ maxQueueSize).Reachable s :=
  ⟨newTaskQueue, as, ⟨rfl, rfl, fun _ => rfl, rfl, rfl⟩, h⟩

/-- The worker has taken the first task, and the second one is in the queue. -/
theorem queue_serves_in_order_fillAndTake : ∃ s : State Bool (TaskQueue ℕ) (TaskQueueCall ℕ)
    TaskQueueCondition (TaskQueueResult ℕ), added s.log = [7, 8] ∧ taken s.log = [7] ∧
      added s.log = taken s.log ++ s.data.tasks := by
  have hcheck : ((taskQueueSystem Bool ℕ 1).replay newTaskQueue fillAndTake).any
      (fun s => decide (added s.log = [7, 8] ∧ taken s.log = [7])) = true := by decide +kernel
  obtain ⟨s, hrun, hs⟩ := System.exists_run_of_replay hcheck
  obtain ⟨hadded, htaken⟩ := of_decide_eq_true hs
  exact ⟨s, hadded, htaken, (queue_serves_in_order (newTaskQueue_reachable hrun)).1⟩

/-- The worker sleeps although `stop` has acted, and the pool goes on. -/
theorem pool_goes_on_stopBeforeNotify : ∃ s : State Bool (TaskQueue ℕ) (TaskQueueCall ℕ)
    TaskQueueCondition (TaskQueueResult ℕ), s.place true = .asleep .takeTask ∧
      ((∃ a, (taskQueueSystem Bool ℕ 0).enabled s a ∧ a.continues = true ∧
          (s.place a.thread).moving = true) ∨
        ∀ u, s.place u = .outside ∨
          s.place u = .asleep .takeTask ∧ s.data.tasks = [] ∧ ¬Stopped s.log ∨
          ∃ task, s.place u = .asleep (.addTask task) ∧ 0 < 0 ∧ s.data.tasks.length = 0) := by
  have hcheck : ((taskQueueSystem Bool ℕ 0).replay newTaskQueue stopBeforeNotify).any
      (fun s => decide (s.place true = .asleep .takeTask)) = true := by decide +kernel
  obtain ⟨s, hrun, hs⟩ := System.exists_run_of_replay hcheck
  exact ⟨s, of_decide_eq_true hs, pool_goes_on (newTaskQueue_reachable hrun)⟩

/-- From there both return in seven steps. -/
theorem stopped_pool_lets_go_notifyAllAndReturn : ∃ s t : State Bool (TaskQueue ℕ)
    (TaskQueueCall ℕ) TaskQueueCondition (TaskQueueResult ℕ),
    s.place true = .asleep .takeTask ∧
      (∀ u, (notifyAllAndReturn.countP fun a => a.thread = u) ≤ 7) ∧
      ((∃ a, ((threadPool ℕ 0).continuing (fun (_ : Bool) _ => True) ⟨[], true⟩).enabled t a ∧
          (t.place a.thread).moving = true) ∨
        ∀ u, t.place u = .outside) := by
  have hcheck : ((taskQueueSystem Bool ℕ 0).replay newTaskQueue stopBeforeNotify).any
      (fun s => decide (s.place true = .asleep .takeTask ∧ ∃ e ∈ s.log, e.call = .stop) &&
        (((threadPool ℕ 0).continuing (fun (_ : Bool) _ => True) ⟨[], true⟩).replay s
          notifyAllAndReturn).isSome) = true := by decide +kernel
  obtain ⟨s, hrun, hs⟩ := System.exists_run_of_replay hcheck
  obtain ⟨hfirst, hrest⟩ := Bool.and_eq_true_iff.mp hs
  obtain ⟨hasleep, hstopped⟩ := of_decide_eq_true hfirst
  obtain ⟨t, ht⟩ := Option.isSome_iff_exists.mp hrest
  exact ⟨s, t, hasleep,
    stopped_pool_lets_go (newTaskQueue_reachable hrun) hstopped (System.run_of_replay ht)⟩

end Dalin
