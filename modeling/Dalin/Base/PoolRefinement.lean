import Dalin.Base.PoolSteps
import Dalin.Base.ThreadPoolTasks

/-!
# The critical sections of the thread pool

The program of single operations on `mutex_`, `notEmpty_` and `notFull_` does what the
program of whole critical sections does. A critical section takes effect at its signal,
when the thread that it wakes is known; that of `stop` takes effect already when it
changes `running_`, which the workers read without the mutex. So what holds of whole
critical sections holds of the pool as it is written.
-/

set_option autoImplicit false

namespace Dalin

open Transition Monitors ThreadFamily TaskQueue TaskQueueCall

namespace PoolProgram

section

variable {ω π φ : Type} [DecidableEq ω] [DecidableEq π] {maxQueueSize : ℕ}
  {s : PoolProgram ω π φ} {c : ThreadPool ω π φ} {t : PoolThread ω π}
  {k : TaskQueueCall φ} {r : TaskQueueResult φ}

/-! ### Signals -/

omit [DecidableEq ω] [DecidableEq π] in
/-- A producer sleeps for both programs or for neither. -/
theorem asleep_notFull (maxQueueSize : ℕ) {place : ProducerPlace φ}
    {p : Place (TaskQueueCall φ) TaskQueueCondition (TaskQueueResult φ)}
    (h : ProducerAt place p) :
    ((threadPool φ maxQueueSize).condition .notFull).asleep p = (notFull φ).asleep place := by
  cases p with
  | outside | leaving =>
    change place = .outside at h
    subst h
    rfl
  | asleep k =>
    obtain ⟨task, rfl, rfl⟩ := h
    rfl
  | entering k | testing k | waiting k | ready k | signalling k _ _ =>
    cases k with
    | addTask task =>
      change place.wantsMutex = some task at h
      cases place with
      | asleep => cases h
      | _ => rfl
    | queueSize =>
      change place = .outside at h
      subst h
      rfl
    | takeTask | stop => exact h.elim

omit [DecidableEq ω] [DecidableEq π] in
/-- A worker sleeps for both programs or for neither, unless `stop` is about to notify it. -/
theorem asleep_notEmpty (maxQueueSize : ℕ) {loop : LoopPlace φ} {place : WorkerPlace φ}
    {p : Place (TaskQueueCall φ) TaskQueueCondition (TaskQueueResult φ)}
    (h : WorkerAt false loop place p) :
    ((threadPool φ maxQueueSize).condition .notEmpty).asleep p = (notEmpty φ).asleep place := by
  cases p with
  | outside =>
    change loop.At place at h
    cases loop with
    | taking =>
      change place.wantsMutex = true at h
      cases place with
      | asleep => cases h
      | _ => rfl
    | _ =>
      cases h
      rfl
  | leaving k r =>
    obtain ⟨-, -, rfl⟩ := h
    rfl
  | asleep k =>
    obtain ⟨rfl, -, rfl⟩ := h
    rfl
  | entering k | testing k | waiting k | ready k | signalling k _ _ =>
    obtain ⟨-, -, h⟩ := h
    cases place with
    | asleep => cases h
    | _ => rfl

/-- A signal on `notFull_` wakes the same producer for both programs. -/
theorem exists_notFull {notified : Option (PoolThread ω π)}
    (hat : ∀ u, s.At c false u (s.sections.place u))
    (hsignals : ((threadPool φ maxQueueSize).condition .notFull).Signals s.sections.place
      notified) :
    ∃ notified', (notFull φ).Signals c.producer notified' ∧
      (∀ v, ProducerAt ((notFull φ).notify c.producer notified' v)
        (((threadPool φ maxQueueSize).condition .notFull).notify s.sections.place notified
          (.producer v))) ∧
      ∀ u, (∀ v, u ≠ .producer v) → ((threadPool φ maxQueueSize).condition .notFull).notify
        s.sections.place notified u = s.sections.place u := by
  refine Condition.exists_signals (R := fun _ p place => ProducerAt place p)
    (fun _ _ heq => PoolThread.producer.inj heq) (fun v => hat (.producer v))
    (asleep_notFull maxQueueSize) (fun {v p place} hp hasleep => ?_) (fun u hasleep => ?_) hsignals
  · obtain ⟨k, rfl, -⟩ := Monitor.asleep_iff.mp hasleep
    obtain ⟨task, rfl, rfl⟩ := hp
    exact (rfl : (some task : Option φ) = some task)
  · obtain ⟨k, hk, hcond⟩ := Monitor.asleep_iff.mp hasleep
    have hu := hat u
    rw [hk] at hu
    cases u with
    | producer v => exact ⟨v, rfl⟩
    | worker w =>
      obtain ⟨rfl, -, -⟩ := hu
      cases hcond
    | stopper => exact hu.elim

/-- A signal on `notEmpty_` wakes the same worker for both programs. -/
theorem exists_notEmpty {notified : Option (PoolThread ω π)}
    (hat : ∀ u, s.At c false u (s.sections.place u))
    (hsignals : ((threadPool φ maxQueueSize).condition .notEmpty).Signals s.sections.place
      notified) :
    ∃ notified', (notEmpty φ).Signals c.worker notified' ∧
      (∀ w, WorkerAt false (s.loop w) ((notEmpty φ).notify c.worker notified' w)
        (((threadPool φ maxQueueSize).condition .notEmpty).notify s.sections.place notified
          (.worker w))) ∧
      ∀ u, (∀ w, u ≠ .worker w) → ((threadPool φ maxQueueSize).condition .notEmpty).notify
        s.sections.place notified u = s.sections.place u := by
  refine Condition.exists_signals (R := fun w p place => WorkerAt false (s.loop w) place p)
    (fun _ _ heq => PoolThread.worker.inj heq) (fun w => hat (.worker w))
    (asleep_notEmpty maxQueueSize) (fun {w p place} hp hasleep => ?_) (fun u hasleep => ?_) hsignals
  · obtain ⟨k, rfl, -⟩ := Monitor.asleep_iff.mp hasleep
    obtain ⟨rfl, hloop, rfl⟩ := hp
    exact ⟨rfl, hloop, rfl⟩
  · obtain ⟨k, hk, hcond⟩ := Monitor.asleep_iff.mp hasleep
    have hu := hat u
    rw [hk] at hu
    cases u with
    | worker w => exact ⟨w, rfl⟩
    | producer v =>
      obtain ⟨task, rfl, -⟩ := hu
      cases hcond
    | stopper => exact hu.elim

/-! ### The effect of a critical section -/

omit [DecidableEq ω] [DecidableEq π] in
/-- One call more. -/
theorem added_snoc (entries : List (TaskQueueEntry (PoolThread ω π) φ))
    (e : TaskQueueEntry (PoolThread ω π) φ) :
    added (entries ++ [e]) = added entries ++ e.call.brings.toList := by
  unfold added
  rw [List.filterMap_append]
  cases hbrings : e.call.brings <;> simp [hbrings]

omit [DecidableEq ω] [DecidableEq π] in
/-- One call more. -/
theorem taken_snoc (entries : List (TaskQueueEntry (PoolThread ω π) φ))
    (e : TaskQueueEntry (PoolThread ω π) φ) :
    taken (entries ++ [e]) = taken entries ++ e.result.taken.toList := by
  unfold taken
  rw [List.filterMap_append]
  cases htaken : e.result.taken <;> simp [htaken]

/-- `stop` changes `running_`, and the workers that sleep are awake for the other program. -/
theorem Refines.actStop (h : s.Refines maxQueueSize c)
    (hexcl : State.Exclusive (threadPool φ maxQueueSize) s.sections)
    (hplace : s.sections.place .stopper = .ready .stop) :
    Followed maxQueueSize c { s with
      sections := { s.sections.move .stopper (.signalling .stop .nothing (.all .notEmpty)) with
        data := { s.sections.data with running := false }
        log := s.sections.log ++ [⟨.stopper, .stop, .nothing⟩] } } := by
  have hquiet (u : PoolThread ω π) : atSignal (s.sections.place u) = false :=
    quiet_of_inside (t := .stopper) hexcl (by rw [hplace]; rfl) (by rw [hplace]; rfl) u
  have htells := h.told.tells fun u _ => hquiet u
  have hat : StopperAt s.stopper c.stopper (s.sections.place .stopper) := h.place .stopper
  rw [hplace] at hat
  obtain ⟨-, hpast, hstopper⟩ := hat
  refine Refines.followed_step (b := .stop) ⟨h.bound, .settled (fun u hu => ?_) ?_, fun u => ?_,
    h.started, h.finished⟩ hstopper
  · change atSignal ((s.sections.move .stopper _).place u) = false
    rw [State.move_place_of_ne hu]
    exact hquiet u
  · refine ⟨htells.tasks, rfl, ?_, ?_⟩
    · change c.pushed = added (s.sections.log ++ [⟨.stopper, .stop, .nothing⟩])
      rw [added_snoc, htells.pushed]
      exact (List.append_nil _).symm
    · change c.dequeued = taken (s.sections.log ++ [⟨.stopper, .stop, .nothing⟩])
      rw [taken_snoc, htells.dequeued]
      exact (List.append_nil _).symm
  · have hu := h.place u
    rw [hquiet .stopper] at hu
    dsimp only
    rw [State.move_place_self]
    cases u with
    | stopper =>
      rw [State.move_place_self]
      exact ⟨rfl, rfl, hpast, rfl⟩
    | producer v =>
      rw [State.move_place_of_ne (by simp)]
      exact hu
    | worker w =>
      rw [State.move_place_of_ne (by simp)]
      change WorkerAt true (s.loop w) ((notEmpty φ).wake (c.worker w)) _
      change WorkerAt false (s.loop w) (c.worker w) _ at hu
      cases hp : s.sections.place (.worker w) with
      | asleep k =>
        rw [hp] at hu
        obtain ⟨rfl, hloop, hw⟩ := hu
        rw [hw]
        exact ⟨rfl, hloop, rfl⟩
      | _ =>
        have hawake := (asleep_notEmpty maxQueueSize hu).symm
        rw [(notEmpty φ).wake_awake _ (by rw [hawake, hp]; rfl)]
        rw [hp] at hu
        exact hu

/-- Another function changes the queue, which is not told before its signal. -/
theorem Refines.act (h : s.Refines maxQueueSize c)
    (hexcl : State.Exclusive (threadPool φ maxQueueSize) s.sections)
    (hplace : s.sections.place t = .ready k) :
    Followed maxQueueSize c { s with
      sections := { s.sections.move t (.signalling k
          ((threadPool φ maxQueueSize).result k s.sections.data)
          ((threadPool φ maxQueueSize).signal k s.sections.data)) with
        data := (threadPool φ maxQueueSize).body k s.sections.data
        log := s.sections.log ++
          [⟨t, k, (threadPool φ maxQueueSize).result k s.sections.data⟩] } } := by
  have hat := h.place t
  rw [hplace] at hat
  by_cases ht : t = .stopper
  · subst ht
    obtain ⟨rfl, -, -⟩ := hat
    exact h.actStop hexcl hplace
  have hquiet (u : PoolThread ω π) : atSignal (s.sections.place u) = false :=
    quiet_of_inside (t := t) hexcl (by rw [hplace]; rfl) (by rw [hplace]; rfl) u
  refine Refines.followed ⟨h.bound, .acted ht (State.move_place_self ..)
    (hexcl.ready t k hplace) rfl rfl (h.told.tells fun u _ => hquiet u), fun u => ?_, h.started,
    h.finished⟩
  dsimp only
  rw [State.move_place_of_ne (Ne.symm ht)]
  by_cases hu : u = t
  · subst hu
    rw [State.move_place_self]
    cases u with
    | stopper => exact absurd rfl ht
    | worker | producer => exact hat
  · rw [State.move_place_of_ne hu]
    exact h.place u

/-- A thread has signalled, and the other program has followed. -/
theorem Refines.of_signal {sig : Signal TaskQueueCondition} {notified : Option (PoolThread ω π)}
    (hexcl : State.Exclusive (threadPool φ maxQueueSize) s.sections)
    (hplace : s.sections.place t = .signalling k r sig) (hbound : c.maxQueueSize = maxQueueSize)
    (htells : Tells s.sections.log s.sections.data c)
    (hself : s.At c false t (.leaving k r))
    (helse : ∀ u, u ≠ t → s.At c false u
      (s.sections.signalled (threadPool φ maxQueueSize) notified sig u))
    (hstarted : c.started = s.started) (hfinished : c.finished = s.finished) :
    Refines maxQueueSize { s with
      sections := { s.sections with
        place := Function.update
          (s.sections.signalled (threadPool φ maxQueueSize) notified sig) t (.leaving k r) } }
      c := by
  have hsignal : atSignal (s.sections.place t) = true := by
    rw [hplace]
    rfl
  have hquiet (u : PoolThread ω π) : atSignal (Function.update (s.sections.signalled
      (threadPool φ maxQueueSize) notified sig) t (.leaving k r) u) = false := by
    by_cases hu : u = t
    · subst hu
      rw [Function.update_self]
      rfl
    · rw [Function.update_of_ne hu]
      have hwas : atSignal (s.sections.place u) = false := by
        by_contra htrue
        exact hu (eq_of_atSignal hexcl (Bool.not_eq_false _ ▸ htrue) hsignal)
      rcases s.sections.signalled_eq (M := threadPool φ maxQueueSize) notified sig u with heq | heq
      · rw [heq]
        exact hwas
      · rw [heq]
        cases hp : s.sections.place u with
        | signalling =>
          rw [hp] at hwas
          cases hwas
        | _ => rfl
  refine ⟨hbound, .settled (fun u _ => hquiet u) htells, fun u => ?_, hstarted, hfinished⟩
  dsimp only
  rw [hquiet .stopper]
  by_cases hu : u = t
  · subst hu
    rw [Function.update_self]
    exact hself
  · rw [Function.update_of_ne hu]
    exact helse u hu

omit [DecidableEq ω] [DecidableEq π] in
/-- A call is told. -/
theorem tells_snoc {entries : List (TaskQueueEntry (PoolThread ω π) φ)} {q : TaskQueue φ}
    {c' : ThreadPool ω π φ} (h : Tells entries q c)
    (htasks : c'.taskQueue = ((threadPool φ maxQueueSize).body k q).tasks)
    (hrunning : c'.running = ((threadPool φ maxQueueSize).body k q).running)
    (hpushed : c'.pushed = c.pushed ++ k.brings.toList)
    (hdequeued : c'.dequeued =
      c.dequeued ++ ((threadPool φ maxQueueSize).result k q).taken.toList) :
    Tells (entries ++ [⟨t, k, (threadPool φ maxQueueSize).result k q⟩])
      ((threadPool φ maxQueueSize).body k q) c' := by
  refine ⟨htasks, hrunning, ?_, ?_⟩
  · rw [hpushed, added_snoc, h.pushed]
  · rw [hdequeued, taken_snoc, h.dequeued]

/-- `stop` notifies the workers, which are awake already for the other program. -/
theorem Refines.signalStop {sig : Signal TaskQueueCondition}
    {notified : Option (PoolThread ω π)} (h : s.Refines maxQueueSize c)
    (hexcl : State.Exclusive (threadPool φ maxQueueSize) s.sections)
    (hplace : s.sections.place .stopper = .signalling k r sig) :
    Followed maxQueueSize c { s with
      sections := { s.sections with
        place := Function.update (s.sections.signalled (threadPool φ maxQueueSize) notified sig)
          .stopper (.leaving k r) } } := by
  have hsignal : atSignal (s.sections.place .stopper) = true := by
    rw [hplace]
    rfl
  have hat : StopperAt s.stopper c.stopper (s.sections.place .stopper) := h.place .stopper
  rw [hplace] at hat
  obtain ⟨rfl, rfl, hpast, hjoining⟩ := hat
  have htells : Tells s.sections.log s.sections.data c := h.told.tells fun u hu => by
    by_contra htrue
    exact hu (eq_of_atSignal hexcl (Bool.not_eq_false _ ▸ htrue) hsignal)
  refine Refines.followed (Refines.of_signal hexcl hplace h.bound htells ⟨rfl, hpast, hjoining⟩
    (fun u hu => ?_) h.started h.finished)
  have hwas := h.place u
  rw [hsignal] at hwas
  cases u with
  | stopper => exact absurd rfl hu
  | worker w =>
    change WorkerAt false (s.loop w) (c.worker w)
      (((threadPool φ maxQueueSize).condition .notEmpty).wake (s.sections.place (.worker w)))
    cases hp : s.sections.place (.worker w) with
    | asleep k =>
      rw [hp] at hwas
      obtain ⟨rfl, hloop, hw⟩ := hwas
      refine ⟨rfl, hloop, ?_⟩
      rw [hw]
      rfl
    | _ =>
      rw [hp] at hwas
      exact hwas
  | producer v =>
    change ProducerAt (c.producer v)
      (((threadPool φ maxQueueSize).condition .notEmpty).wake (s.sections.place (.producer v)))
    cases hp : s.sections.place (.producer v) with
    | asleep k =>
      rw [hp] at hwas
      obtain ⟨task, rfl, hv⟩ := hwas
      exact ⟨task, rfl, hv⟩
    | _ =>
      rw [hp] at hwas
      exact hwas

/-- A signal of `takeTask` wakes the same producer for both programs, if any. -/
theorem exists_notified {q : TaskQueue φ} {notified : Option (PoolThread ω π)}
    (hbound : c.maxQueueSize = maxQueueSize) (htasks : c.taskQueue = q.tasks)
    (hat : ∀ u, s.At c false u (s.sections.place u))
    (hchooses : s.sections.Chooses (threadPool φ maxQueueSize) notified
      ((threadPool φ maxQueueSize).signal .takeTask q)) :
    ∃ notified', (if c.taskQueue = [] ∨ c.maxQueueSize = 0 then notified' = none
        else (notFull φ).Signals c.producer notified') ∧
      (∀ v, ProducerAt ((if c.taskQueue ≠ [] ∧ 0 < c.maxQueueSize then
          (notFull φ).notify c.producer notified' else c.producer) v)
        (s.sections.signalled (threadPool φ maxQueueSize) notified
          ((threadPool φ maxQueueSize).signal .takeTask q) (.producer v))) ∧
      ∀ u, (∀ v, u ≠ .producer v) →
        s.sections.signalled (threadPool φ maxQueueSize) notified
          ((threadPool φ maxQueueSize).signal .takeTask q) u = s.sections.place u := by
  have hsig : (threadPool φ maxQueueSize).signal .takeTask q =
      if c.taskQueue ≠ [] ∧ 0 < c.maxQueueSize then .one .notFull else .silent := by
    rw [htasks, hbound]
    rfl
  rw [hsig] at hchooses ⊢
  by_cases hsignals : c.taskQueue ≠ [] ∧ 0 < c.maxQueueSize
  · simp only [if_pos hsignals] at hchooses ⊢
    have hnot : ¬(c.taskQueue = [] ∨ c.maxQueueSize = 0) := by
      rintro (hempty | hzero)
      · exact hsignals.1 hempty
      · omega
    simp only [if_neg hnot]
    exact exists_notFull hat hchooses
  · simp only [if_neg hsignals] at hchooses ⊢
    have hnone : c.taskQueue = [] ∨ c.maxQueueSize = 0 := by
      by_contra hboth
      obtain ⟨htasks, hmax⟩ := not_or.mp hboth
      exact hsignals ⟨htasks, by omega⟩
    simp only [if_pos hnone]
    exact ⟨none, rfl, fun v => hat (.producer v), fun _ _ => rfl⟩

/-- A worker returns from `takeTask` with what the other program gives it. -/
theorem Refines.signalTake {w : ω} {sig : Signal TaskQueueCondition}
    {notified : Option (PoolThread ω π)} (h : s.Refines maxQueueSize c)
    (hexcl : State.Exclusive (threadPool φ maxQueueSize) s.sections)
    (hplace : s.sections.place (.worker w) = .signalling k r sig)
    (hstop : atSignal (s.sections.place .stopper) = false)
    (hchooses : s.sections.Chooses (threadPool φ maxQueueSize) notified sig) :
    Followed maxQueueSize c { s with
      sections := { s.sections with
        place := Function.update (s.sections.signalled (threadPool φ maxQueueSize) notified sig)
          (.worker w) (.leaving k r) } } := by
  have hall (u : PoolThread ω π) : s.At c false u (s.sections.place u) := hstop ▸ h.place u
  have hat := hall (.worker w)
  rw [hplace] at hat
  obtain ⟨rfl, hloop, hwants⟩ := hat
  obtain ⟨q, entries, rfl, rfl, hguard, hlog, hdata, htells⟩ :=
    h.told.due hexcl (by simp) hplace
  obtain ⟨notified', hsignals, hproducers, hothers⟩ :=
    exists_notified h.bound htells.tasks hall hchooses
  have hexec : c.exec (.takeTask w notified') = { c.moveWorker w (.taken q.tasks.head?) with
      taskQueue := q.tasks.tail
      dequeued := c.dequeued ++ q.tasks.head?.toList
      producer := if c.taskQueue ≠ [] ∧ 0 < c.maxQueueSize then
        (notFull φ).notify c.producer notified' else c.producer } := by
    simp only [ThreadPool.exec, ThreadPool.takeTask]
    cases hq : q.tasks with
    | nil =>
      have hstopped : c.running = false := by
        rw [htells.running]
        simpa [threadPool, hq] using hguard
      have hqueue : c.taskQueue = [] := htells.tasks.trans hq
      simp [hqueue, hstopped, ThreadPool.moveWorker]
    | cons task rest =>
      have hqueue : c.taskQueue = task :: rest := htells.tasks.trans hq
      simp [hqueue, ThreadPool.moveWorker]
  refine Refines.followed_step (b := .takeTask w notified') ?_ ⟨hwants, hsignals⟩
  rw [hexec]
  refine Refines.of_signal hexcl hplace h.bound ?_ ⟨rfl, hloop, Function.update_self ..⟩
    (fun u hu => ?_) h.started h.finished
  · rw [hlog, hdata]
    exact tells_snoc htells rfl htells.running (List.append_nil _).symm rfl
  · cases u with
    | producer v => exact hproducers v
    | worker w' =>
      have hne : w' ≠ w := fun heq => hu (heq ▸ rfl)
      rw [hothers _ (by simp)]
      change WorkerAt false (s.loop w') (Function.update c.worker w _ w') _
      rw [Function.update_of_ne hne]
      exact hall (.worker w')
    | stopper =>
      rw [hothers _ (by simp)]
      exact hall .stopper

/-- A producer returns from `addTask` or `queueSize`. -/
theorem Refines.signalAdd {v : π} {sig : Signal TaskQueueCondition}
    {notified : Option (PoolThread ω π)} (h : s.Refines maxQueueSize c)
    (hexcl : State.Exclusive (threadPool φ maxQueueSize) s.sections)
    (hplace : s.sections.place (.producer v) = .signalling k r sig)
    (hstop : atSignal (s.sections.place .stopper) = false)
    (hchooses : s.sections.Chooses (threadPool φ maxQueueSize) notified sig) :
    Followed maxQueueSize c { s with
      sections := { s.sections with
        place := Function.update (s.sections.signalled (threadPool φ maxQueueSize) notified sig)
          (.producer v) (.leaving k r) } } := by
  have hall (u : PoolThread ω π) : s.At c false u (s.sections.place u) := hstop ▸ h.place u
  have hat := hall (.producer v)
  rw [hplace] at hat
  obtain ⟨q, entries, rfl, rfl, hguard, hlog, hdata, htells⟩ :=
    h.told.due hexcl (by simp) hplace
  cases k with
  | takeTask | stop => exact hat.elim
  | queueSize =>
    refine Refines.followed (Refines.of_signal hexcl hplace h.bound ?_ hat
      (fun u _ => hall u) h.started h.finished)
    rw [hlog, hdata]
    exact tells_snoc htells htells.tasks htells.running (List.append_nil _).symm
      (List.append_nil _).symm
  | addTask task =>
    change (c.producer v).wantsMutex = some task at hat
    obtain ⟨notified', hsignals, hworkers, hothers⟩ := exists_notEmpty hall hchooses
    have hnot : ¬c.IsFull := by
      have hroom : maxQueueSize = 0 ∨ q.tasks.length < maxQueueSize := by
        simpa [threadPool, isFull] using hguard
      rw [ThreadPool.IsFull, h.bound, htells.tasks]
      omega
    have hexec : c.exec (.pushTask v notified') = { c.moveProducer v .outside with
        taskQueue := c.taskQueue ++ [task]
        pushed := c.pushed ++ [task]
        worker := (notEmpty φ).notify c.worker notified' } := by
      simp [ThreadPool.exec, hat, ThreadPool.pushTask, hnot]
    refine Refines.followed_step (b := .pushTask v notified') ?_
      ⟨by simp [hat], by simpa [hnot] using hsignals⟩
    rw [hexec]
    refine Refines.of_signal hexcl hplace h.bound ?_ (Function.update_self ..) (fun u hu => ?_)
      h.started h.finished
    · rw [hlog, hdata]
      refine tells_snoc htells ?_ htells.running rfl (List.append_nil _).symm
      exact congrArg (fun tasks => tasks ++ [task]) htells.tasks
    · cases u with
      | worker w => exact hworkers w
      | producer v' =>
        have hne : v' ≠ v := fun heq => hu (heq ▸ rfl)
        refine (congrArg (s.At _ false (.producer v')) (hothers _ (by simp))).mpr ?_
        change ProducerAt (Function.update c.producer v .outside v') _
        rw [Function.update_of_ne hne]
        exact hall (.producer v')
      | stopper =>
        refine (congrArg (s.At _ false .stopper) (hothers _ (by simp))).mpr ?_
        exact hall .stopper

/-- Every operation is followed. -/
theorem Refines.operation {a : Action (PoolThread ω π) (TaskQueueCall φ)}
    (h : s.Refines maxQueueSize c)
    (hexcl : State.Exclusive (threadPool φ maxQueueSize) s.sections)
    (henabled : s.enabled maxQueueSize (.operation a)) :
    Followed maxQueueSize c (s.exec maxQueueSize (.operation a)) := by
  have hstep := step_of_enabled henabled
  change Followed maxQueueSize c
    (s.operate (s.sections.exec (threadPool φ maxQueueSize) a) a)
  generalize s.sections.exec (threadPool φ maxQueueSize) a = sections at hstep
  cases hstep with
  | call hplace hmay => exact h.call hplace hmay
  | acquire hplace _ => exact h.acquire hplace
  | test hplace => exact h.test hplace
  | sleep hplace => exact h.sleep hexcl hplace
  | wake hplace => exact h.wake hplace
  | act hplace => exact h.act hexcl hplace
  | @leave t k r hplace =>
    simp only [operate, Action.thread, hplace]
    exact Refines.followed (h.leave hplace rfl rfl rfl)
  | @signal t k r sig notified hplace hchooses =>
    have hsignal : atSignal (s.sections.place t) = true := by
      rw [hplace]
      rfl
    have hstop (ht : .stopper ≠ t) : atSignal (s.sections.place .stopper) = false := by
      by_contra htrue
      exact ht (eq_of_atSignal hexcl (Bool.not_eq_false _ ▸ htrue) hsignal)
    cases t with
    | worker w => exact h.signalTake hexcl hplace (hstop (by simp)) hchooses
    | producer v => exact h.signalAdd hexcl hplace (hstop (by simp)) hchooses
    | stopper => exact h.signalStop hexcl hplace

/-- Every step is followed. -/
theorem Refines.step {a : ProgramStep ω π φ} (h : s.Refines maxQueueSize c)
    (hexcl : State.Exclusive (threadPool φ maxQueueSize) s.sections)
    (henabled : s.enabled maxQueueSize a) : Followed maxQueueSize c (s.exec maxQueueSize a) := by
  cases a with
  | testRunning w => exact h.testRunning henabled
  | operation a => exact h.operation hexcl henabled
  | callTask w =>
    cases hloop : s.loop w with
    | taken task => exact h.callTask hloop
    | _ => simp [enabled, hloop, LoopPlace.hasTaken] at henabled
  | taskReturns w =>
    cases hloop : s.loop w with
    | running task => exact h.taskReturns hloop
    | _ => simp [enabled, hloop, LoopPlace.isRunning] at henabled
  | stopReturns => exact h.stopReturns henabled.1 henabled.2

/-- Every reachable state is told by a reachable state of the other program. -/
theorem refines_of_reachable (h : (poolProgram ω π φ maxQueueSize).Reachable s) :
    ∃ c, (threadPoolSystem ω π φ).Reachable c ∧ s.Refines maxQueueSize c := by
  refine h.simulates (fun {s} hinit => ?_) fun {s c a s'} hreach hrefines henabled hexec => ?_
  · obtain ⟨hnew, hloop, hstopper, hstarted, hfinished⟩ := hinit
    refine ⟨⟨maxQueueSize, true, [], fun _ => .testing, fun _ => .outside, .outside, [], [], [],
      []⟩, ⟨rfl, rfl, fun _ => rfl, fun _ => rfl, rfl, rfl, rfl, rfl, rfl⟩, rfl,
      .settled (fun t _ => ?_) ?_, fun t => ?_, hstarted.symm, hfinished.symm⟩
    · rw [hnew.outside t]
      rfl
    · rw [hnew.log, hnew.data]
      exact ⟨rfl, rfl, rfl, rfl⟩
    · rw [hnew.outside t]
      cases t with
      | worker w =>
        change (s.loop w).At .testing
        rw [hloop w]
        rfl
      | producer v => rfl
      | stopper => exact hstopper.symm
  · cases hexec
    exact hrefines.step (linear_of_reachable hreach).1 henabled

omit [DecidableEq ω] [DecidableEq π] in
/-- A worker has ended for both programs or for neither. -/
theorem Refines.exited_iff (h : s.Refines maxQueueSize c) (w : ω) :
    s.loop w = .exited ↔ c.worker w = .exited := by
  have hat : WorkerAt _ (s.loop w) (c.worker w) (s.sections.place (.worker w)) :=
    h.place (.worker w)
  refine ⟨fun hloop => ?_, fun hw => ?_⟩
  · obtain ⟨-, hout⟩ := h.outside (w := w) (by simp [hloop])
    rw [hloop] at hout
    exact hout
  · rw [hw] at hat
    cases hplace : s.sections.place (.worker w) with
    | outside =>
      rw [hplace] at hat
      change (s.loop w).At .exited at hat
      cases hloop : s.loop w with
      | exited => rfl
      | _ =>
        rw [hloop] at hat
        cases hat
    | asleep =>
      rw [hplace] at hat
      obtain ⟨-, -, heq⟩ := hat
      split at heq <;> cases heq
    | _ =>
      rw [hplace] at hat
      cases hat.2.2

omit [DecidableEq ω] [DecidableEq π] in
/-- `stop` has returned for both programs or for neither. -/
theorem Refines.returned_iff (h : s.Refines maxQueueSize c) :
    s.stopper = .returned ↔ c.stopper = .returned := by
  have hat : StopperAt s.stopper c.stopper (s.sections.place .stopper) := h.place .stopper
  cases hplace : s.sections.place .stopper with
  | outside =>
    rw [hplace] at hat
    rw [show c.stopper = s.stopper from hat]
  | waiting | asleep =>
    rw [hplace] at hat
    exact hat.elim
  | entering | testing | ready | leaving =>
    rw [hplace] at hat
    simp [hat.2.1, hat.2.2]
  | signalling =>
    rw [hplace] at hat
    simp [hat.2.2.1, hat.2.2.2]

/-- **Critical sections are atomic.** For every reachable state of the pool whose threads take turns
after every single operation there is a reachable state of the pool whose critical sections are
single steps, with the same `running_`, the same tasks called and returned, the same workers at
their end and the same producers asleep; while nobody has the mutex, also with the same queue, and
what was pushed and popped is what the calls of `addTask` and `takeTask` brought and returned. -/
theorem pool_refines (h : (poolProgram ω π φ maxQueueSize).Reachable s) :
    ∃ c, (threadPoolSystem ω π φ).Reachable c ∧ c.maxQueueSize = maxQueueSize ∧
      c.running = s.sections.data.running ∧ c.started = s.started ∧ c.finished = s.finished ∧
      (∀ w, s.loop w = .exited ↔ c.worker w = .exited) ∧
      (s.stopper = .returned ↔ c.stopper = .returned) ∧
      (∀ v, (∃ task, s.sections.place (.producer v) = .asleep (.addTask task)) ↔
        (notFull φ).asleep (c.producer v) = true) ∧
      (s.sections.owner = none → c.taskQueue = s.sections.data.tasks ∧
        c.pushed = added s.sections.log ∧ c.dequeued = taken s.sections.log) := by
  obtain ⟨c, hc, hrefines⟩ := refines_of_reachable h
  have hexcl := (linear_of_reachable h).1
  refine ⟨c, hc, hrefines.bound, hrefines.running, hrefines.started, hrefines.finished,
    hrefines.exited_iff, hrefines.returned_iff, fun v => ?_, fun howner => ?_⟩
  · have hat : ProducerAt (c.producer v) (s.sections.place (.producer v)) :=
      hrefines.place (.producer v)
    rw [← asleep_notFull maxQueueSize hat, Monitor.asleep_iff]
    refine ⟨fun ⟨task, hplace⟩ => ⟨_, hplace, rfl⟩, fun ⟨k, hplace, _⟩ => ?_⟩
    rw [hplace] at hat
    obtain ⟨task, rfl, -⟩ := hat
    exact ⟨task, hplace⟩
  · have htells := hrefines.told.tells fun u _ => by
      by_contra htrue
      have hu := (hexcl.owner u).mp (inside_of_atSignal (Bool.not_eq_false _ ▸ htrue))
      rw [howner] at hu
      cases hu
    exact ⟨htells.tasks, htells.pushed, htells.dequeued⟩

omit [DecidableEq ω] [DecidableEq π] in
/-- What the other program has popped was taken. -/
theorem Refines.dequeued_prefix (h : s.Refines maxQueueSize c) :
    c.dequeued <+: taken s.sections.log := by
  cases h.told with
  | settled _ htells => rw [htells.dequeued]
  | acted _ _ _ hlog _ htells =>
    rw [htells.dequeued, hlog, taken_snoc]
    exact List.prefix_append ..

omit [DecidableEq ω] [DecidableEq π] in
/-- After the end of all workers nothing is being taken. -/
theorem Refines.dequeued_eq (h : s.Refines maxQueueSize c) (hexited : ∀ w, s.loop w = .exited) :
    c.dequeued = taken s.sections.log := by
  cases h.told with
  | settled _ htells => exact htells.dequeued
  | @acted t k q entries ht hplace _ hlog _ htells =>
    have hat := h.place t
    rw [hplace] at hat
    have hnone : ((threadPool φ maxQueueSize).result k q).taken = none := by
      cases t with
      | stopper => exact absurd rfl ht
      | worker w => cases (hexited w).symm.trans hat.2.1
      | producer v =>
        cases k with
        | addTask | queueSize => rfl
        | takeTask | stop => exact hat.elim
    rw [htells.dequeued, hlog, taken_snoc]
    change _ = taken entries ++ ((threadPool φ maxQueueSize).result k q).taken.toList
    rw [hnone]
    exact (List.append_nil _).symm

/-- **Tasks run once and in order.** In every reachable state of the pool whose threads take turns
after every single operation, the tasks are taken in the order in which they were added, and each
is called at most once. When `stop` has returned, all workers have ended, the tasks that were taken
have finished, and a task that was called has all tasks before it finished. -/
theorem program_runs_in_order [Fintype ω] (h : (poolProgram ω π φ maxQueueSize).Reachable s) :
    added s.sections.log = taken s.sections.log ++ s.sections.data.tasks ∧
      s.started.Subperm (taken s.sections.log) ∧
      (s.stopper = .returned → (∀ w, s.loop w = .exited) ∧
        s.finished.Perm (taken s.sections.log) ∧
        ∀ before task after, added s.sections.log = before ++ task :: after →
          (added s.sections.log).Nodup → task ∈ s.started →
          ∀ task' ∈ before, task' ∈ s.finished) := by
  obtain ⟨c, hc, hrefines⟩ := refines_of_reachable h
  have haccounted : c.Accounted := by
    refine hc.invariant ThreadPool.Accounted.of_init fun hI henabled hexec => ?_
    cases hexec
    exact hI.step henabled
  have horder := (queued_of_run (linear_of_reachable h).2.atomic).order
  refine ⟨horder, ?_, fun hreturned => ?_⟩
  · have hcalled : c.started.Subperm c.dequeued := by
      refine Multiset.coe_le.mp ?_
      rw [haccounted.taken]
      exact Multiset.le_add_right ..
    rw [← hrefines.started]
    exact hcalled.trans hrefines.dequeued_prefix.sublist.subperm
  · have hstopped := hrefines.returned_iff.mp hreturned
    have hexited (w : ω) : s.loop w = .exited := by
      refine (hrefines.exited_iff w).mpr ?_
      have hw := haccounted.returned hstopped w
      cases hplace : c.worker w with
      | exited => rfl
      | _ =>
        rw [hplace] at hw
        cases hw
    obtain ⟨hfinished, hstarted⟩ := haccounted.of_returned hstopped
    rw [hrefines.dequeued_eq hexited, hrefines.finished] at hfinished
    rw [hrefines.started, hrefines.finished] at hstarted
    refine ⟨hexited, hfinished, fun before task after hall hnodup hmem task' hmem' => ?_⟩
    have hdone : taken s.sections.log <+: added s.sections.log := ⟨_, horder.symm⟩
    have htaken : task ∈ taken s.sections.log := (hstarted.trans hfinished).subset hmem
    exact hfinished.symm.subset (ThreadPool.mem_of_split hall hnodup hdone htaken hmem')

end

/-- One worker and two producers that have not done anything. -/
def newProgram : PoolProgram Unit Bool ℕ :=
  ⟨⟨⟨[], true⟩, none, fun _ => .outside, [], []⟩, fun _ => .testing, .outside, [], []⟩

/-- Nothing has happened in it. -/
theorem newProgram_init (maxQueueSize : ℕ) :
    (poolProgram Unit Bool ℕ maxQueueSize).init newProgram :=
  ⟨⟨rfl, rfl, fun _ => rfl, rfl, rfl⟩, fun _ => rfl, rfl, rfl, rfl⟩

/-- A thread goes through a function from the test of its guard on. -/
def throughGuard (t : PoolThread Unit Bool) (notified : Option (PoolThread Unit Bool)) :
    List (ProgramStep Unit Bool ℕ) :=
  [.operation (.acquire t), .operation (.test t), .operation (.act t),
    .operation (.signal t notified), .operation (.leave t)]

/-- The worker waits for a task, a producer wakes it up, and the other producer sleeps at the full
queue until the worker takes the task. -/
def waitAndWake : List (ProgramStep Unit Bool ℕ) :=
  [.testRunning (), .operation (.call (.worker ()) .takeTask), .operation (.acquire (.worker ())),
    .operation (.test (.worker ())), .operation (.sleep (.worker ())),
    .operation (.call (.producer false) (.addTask 7))] ++
    throughGuard (.producer false) (some (.worker ())) ++
    [.operation (.call (.producer true) (.addTask 8)), .operation (.acquire (.producer true)),
      .operation (.test (.producer true)), .operation (.sleep (.producer true))] ++
    throughGuard (.worker ()) (some (.producer true))

/-- The worker calls its task, and `stop` comes while it runs. -/
def stopWhileRunning : List (ProgramStep Unit Bool ℕ) :=
  [.callTask ()] ++ throughGuard (.producer true) none ++
    [.operation (.call .stopper .stop)] ++ throughGuard .stopper none ++
    [.taskReturns (), .testRunning (), .stopReturns]

/-- Both programs have taken the task that the worker had waited for. -/
theorem pool_refines_waitAndWake : ∃ s c, (poolProgram Unit Bool ℕ 1).Reachable s ∧
    (threadPoolSystem Unit Bool ℕ).Reachable c ∧ taken s.sections.log = [7] ∧
      c.dequeued = [7] := by
  have hcheck : ((poolProgram Unit Bool ℕ 1).replay newProgram waitAndWake).any (fun s =>
      decide (s.sections.owner = none ∧ taken s.sections.log = [7])) = true := by
    decide +kernel
  obtain ⟨s, hrun, hs⟩ := System.exists_run_of_replay hcheck
  obtain ⟨howner, htaken⟩ := of_decide_eq_true hs
  have hreach : (poolProgram Unit Bool ℕ 1).Reachable s := ⟨_, _, newProgram_init 1, hrun⟩
  obtain ⟨c, hc, -, -, -, -, -, -, -, htold⟩ := pool_refines hreach
  exact ⟨s, c, hreach, hc, htaken, (htold howner).2.2.trans htaken⟩

/-- The task that was running has finished, and the other one is left in the queue. -/
theorem program_runs_in_order_stopWhileRunning :
    ∃ s, (poolProgram Unit Bool ℕ 1).Reachable s ∧ s.stopper = .returned ∧
      added s.sections.log = [7, 8] ∧ s.sections.data.tasks = [8] ∧
      s.finished.Perm (taken s.sections.log) := by
  have hcheck : ((poolProgram Unit Bool ℕ 1).replay newProgram
      (waitAndWake ++ stopWhileRunning)).any (fun s => decide (s.stopper = .returned ∧
        added s.sections.log = [7, 8] ∧ s.sections.data.tasks = [8])) = true := by
    decide +kernel
  obtain ⟨s, hrun, hs⟩ := System.exists_run_of_replay hcheck
  obtain ⟨hreturned, hadded, htasks⟩ := of_decide_eq_true hs
  have hreach : (poolProgram Unit Bool ℕ 1).Reachable s := ⟨_, _, newProgram_init 1, hrun⟩
  exact ⟨s, hreach, hreturned, hadded, htasks,
    ((program_runs_in_order hreach).2.2 hreturned).2.1⟩

end PoolProgram

end Dalin
