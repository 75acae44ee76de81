import Dalin.Base.PoolProgram

/-!
# Steps between the signals of the thread pool

The program of single operations on `mutex_`, `notEmpty_` and `notFull_` against the
program of whole critical sections: what is told of a state while a thread is in a
critical section, and that the other program can follow every step but a change of the
queue and a signal.
-/

set_option autoImplicit false

namespace Dalin

open Transition Monitors ThreadFamily TaskQueue TaskQueueCall

namespace PoolProgram

variable {ω π φ : Type} {maxQueueSize : ℕ} {s s' : PoolProgram ω π φ}
  {c c' : ThreadPool ω π φ}

/-! ### The operations of a program -/

section

variable [DecidableEq ω] [DecidableEq π]

omit [DecidableEq π] in
/-- An operation happens in the critical sections. -/
@[simp] theorem operate_sections (s : PoolProgram ω π φ) (sections : PoolSections ω π φ)
    (a : Action (PoolThread ω π) (TaskQueueCall φ)) :
    (s.operate sections a).sections = sections := by
  unfold operate
  split
  · rename_i t _ _ _
    cases t <;> rfl
  · rfl

/-- An operation of the monitor. -/
theorem step_of_enabled {a : Action (PoolThread ω π) (TaskQueueCall φ)}
    (henabled : s.enabled maxQueueSize (.operation a)) :
    State.Step (threadPool φ maxQueueSize) s.MayCall s.sections a
      (s.sections.exec (threadPool φ maxQueueSize) a) :=
  State.step_of_exec (d := ⟨[], true⟩) henabled rfl

/-- One thread has the mutex at a time, and the calls act one at a time. -/
theorem linear_of_reachable (h : (poolProgram ω π φ maxQueueSize).Reachable s) :
    State.Exclusive (threadPool φ maxQueueSize) s.sections ∧
      State.Linear (threadPool φ maxQueueSize) ⟨[], true⟩ s.sections := by
  refine h.invariant (I := fun s => State.Exclusive (threadPool φ maxQueueSize) s.sections ∧
      State.Linear (threadPool φ maxQueueSize) ⟨[], true⟩ s.sections)
    (fun hinit => ⟨hinit.1.exclusive, hinit.1.linear⟩) fun {s a s'} hI henabled hexec => ?_
  cases hexec
  cases a with
  | operation a =>
    have hstep := step_of_enabled henabled
    change State.Exclusive _ (s.operate _ a).sections ∧ State.Linear _ _ (s.operate _ a).sections
    rw [operate_sections]
    exact ⟨hI.1.step hstep, hI.2.step hI.1 hstep⟩
  | testRunning w => exact hI
  | callTask w =>
    simp only [exec]
    split <;> exact hI
  | taskReturns w =>
    simp only [exec]
    split <;> exact hI
  | stopReturns => exact hI

end

/-! ### What is told of a state -/

/-- A thread about to signal has the mutex. -/
theorem inside_of_atSignal
    {place : Place (TaskQueueCall φ) TaskQueueCondition (TaskQueueResult φ)}
    (h : atSignal place = true) : place.inside = true := by
  cases place with
  | signalling => rfl
  | _ => cases h

/-- While a thread has the mutex and does not signal, nobody does. -/
theorem quiet_of_inside {sections : PoolSections ω π φ} {t : PoolThread ω π}
    (hexcl : State.Exclusive (threadPool φ maxQueueSize) sections)
    (hinside : (sections.place t).inside = true) (hquiet : atSignal (sections.place t) = false)
    (u : PoolThread ω π) : atSignal (sections.place u) = false := by
  by_contra hsignal
  have hu := (hexcl.owner u).mp (inside_of_atSignal (Bool.not_eq_false _ ▸ hsignal))
  rw [(hexcl.owner t).mp hinside] at hu
  obtain rfl := Option.some.inj hu
  exact hsignal hquiet

/-- Two threads about to signal are one. -/
theorem eq_of_atSignal {sections : PoolSections ω π φ} {t u : PoolThread ω π}
    (hexcl : State.Exclusive (threadPool φ maxQueueSize) sections)
    (ht : atSignal (sections.place t) = true) (hu : atSignal (sections.place u) = true) :
    t = u := by
  have howner := (hexcl.owner t).mp (inside_of_atSignal ht)
  rw [(hexcl.owner u).mp (inside_of_atSignal hu)] at howner
  exact (Option.some.inj howner).symm

end PoolProgram

namespace Told

variable {ω π φ : Type} {maxQueueSize : ℕ} {s s' : PoolSections ω π φ}
  {c c' : ThreadPool ω π φ} {t : PoolThread ω π}

/-- A step that changes neither the queue nor what signals are due. -/
theorem frame (h : Told maxQueueSize s c) (hdata : s'.data = s.data) (hlog : s'.log = s.log)
    (hplace : ∀ u, u ≠ .stopper → s'.place u = s.place u ∨
      atSignal (s.place u) = false ∧ atSignal (s'.place u) = false)
    (hrecords : ∀ {entries q}, Tells entries q c → Tells entries q c') :
    Told maxQueueSize s' c' := by
  cases h with
  | settled hquiet htells =>
    refine .settled (fun u hu => ?_) ?_
    · rcases hplace u hu with heq | ⟨-, hnow⟩
      · rw [heq]
        exact hquiet u hu
      · exact hnow
    · rw [hlog, hdata]
      exact hrecords htells
  | @acted t call q entries ht hsignal hguard hentries hbody htells =>
    rcases hplace t ht with heq | ⟨hwas, -⟩
    · exact .acted ht (heq.trans hsignal) hguard (hlog.trans hentries) (hdata.trans hbody)
        (hrecords htells)
    · rw [hsignal] at hwas
      cases hwas

/-- Nobody is about to signal. -/
theorem tells (h : Told maxQueueSize s c)
    (hquiet : ∀ u, u ≠ .stopper → atSignal (s.place u) = false) : Tells s.log s.data c := by
  cases h with
  | settled _ htells => exact htells
  | @acted t call q entries ht hsignal _ _ _ _ =>
    have hnot := hquiet t ht
    rw [hsignal] at hnot
    cases hnot

/-- A thread is about to signal. -/
theorem due (h : Told maxQueueSize s c)
    (hexcl : State.Exclusive (threadPool φ maxQueueSize) s) {call : TaskQueueCall φ}
    {r : TaskQueueResult φ} {sig : Signal TaskQueueCondition} (ht : t ≠ .stopper)
    (hplace : s.place t = .signalling call r sig) :
    ∃ q entries, r = (threadPool φ maxQueueSize).result call q ∧
      sig = (threadPool φ maxQueueSize).signal call q ∧
      (threadPool φ maxQueueSize).guard call q = true ∧ s.log = entries ++ [⟨t, call, r⟩] ∧
      s.data = (threadPool φ maxQueueSize).body call q ∧ Tells entries q c := by
  cases h with
  | settled hquiet _ =>
    have hnot := hquiet t ht
    rw [hplace] at hnot
    cases hnot
  | @acted u call' q entries _ hsignal hguard hentries hbody htells =>
    obtain rfl : t = u :=
      PoolProgram.eq_of_atSignal hexcl (by rw [hplace]; rfl) (by rw [hsignal]; rfl)
    obtain ⟨rfl, rfl, rfl⟩ := Place.signalling.inj (hplace.symm.trans hsignal)
    exact ⟨q, entries, rfl, rfl, hguard, hentries, hbody, htells⟩

/-- `running_` is always told. -/
theorem running (h : Told maxQueueSize s c)
    (hcalls : ∀ {t call r sig}, t ≠ .stopper → s.place t = .signalling call r sig →
      call ≠ .stop) :
    c.running = s.data.running := by
  cases h with
  | settled _ htells => exact htells.running
  | @acted t call q entries ht hsignal _ _ hbody htells =>
    rw [htells.running, hbody]
    cases call with
    | stop => exact absurd rfl (hcalls ht hsignal)
    | addTask | takeTask | queueSize => rfl

end Told

namespace PoolProgram

/-! ### Steps of one thread -/

section

variable {ω π φ : Type} {maxQueueSize : ℕ} {s s' : PoolProgram ω π φ}
  {c c' : ThreadPool ω π φ} {t : PoolThread ω π}

/-- A thread goes on, and neither signals nor changes what is told of the queue. -/
theorem Refines.move [DecidableEq ω] [DecidableEq π]
    {p : Place (TaskQueueCall φ) TaskQueueCondition (TaskQueueResult φ)}
    (h : s.Refines maxQueueSize c)
    (hplaces : s'.sections.place = Function.update s.sections.place t p)
    (hdata : s'.sections.data = s.sections.data) (hlog : s'.sections.log = s.sections.log)
    (hquiet : atSignal (s.sections.place t) = false) (hquiet' : atSignal p = false)
    (hself : s'.At c' (atSignal (s.sections.place .stopper)) t p)
    (helse : ∀ notifies u, u ≠ t → ∀ place, s.At c notifies u place →
      s'.At c' notifies u place)
    (hbound : c'.maxQueueSize = c.maxQueueSize)
    (hrecords : ∀ {entries q}, Tells entries q c → Tells entries q c')
    (hstarted : c'.started = s'.started) (hfinished : c'.finished = s'.finished) :
    s'.Refines maxQueueSize c' := by
  have hnow : s'.sections.place t = p := by rw [hplaces, Function.update_self]
  have hplace (u : PoolThread ω π) (hu : u ≠ t) :
      s'.sections.place u = s.sections.place u := by
    rw [hplaces, Function.update_of_ne hu]
  have hstop : atSignal (s'.sections.place .stopper) = atSignal (s.sections.place .stopper) := by
    by_cases ht : .stopper = t
    · rw [ht, hquiet, hnow, hquiet']
    · rw [hplace _ ht]
  refine ⟨hbound.trans h.bound, h.told.frame hdata hlog (fun u _ => ?_) hrecords, fun u => ?_,
    hstarted, hfinished⟩
  · by_cases hu : u = t
    · subst hu
      exact .inr ⟨hquiet, hnow ▸ hquiet'⟩
    · exact .inl (hplace u hu)
  · rw [hstop]
    by_cases hu : u = t
    · subst hu
      rw [hnow]
      exact hself
    · rw [hplace u hu]
      exact helse _ u hu _ (h.place u)

/-- A thread goes on in a critical section, which is not told. -/
theorem Refines.stay [DecidableEq ω] [DecidableEq π]
    {p : Place (TaskQueueCall φ) TaskQueueCondition (TaskQueueResult φ)}
    {sections : PoolSections ω π φ} (h : s.Refines maxQueueSize c)
    (hplaces : sections.place = Function.update s.sections.place t p)
    (hdata : sections.data = s.sections.data) (hlog : sections.log = s.sections.log)
    (hquiet : atSignal (s.sections.place t) = false) (hquiet' : atSignal p = false)
    (hself : s.At c (atSignal (s.sections.place .stopper)) t p) :
    Refines maxQueueSize { s with sections := sections } c :=
  h.move hplaces hdata hlog hquiet hquiet' hself (fun _ _ _ _ hat => hat) rfl id h.started
    h.finished

/-- The places of the others do not change when a worker goes on. -/
theorem At.of_worker [DecidableEq ω] {w : ω} {loop : LoopPlace φ} {place : WorkerPlace φ}
    (hloop : s'.loop = Function.update s.loop w loop)
    (hworker : c'.worker = Function.update c.worker w place)
    (hproducer : c'.producer = c.producer) (hpast : s'.stopper = s.stopper)
    (hstopper : c'.stopper = c.stopper) (notifies : Bool) (u : PoolThread ω π)
    (hu : u ≠ .worker w) (p : Place (TaskQueueCall φ) TaskQueueCondition (TaskQueueResult φ))
    (hat : s.At c notifies u p) : s'.At c' notifies u p := by
  cases u with
  | worker v =>
    have hne : v ≠ w := fun heq => hu (heq ▸ rfl)
    change WorkerAt notifies (s'.loop v) (c'.worker v) p
    rw [hloop, hworker, Function.update_of_ne hne, Function.update_of_ne hne]
    exact hat
  | producer v =>
    change ProducerAt (c'.producer v) p
    rw [hproducer]
    exact hat
  | stopper =>
    change StopperAt s'.stopper c'.stopper p
    rw [hpast, hstopper]
    exact hat

/-- The places of the others do not change when a producer goes on. -/
theorem At.of_producer [DecidableEq π] {v : π} {place : ProducerPlace φ}
    (hloop : s'.loop = s.loop) (hworker : c'.worker = c.worker)
    (hproducer : c'.producer = Function.update c.producer v place)
    (hpast : s'.stopper = s.stopper) (hstopper : c'.stopper = c.stopper) (notifies : Bool)
    (u : PoolThread ω π) (hu : u ≠ .producer v)
    (p : Place (TaskQueueCall φ) TaskQueueCondition (TaskQueueResult φ))
    (hat : s.At c notifies u p) : s'.At c' notifies u p := by
  cases u with
  | worker w =>
    change WorkerAt notifies (s'.loop w) (c'.worker w) p
    rw [hloop, hworker]
    exact hat
  | producer v' =>
    have hne : v' ≠ v := fun heq => hu (heq ▸ rfl)
    change ProducerAt (c'.producer v') p
    rw [hproducer, Function.update_of_ne hne]
    exact hat
  | stopper =>
    change StopperAt s'.stopper c'.stopper p
    rw [hpast, hstopper]
    exact hat

/-- A worker goes on in both programs. -/
theorem Refines.goWorker [DecidableEq ω] [DecidableEq π] {w : ω} {place : WorkerPlace φ}
    {p : Place (TaskQueueCall φ) TaskQueueCondition (TaskQueueResult φ)}
    {sections : PoolSections ω π φ} (h : s.Refines maxQueueSize c)
    (hplaces : sections.place = Function.update s.sections.place (.worker w) p)
    (hdata : sections.data = s.sections.data) (hlog : sections.log = s.sections.log)
    (hquiet : atSignal (s.sections.place (.worker w)) = false) (hquiet' : atSignal p = false)
    (hself : WorkerAt (atSignal (s.sections.place .stopper)) (s.loop w) place p) :
    Refines maxQueueSize { s with sections := sections } (c.moveWorker w place) := by
  refine h.move hplaces hdata hlog hquiet hquiet' ?_
    (At.of_worker (Function.update_eq_self ..).symm rfl rfl rfl rfl) rfl
    (fun htells => ⟨htells.tasks, htells.running, htells.pushed, htells.dequeued⟩) h.started
    h.finished
  change WorkerAt _ (s.loop w) (Function.update c.worker w place w) p
  rw [Function.update_self]
  exact hself

/-- A producer goes on in both programs. -/
theorem Refines.goProducer [DecidableEq ω] [DecidableEq π] {v : π} {place : ProducerPlace φ}
    {p : Place (TaskQueueCall φ) TaskQueueCondition (TaskQueueResult φ)}
    {sections : PoolSections ω π φ} (h : s.Refines maxQueueSize c)
    (hplaces : sections.place = Function.update s.sections.place (.producer v) p)
    (hdata : sections.data = s.sections.data) (hlog : sections.log = s.sections.log)
    (hquiet : atSignal (s.sections.place (.producer v)) = false) (hquiet' : atSignal p = false)
    (hself : ProducerAt place p) :
    Refines maxQueueSize { s with sections := sections } (c.moveProducer v place) := by
  refine h.move hplaces hdata hlog hquiet hquiet' ?_ (At.of_producer rfl rfl rfl rfl rfl) rfl
    (fun htells => ⟨htells.tasks, htells.running, htells.pushed, htells.dequeued⟩) h.started
    h.finished
  change ProducerAt (Function.update c.producer v place v) p
  rw [Function.update_self]
  exact hself

/-- A thread that is past a critical section or before one does not have the mutex. -/
theorem Refines.outside {w : ω} (h : s.Refines maxQueueSize c) (hloop : s.loop w ≠ .taking) :
    s.sections.place (.worker w) = .outside ∧ (s.loop w).At (c.worker w) := by
  have hat : WorkerAt _ (s.loop w) (c.worker w) (s.sections.place (.worker w)) :=
    h.place (.worker w)
  cases hplace : s.sections.place (.worker w) with
  | outside =>
    rw [hplace] at hat
    exact ⟨rfl, hat⟩
  | _ =>
    rw [hplace] at hat
    exact absurd hat.2.1 hloop

end

/-! ### The steps outside of the critical sections -/

section

variable {ω π φ : Type} [DecidableEq ω] [DecidableEq π] {maxQueueSize : ℕ}
  {s s' : PoolProgram ω π φ} {c c' : ThreadPool ω π φ} {w : ω}

/-- The program of critical sections can follow to this state. -/
def Followed (maxQueueSize : ℕ) (c : ThreadPool ω π φ) (s' : PoolProgram ω π φ) : Prop :=
  ∃ c', (threadPoolSystem ω π φ).Follows c c' ∧ s'.Refines maxQueueSize c'

/-- It need not do anything. -/
theorem Refines.followed (h : s'.Refines maxQueueSize c) : Followed maxQueueSize c s' :=
  ⟨c, .inl rfl, h⟩

/-- It makes one step. -/
theorem Refines.followed_step {b : PoolStep ω π φ} (h : s'.Refines maxQueueSize (c.exec b))
    (hb : c.enabled b) : Followed maxQueueSize c s' :=
  ⟨c.exec b, .inr ⟨b, hb, rfl⟩, h⟩

/-- A worker goes on outside of the critical sections. -/
theorem Refines.moveLoop (h : s.Refines maxQueueSize c) (loop : LoopPlace φ)
    (place : WorkerPlace φ) (started finished : List φ)
    (houtside : s.sections.place (.worker w) = .outside)
    (hat : loop.At place) :
    Refines maxQueueSize { s.moveLoop w loop with started := started, finished := finished }
      { c.moveWorker w place with started := started, finished := finished } := by
  have hquiet : atSignal (s.sections.place (.worker w)) = false := by
    rw [houtside]
    rfl
  refine h.move (t := .worker w) (p := .outside) ?_ rfl rfl hquiet rfl ?_
    (At.of_worker rfl rfl rfl rfl rfl) rfl
    (fun htells => ⟨htells.tasks, htells.running, htells.pushed, htells.dequeued⟩) rfl rfl
  · rw [← houtside]
    exact (Function.update_eq_self ..).symm
  · change (Function.update s.loop w loop w).At (Function.update c.worker w place w)
    rw [Function.update_self, Function.update_self]
    exact hat

omit [DecidableEq ω] [DecidableEq π] in
/-- Only the thread that calls `stop` is at a signal of `stop`. -/
theorem Refines.running (h : s.Refines maxQueueSize c) :
    c.running = s.sections.data.running := by
  refine h.told.running fun {t call r sig} ht hsignal => ?_
  have hat := h.place t
  rw [hsignal] at hat
  rintro rfl
  cases t with
  | worker w => cases hat.1
  | producer v => exact hat
  | stopper => exact ht rfl

/-- `while (running_)`. -/
theorem Refines.testRunning (h : s.Refines maxQueueSize c) (hloop : s.loop w = .testing) :
    Followed maxQueueSize c (s.exec maxQueueSize (.testRunning w)) := by
  obtain ⟨houtside, hat⟩ := h.outside (w := w) (by simp [hloop])
  rw [hloop] at hat
  refine Refines.followed_step (b := .testRunning w) ?_ hat
  have hmoved := h.moveLoop (if s.sections.data.running = true then .taking else .exited)
    (if c.running = true then .entering else .exited) s.started s.finished houtside ?_
  · simpa [exec, PoolProgram.moveLoop, ThreadPool.exec, ThreadPool.moveWorker, h.started,
      h.finished] using hmoved
  · rw [h.running]
    split <;> rfl

/-- `if (task) task();` up to the call. -/
theorem Refines.callTask {task : Option φ} (h : s.Refines maxQueueSize c)
    (hloop : s.loop w = .taken task) :
    Followed maxQueueSize c (s.exec maxQueueSize (.callTask w)) := by
  obtain ⟨houtside, hat⟩ := h.outside (w := w) (by simp [hloop])
  rw [hloop] at hat
  change c.worker w = .taken task at hat
  refine Refines.followed_step (b := .callTask w) ?_ (by simp [ThreadPool.enabled, hat,
    WorkerPlace.hasTaken])
  cases task with
  | none =>
    have hmoved := h.moveLoop .testing .testing s.started s.finished houtside rfl
    simpa [exec, hloop, PoolProgram.moveLoop, ThreadPool.exec, ThreadPool.callTask, hat,
      ThreadPool.moveWorker, h.started, h.finished] using hmoved
  | some task =>
    have hmoved := h.moveLoop (.running task) (.running task) (s.started ++ [task]) s.finished
      houtside rfl
    simpa [exec, hloop, PoolProgram.moveLoop, ThreadPool.exec, ThreadPool.callTask, hat,
      ThreadPool.moveWorker, h.started, h.finished] using hmoved

/-- The return of the task. -/
theorem Refines.taskReturns {task : φ} (h : s.Refines maxQueueSize c)
    (hloop : s.loop w = .running task) :
    Followed maxQueueSize c (s.exec maxQueueSize (.taskReturns w)) := by
  obtain ⟨houtside, hat⟩ := h.outside (w := w) (by simp [hloop])
  rw [hloop] at hat
  change c.worker w = .running task at hat
  refine Refines.followed_step (b := .taskReturns w) ?_ (by simp [ThreadPool.enabled, hat,
    WorkerPlace.isRunning])
  have hmoved := h.moveLoop .testing .testing s.started (s.finished ++ [task]) houtside rfl
  simpa [exec, hloop, PoolProgram.moveLoop, ThreadPool.exec, ThreadPool.taskReturns, hat,
    ThreadPool.moveWorker, h.started, h.finished] using hmoved

/-- The last `join` returns. -/
theorem Refines.stopReturns (h : s.Refines maxQueueSize c) (hjoining : s.stopper = .joining)
    (hexited : ∀ w, s.loop w = .exited) :
    Followed maxQueueSize c (s.exec maxQueueSize .stopReturns) := by
  have houtside : s.sections.place .stopper = .outside ∧ c.stopper = s.stopper := by
    have hat : StopperAt s.stopper c.stopper (s.sections.place .stopper) := h.place .stopper
    cases hplace : s.sections.place .stopper with
    | outside =>
      rw [hplace] at hat
      exact ⟨rfl, hat⟩
    | waiting | asleep =>
      rw [hplace] at hat
      exact hat.elim
    | entering | testing | ready | leaving =>
      rw [hplace] at hat
      cases hjoining.symm.trans hat.2.1
    | signalling =>
      rw [hplace] at hat
      cases hjoining.symm.trans hat.2.2.1
  refine Refines.followed_step (b := .stopReturns) ?_ ⟨houtside.2.trans hjoining, fun w => ?_⟩
  · refine h.move (t := .stopper) (p := .outside) ?_ rfl rfl ?_ rfl rfl
      (fun notifies u hu p hat => ?_) rfl
      (fun htells => ⟨htells.tasks, htells.running, htells.pushed, htells.dequeued⟩) h.started
      h.finished
    · rw [← houtside.1]
      exact (Function.update_eq_self ..).symm
    · rw [houtside.1]
      rfl
    · cases u with
      | stopper => exact absurd rfl hu
      | worker | producer => exact hat
  · obtain ⟨-, hat⟩ := h.outside (w := w) (by simp [hexited w])
    rw [hexited w] at hat
    change c.worker w = .exited at hat
    rw [hat]
    rfl

end

/-! ### The operations of a critical section -/

section

variable {ω π φ : Type} [DecidableEq ω] [DecidableEq π] {maxQueueSize : ℕ}
  {s : PoolProgram ω π φ} {c : ThreadPool ω π φ} {t : PoolThread ω π}
  {k : TaskQueueCall φ} {r : TaskQueueResult φ}

/-- A thread calls a function. A call of `addTask` is told. -/
theorem Refines.call (h : s.Refines maxQueueSize c) (hplace : s.sections.place t = .outside)
    (hmay : s.MayCall t k) :
    Followed maxQueueSize c { s with sections := s.sections.move t (.entering k) } := by
  have hquiet : atSignal (s.sections.place t) = false := by
    rw [hplace]
    rfl
  have hat := h.place t
  rw [hplace] at hat
  cases t with
  | worker w =>
    obtain ⟨rfl, hloop⟩ := hmay
    change (s.loop w).At (c.worker w) at hat
    rw [hloop] at hat
    exact Refines.followed (h.stay rfl rfl rfl hquiet rfl ⟨rfl, hloop, hat⟩)
  | stopper =>
    obtain ⟨rfl, hpast⟩ := hmay
    exact Refines.followed (h.stay rfl rfl rfl hquiet rfl ⟨rfl, hpast, hat.trans hpast⟩)
  | producer v =>
    change c.producer v = .outside at hat
    cases k with
    | addTask task =>
      refine Refines.followed_step (b := .addTask v task) ?_ hat
      exact h.goProducer rfl rfl rfl hquiet rfl (rfl : (some task : Option φ) = some task)
    | queueSize => exact Refines.followed (h.stay rfl rfl rfl hquiet rfl hat)
    | takeTask | stop => simp [MayCall, brings] at hmay

/-- A thread gets the mutex. -/
theorem Refines.acquire (h : s.Refines maxQueueSize c)
    (hplace : s.sections.place t = .entering k) :
    Followed maxQueueSize c
      { s with sections := { s.sections.move t (.testing k) with owner := some t } } := by
  have hat := h.place t
  rw [hplace] at hat
  refine Refines.followed (h.stay (p := .testing k) rfl rfl rfl ?_ rfl ?_)
  · rw [hplace]
    rfl
  · cases t <;> exact hat

/-- A thread tests its guard, which is always true in `stop`. -/
theorem Refines.test (h : s.Refines maxQueueSize c)
    (hplace : s.sections.place t = .testing k) :
    Followed maxQueueSize c { s with
      sections := s.sections.move t
        (if (threadPool φ maxQueueSize).guard k s.sections.data then .ready k
          else .waiting k) } := by
  have hat := h.place t
  have hquiet : atSignal (s.sections.place t) = false := by
    rw [hplace]
    rfl
  rw [hplace] at hat
  by_cases hguard : (threadPool φ maxQueueSize).guard k s.sections.data = true
  · rw [if_pos hguard]
    refine Refines.followed (h.stay (p := .ready k) rfl rfl rfl hquiet rfl ?_)
    cases t <;> exact hat
  · rw [if_neg hguard]
    refine Refines.followed (h.stay (p := .waiting k) rfl rfl rfl hquiet rfl ?_)
    cases t with
    | worker | producer => exact hat
    | stopper =>
      obtain ⟨rfl, -, -⟩ := hat
      exact absurd rfl hguard

/-- A thread falls asleep, which is the whole of its critical section. -/
theorem Refines.sleep (h : s.Refines maxQueueSize c)
    (hexcl : State.Exclusive (threadPool φ maxQueueSize) s.sections)
    (hplace : s.sections.place t = .waiting k) :
    Followed maxQueueSize c
      { s with sections := { s.sections.move t (.asleep k) with owner := none } } := by
  have hquiet (u : PoolThread ω π) : atSignal (s.sections.place u) = false :=
    quiet_of_inside (t := t) hexcl (by rw [hplace]; rfl) (by rw [hplace]; rfl) u
  have htells := h.told.tells fun u _ => hquiet u
  have hguard := hexcl.waiting t k hplace
  have hat := h.place t
  rw [hplace] at hat
  cases t with
  | worker w =>
    obtain ⟨rfl, hloop, hwants⟩ := hat
    have hempty : s.sections.data.tasks = [] ∧ s.sections.data.running = true := by
      simpa [threadPool] using hguard
    have hqueue : c.taskQueue = [] := htells.tasks.trans hempty.1
    have hexec : c.exec (.takeTask w none) = c.moveWorker w .asleep := by
      simp [ThreadPool.exec, ThreadPool.takeTask, hqueue, htells.running, hempty.2]
    refine Refines.followed_step (b := .takeTask w none) ?_ ⟨hwants, by simp [hqueue]⟩
    rw [hexec]
    refine h.goWorker rfl rfl rfl (hquiet _) rfl ⟨rfl, hloop, ?_⟩
    rw [hquiet .stopper]
    rfl
  | producer v =>
    cases k with
    | addTask task =>
      change (c.producer v).wantsMutex = some task at hat
      have hfull : c.IsFull := by
        have hdata : 0 < maxQueueSize ∧ maxQueueSize ≤ s.sections.data.tasks.length := by
          simpa [threadPool, isFull] using hguard
        rw [ThreadPool.IsFull, h.bound, htells.tasks]
        exact hdata
      have hexec : c.exec (.pushTask v none) = c.moveProducer v (.asleep task) := by
        simp [ThreadPool.exec, hat, ThreadPool.pushTask, hfull]
      refine Refines.followed_step (b := .pushTask v none) ?_ ⟨by simp [hat], by simp [hfull]⟩
      rw [hexec]
      exact h.goProducer rfl rfl rfl (hquiet _) rfl ⟨task, rfl, rfl⟩
    | queueSize => cases hguard
    | takeTask | stop => exact hat.elim
  | stopper => exact hat.elim

/-- A thread wakes up without a signal. A worker that `stop` is about to notify is awake
already for the other program. -/
theorem Refines.wake (h : s.Refines maxQueueSize c)
    (hplace : s.sections.place t = .asleep k) :
    Followed maxQueueSize c { s with sections := s.sections.move t (.entering k) } := by
  have hquiet : atSignal (s.sections.place t) = false := by
    rw [hplace]
    rfl
  have hat := h.place t
  rw [hplace] at hat
  cases t with
  | worker w =>
    obtain ⟨rfl, hloop, hw⟩ := hat
    by_cases hstop : atSignal (s.sections.place .stopper) = true
    · rw [if_pos hstop] at hw
      refine Refines.followed (h.stay rfl rfl rfl hquiet rfl ⟨rfl, hloop, ?_⟩)
      rw [hw]
      rfl
    · rw [if_neg hstop] at hw
      refine Refines.followed_step (b := .wakeWorker w) ?_ (by
        change (notEmpty φ).asleep (c.worker w) = true
        rw [hw]
        rfl)
      refine h.goWorker rfl rfl rfl hquiet rfl ⟨rfl, hloop, ?_⟩
      rw [hw]
      rfl
  | producer v =>
    obtain ⟨task, rfl, hv⟩ := hat
    refine Refines.followed_step (b := .wakeProducer v) ?_ (by
      change (notFull φ).asleep (c.producer v) = true
      rw [hv]
      rfl)
    refine h.goProducer rfl rfl rfl hquiet rfl ?_
    rw [hv]
    exact (rfl : (some task : Option φ) = some task)
  | stopper => exact hat.elim

/-- A function returns, and the thread has its result. -/
theorem Refines.leave {sections : PoolSections ω π φ} (h : s.Refines maxQueueSize c)
    (hplace : s.sections.place t = .leaving k r)
    (hplaces : sections.place = Function.update s.sections.place t .outside)
    (hdata : sections.data = s.sections.data) (hlog : sections.log = s.sections.log) :
    Refines maxQueueSize
      (({ s with sections := sections } : PoolProgram ω π φ).receive t r) c := by
  have hquiet : atSignal (s.sections.place t) = false := by
    rw [hplace]
    rfl
  have hat := h.place t
  rw [hplace] at hat
  cases t with
  | worker w =>
    obtain ⟨rfl, hloop, hw⟩ := hat
    refine h.move hplaces hdata hlog hquiet rfl ?_
      (At.of_worker rfl (Function.update_eq_self w c.worker).symm rfl rfl rfl) rfl id h.started
      h.finished
    change (Function.update s.loop w (.taken r.taken) w).At (c.worker w)
    rw [Function.update_self]
    exact hw
  | producer v => exact h.stay hplaces hdata hlog hquiet rfl hat
  | stopper =>
    refine h.move hplaces hdata hlog hquiet rfl hat.2.2 (fun notifies u hu p hat => ?_) rfl id
      h.started h.finished
    cases u with
    | stopper => exact absurd rfl hu
    | worker | producer => exact hat

end

end PoolProgram

end Dalin
