import Dalin.Base.Failure
import Dalin.Library.ThreadFamily
import Dalin.Library.Transition
import Mathlib.Data.Fintype.Basic
import Mathlib.Logic.Function.Basic

/-!
# The thread pool

This file embeds `ThreadPool` after `start`, at the grain of its critical
sections: a thread that waits on a condition is asleep until a signal, or nothing
at all, wakes it, and then takes the mutex again. `pthread_cond_signal` wakes one
waiting thread, whichever it likes. Tasks return and do not use the pool.
-/

set_option autoImplicit false

namespace Dalin

open Transition ThreadFamily

/-- Where a worker is in `runInThread`. -/
inductive WorkerPlace (φ : Type)
  /-- At `while (running_)`. -/
  | testing
  /-- In `takeTask`, before it has the mutex. -/
  | entering
  /-- In `notEmpty_.wait()`. -/
  | asleep
  /-- In `notEmpty_.wait()`, awake, before it has the mutex again. -/
  | woken
  /-- At `if (task)`. An empty function is `none`. -/
  | taken (task : Option φ)
  /-- In `task()`. -/
  | running (task : φ)
  /-- The thread has ended. -/
  | exited
  deriving DecidableEq

/-- Where a thread is that calls `addTask`. -/
inductive ProducerPlace (φ : Type)
  | outside
  /-- In `addTask`, before it has the mutex. -/
  | entering (task : φ)
  /-- In `notFull_.wait()`. -/
  | asleep (task : φ)
  /-- In `notFull_.wait()`, awake, before it has the mutex again. -/
  | woken (task : φ)
  deriving DecidableEq

/-- Where the thread is that calls `stop`. -/
inductive StopPlace
  | outside
  /-- Past the critical section, joining the workers. -/
  | joining
  | returned
  deriving DecidableEq

/-- A `ThreadPool` with the workers `ω`, the producers `π`, and tasks `φ`. -/
structure ThreadPool (ω π φ : Type) where
  /-- `maxQueueSize_`. -/
  maxQueueSize : ℕ
  /-- `running_`. -/
  running : Bool
  /-- `taskQueue_`. -/
  taskQueue : List φ
  worker : ω → WorkerPlace φ
  producer : π → ProducerPlace φ
  stopper : StopPlace
  /-- The tasks that `addTask` pushed so far. -/
  pushed : List φ
  /-- The tasks that `takeTask` popped so far. -/
  dequeued : List φ
  /-- The tasks that were called so far. -/
  started : List φ
  /-- The tasks that have returned. -/
  finished : List φ

/-- A step of a thread. A section that signals names the thread that the signal wakes. -/
inductive PoolStep (ω π φ : Type)
  /-- The test of `running_` in `runInThread`. -/
  | testRunning (w : ω)
  /-- A critical section of `takeTask`. -/
  | takeTask (w : ω) (notified : Option π)
  /-- The call of the task, unless it is empty. -/
  | callTask (w : ω)
  | taskReturns (w : ω)
  /-- The call of `addTask`. -/
  | addTask (p : π) (task : φ)
  /-- A critical section of `addTask`. -/
  | pushTask (p : π) (notified : Option ω)
  /-- The critical section of `stop`. -/
  | stop
  /-- The last `join` returns. -/
  | stopReturns
  /-- A spurious wake-up. -/
  | wakeWorker (w : ω)
  | wakeProducer (p : π)

/-- `notEmpty_`, as the workers see it. -/
def notEmpty (φ : Type) : Condition (WorkerPlace φ) where
  asleep
    | .asleep => true
    | _ => false
  woken
    | .woken => true
    | _ => false
  wake
    | .asleep => .woken
    | place => place
  not_woken place h := by
    cases place with
    | asleep => rfl
    | _ => cases h
  woken_wake place h := by
    cases place with
    | asleep => exact ⟨rfl, rfl⟩
    | _ => cases h
  wake_awake place h := by
    cases place with
    | asleep => cases h
    | _ => rfl

/-- `notFull_`, as the producers see it. -/
def notFull (φ : Type) : Condition (ProducerPlace φ) where
  asleep
    | .asleep _ => true
    | _ => false
  woken
    | .woken _ => true
    | _ => false
  wake
    | .asleep task => .woken task
    | place => place
  not_woken place h := by
    cases place with
    | asleep => rfl
    | _ => cases h
  woken_wake place h := by
    cases place with
    | asleep => exact ⟨rfl, rfl⟩
    | _ => cases h
  wake_awake place h := by
    cases place with
    | asleep => cases h
    | _ => rfl

/-- A worker that waits for the mutex in `takeTask`. -/
def WorkerPlace.wantsMutex {φ : Type} : WorkerPlace φ → Bool
  | .entering | .woken => true
  | _ => false

/-- `takeTask` has returned. -/
def WorkerPlace.hasTaken {φ : Type} : WorkerPlace φ → Bool
  | .taken _ => true
  | _ => false

/-- A worker is in a task. -/
def WorkerPlace.isRunning {φ : Type} : WorkerPlace φ → Bool
  | .running _ => true
  | _ => false

/-- A worker has ended. -/
def WorkerPlace.hasExited {φ : Type} : WorkerPlace φ → Bool
  | .exited => true
  | _ => false

/-- The task of a producer that waits for the mutex in `addTask`. -/
def ProducerPlace.wantsMutex {φ : Type} : ProducerPlace φ → Option φ
  | .entering task | .woken task => some task
  | _ => none

namespace ThreadPool

variable {ω π φ : Type} [DecidableEq ω] [DecidableEq π]

/-- `ThreadPool::isFull`. -/
def IsFull (s : ThreadPool ω π φ) : Prop :=
  0 < s.maxQueueSize ∧ s.maxQueueSize ≤ s.taskQueue.length

instance (s : ThreadPool ω π φ) : Decidable s.IsFull := inferInstanceAs (Decidable (_ ∧ _))

/-- All workers have ended. -/
def AllExited (s : ThreadPool ω π φ) : Prop := ∀ w, (s.worker w).hasExited = true

instance [Fintype ω] (s : ThreadPool ω π φ) : Decidable s.AllExited :=
  inferInstanceAs (Decidable (∀ _, _))

/-- A worker goes to another place. -/
def moveWorker (s : ThreadPool ω π φ) (w : ω) (place : WorkerPlace φ) : ThreadPool ω π φ :=
  { s with worker := Function.update s.worker w place }

/-- A producer goes to another place. -/
def moveProducer (s : ThreadPool ω π φ) (p : π) (place : ProducerPlace φ) : ThreadPool ω π φ :=
  { s with producer := Function.update s.producer p place }

/-- `ThreadPool::takeTask`, from the mutex to the return or to the wait. -/
def takeTask (s : ThreadPool ω π φ) (w : ω) (notified : Option π) : ThreadPool ω π φ :=
  match s.taskQueue with
  | [] => if s.running = true then s.moveWorker w .asleep else s.moveWorker w (.taken none)
  | task :: rest =>
    { s.moveWorker w (.taken (some task)) with
      taskQueue := rest
      dequeued := s.dequeued ++ [task]
      producer := if 0 < s.maxQueueSize then (notFull φ).notify s.producer notified
        else s.producer }

/-- `if (task) task();` up to the call. -/
def callTask (s : ThreadPool ω π φ) (w : ω) : ThreadPool ω π φ :=
  match s.worker w with
  | .taken (some task) => { s.moveWorker w (.running task) with started := s.started ++ [task] }
  | _ => s.moveWorker w .testing

/-- The return of the task. -/
def taskReturns (s : ThreadPool ω π φ) (w : ω) : ThreadPool ω π φ :=
  match s.worker w with
  | .running task => { s.moveWorker w .testing with finished := s.finished ++ [task] }
  | _ => s

/-- `ThreadPool::addTask` on a pool with workers, from the mutex to the return or to the wait. -/
def pushTask (s : ThreadPool ω π φ) (p : π) (task : φ) (notified : Option ω) :
    ThreadPool ω π φ :=
  if s.IsFull then s.moveProducer p (.asleep task)
  else { s.moveProducer p .outside with
    taskQueue := s.taskQueue ++ [task]
    pushed := s.pushed ++ [task]
    worker := (notEmpty φ).notify s.worker notified }

/-- Which steps may come next. -/
def enabled (s : ThreadPool ω π φ) : PoolStep ω π φ → Prop
  | .testRunning w => s.worker w = .testing
  | .takeTask w notified => (s.worker w).wantsMutex = true ∧
    if s.taskQueue = [] ∨ s.maxQueueSize = 0 then notified = none
    else (notFull φ).Signals s.producer notified
  | .callTask w => (s.worker w).hasTaken = true
  | .taskReturns w => (s.worker w).isRunning = true
  | .addTask p _ => s.producer p = .outside
  | .pushTask p notified => (s.producer p).wantsMutex.isSome = true ∧
    if s.IsFull then notified = none else (notEmpty φ).Signals s.worker notified
  | .stop => s.stopper = .outside
  | .stopReturns => s.stopper = .joining ∧ s.AllExited
  | .wakeWorker w => (notEmpty φ).asleep (s.worker w) = true
  | .wakeProducer p => (notFull φ).asleep (s.producer p) = true

/-- The effect of a step. -/
def exec (s : ThreadPool ω π φ) : PoolStep ω π φ → ThreadPool ω π φ
  | .testRunning w => s.moveWorker w (if s.running = true then .entering else .exited)
  | .takeTask w notified => s.takeTask w notified
  | .callTask w => s.callTask w
  | .taskReturns w => s.taskReturns w
  | .addTask p task => s.moveProducer p (.entering task)
  | .pushTask p notified =>
    match (s.producer p).wantsMutex with
    | some task => s.pushTask p task notified
    | none => s
  | .stop => { s with
      running := false
      worker := (notEmpty φ).notifyAll s.worker
      stopper := .joining }
  | .stopReturns => { s with stopper := .returned }
  | .wakeWorker w => s.moveWorker w ((notEmpty φ).wake (s.worker w))
  | .wakeProducer p => s.moveProducer p ((notFull φ).wake (s.producer p))

end ThreadPool

/-- All runs from the return of `start` on, with the queue bound that was set before. -/
def threadPoolSystem (ω π φ : Type) [DecidableEq ω] [DecidableEq π] :
    System (ThreadPool ω π φ) (PoolStep ω π φ) Failure where
  init s := s.running = true ∧ s.taskQueue = [] ∧ (∀ w, s.worker w = .testing) ∧
    (∀ p, s.producer p = .outside) ∧ s.stopper = .outside ∧ s.pushed = [] ∧ s.dequeued = [] ∧
    s.started = [] ∧ s.finished = []
  enabled := ThreadPool.enabled
  exec s a := .ok (s.exec a)

namespace ThreadPool

variable {ω π φ : Type} [Fintype ω] [DecidableEq ω] [Fintype π] [DecidableEq π]

instance [DecidableEq φ] (s : ThreadPool ω π φ) (a : PoolStep ω π φ) : Decidable (s.enabled a) := by
  cases a <;> unfold enabled <;> infer_instance

end ThreadPool

end Dalin
