import Dalin.Base.TaskQueue
import Dalin.Base.ThreadPool
import Mathlib.Data.Fintype.Sum

/-!
# The thread pool, operation by operation

The workers of a `ThreadPool` in their loops, the producers and the thread that calls
`stop`, when every operation on `mutex_`, `notEmpty_` and `notFull_` is a step of its
own and `while (running_)` reads `running_` without the mutex, and how a state of this
program is told at the grain of critical sections.
-/

set_option autoImplicit false

namespace Dalin

open Transition Monitors TaskQueue TaskQueueCall

/-- The threads of a program with one pool. -/
inductive PoolThread (ω π : Type)
  | worker (w : ω)
  | producer (p : π)
  | stopper
  deriving DecidableEq

instance {ω π : Type} [Fintype ω] [Fintype π] : Fintype (PoolThread ω π) :=
  .ofEquiv (ω ⊕ π ⊕ Unit)
    { toFun := fun
        | .inl w => .worker w
        | .inr (.inl p) => .producer p
        | .inr (.inr ()) => .stopper
      invFun := fun
        | .worker w => .inl w
        | .producer p => .inr (.inl p)
        | .stopper => .inr (.inr ())
      left_inv := fun t => by rcases t with w | p | u <;> rfl
      right_inv := fun t => by cases t <;> rfl }

/-- Where a worker is in `runInThread`. -/
inductive LoopPlace (φ : Type)
  /-- At `while (running_)`. -/
  | testing
  /-- In `takeTask`, or at its call. -/
  | taking
  /-- At `if (task)`. -/
  | taken (task : Option φ)
  /-- In `task()`. -/
  | running (task : φ)
  /-- The thread has ended. -/
  | exited
  deriving DecidableEq

/-- `takeTask` has returned. -/
def LoopPlace.hasTaken {φ : Type} : LoopPlace φ → Bool
  | .taken _ => true
  | _ => false

/-- A worker is in a task. -/
def LoopPlace.isRunning {φ : Type} : LoopPlace φ → Bool
  | .running _ => true
  | _ => false

/-- The threads in the functions that lock `mutex_`. -/
abbrev PoolSections (ω π φ : Type) :=
  State (PoolThread ω π) (TaskQueue φ) (TaskQueueCall φ) TaskQueueCondition (TaskQueueResult φ)

/-- A pool with the workers `ω`, the producers `π` and tasks `φ`, after `start`. -/
structure PoolProgram (ω π φ : Type) where
  sections : PoolSections ω π φ
  loop : ω → LoopPlace φ
  /-- `joining` once the critical section of `stop` is over. -/
  stopper : StopPlace
  /-- The tasks that were called so far. -/
  started : List φ
  /-- The tasks that have returned. -/
  finished : List φ

/-- A step of a thread. -/
inductive ProgramStep (ω π φ : Type)
  /-- The test of `running_` in `runInThread`. -/
  | testRunning (w : ω)
  /-- The call of a function that locks the mutex, or an operation in it. -/
  | operation (a : Action (PoolThread ω π) (TaskQueueCall φ))
  /-- The call of the task, unless it is empty. -/
  | callTask (w : ω)
  | taskReturns (w : ω)
  /-- The last `join` returns. -/
  | stopReturns

namespace PoolProgram

variable {ω π φ : Type} [DecidableEq ω] [DecidableEq π]

/-- Which functions a thread may call. -/
def MayCall (s : PoolProgram ω π φ) : PoolThread ω π → TaskQueueCall φ → Prop
  | .worker w, c => c = .takeTask ∧ s.loop w = .taking
  | .producer _, c => c.brings.isSome = true ∨ c = .queueSize
  | .stopper, c => c = .stop ∧ s.stopper = .outside

/-- A worker goes to another place. -/
def moveLoop (s : PoolProgram ω π φ) (w : ω) (place : LoopPlace φ) : PoolProgram ω π φ :=
  { s with loop := Function.update s.loop w place }

/-- What a thread does with the result of a function. -/
def receive (s : PoolProgram ω π φ) : PoolThread ω π → TaskQueueResult φ → PoolProgram ω π φ
  | .worker w, r => s.moveLoop w (.taken r.taken)
  | .producer _, _ => s
  | .stopper, _ => { s with stopper := .joining }

/-- An operation is over, and a return gives the thread its result. -/
def operate (s : PoolProgram ω π φ) (sections : PoolSections ω π φ)
    (a : Action (PoolThread ω π) (TaskQueueCall φ)) : PoolProgram ω π φ :=
  match a, s.sections.place a.thread with
  | .leave t, .leaving _ r => { s with sections := sections }.receive t r
  | _, _ => { s with sections := sections }

/-- Which steps may come next. -/
def enabled (maxQueueSize : ℕ) (s : PoolProgram ω π φ) : ProgramStep ω π φ → Prop
  | .testRunning w => s.loop w = .testing
  | .operation a => s.sections.enabled (threadPool φ maxQueueSize) s.MayCall a
  | .callTask w => (s.loop w).hasTaken = true
  | .taskReturns w => (s.loop w).isRunning = true
  | .stopReturns => s.stopper = .joining ∧ ∀ w, s.loop w = .exited

/-- The effect of a step. -/
def exec (maxQueueSize : ℕ) (s : PoolProgram ω π φ) : ProgramStep ω π φ → PoolProgram ω π φ
  | .testRunning w => s.moveLoop w (if s.sections.data.running = true then .taking else .exited)
  | .operation a => s.operate (s.sections.exec (threadPool φ maxQueueSize) a) a
  | .callTask w =>
    match s.loop w with
    | .taken (some task) => { s.moveLoop w (.running task) with started := s.started ++ [task] }
    | _ => s.moveLoop w .testing
  | .taskReturns w =>
    match s.loop w with
    | .running task => { s.moveLoop w .testing with finished := s.finished ++ [task] }
    | _ => s
  | .stopReturns => { s with stopper := .returned }

instance [DecidableEq φ] (s : PoolProgram ω π φ) (t : PoolThread ω π) (c : TaskQueueCall φ) :
    Decidable (s.MayCall t c) := by
  unfold MayCall
  apply @PoolThread.casesOn _ _ _ t <;> intros <;> infer_instance

instance [Fintype ω] [Fintype π] [DecidableEq φ] (maxQueueSize : ℕ) (s : PoolProgram ω π φ)
    (a : ProgramStep ω π φ) : Decidable (s.enabled maxQueueSize a) := by
  unfold enabled
  apply @ProgramStep.casesOn _ _ _ _ a <;> intros <;> infer_instance

end PoolProgram

/-- All runs from the return of `start` on. -/
def poolProgram (ω π φ : Type) [DecidableEq ω] [DecidableEq π] (maxQueueSize : ℕ) :
    System (PoolProgram ω π φ) (ProgramStep ω π φ) Empty where
  init s := State.New ⟨[], true⟩ s.sections ∧ (∀ w, s.loop w = .testing) ∧
    s.stopper = .outside ∧ s.started = [] ∧ s.finished = []
  enabled := PoolProgram.enabled maxQueueSize
  exec s a := .ok (s.exec maxQueueSize a)

instance {ω π φ : Type} [Fintype ω] [Fintype π] [DecidableEq ω] [DecidableEq π] [DecidableEq φ]
    {maxQueueSize : ℕ} (s : PoolProgram ω π φ) (a : ProgramStep ω π φ) :
    Decidable ((poolProgram ω π φ maxQueueSize).enabled s a) :=
  inferInstanceAs (Decidable (s.enabled maxQueueSize a))

/-! ### The grain of critical sections -/

/-- A thread at this place is about to signal. -/
def atSignal {φ : Type} :
    Place (TaskQueueCall φ) TaskQueueCondition (TaskQueueResult φ) → Bool
  | .signalling _ _ _ => true
  | _ => false

/-- Where a worker is that has the mutex for nothing. -/
def LoopPlace.At {φ : Type} : LoopPlace φ → WorkerPlace φ → Prop
  | .testing, place => place = .testing
  | .taking, place => place.wantsMutex = true
  | .taken task, place => place = .taken task
  | .running task, place => place = .running task
  | .exited, place => place = .exited

/-- Where a worker is. While `stop` has not yet notified, it counts as awake. -/
def WorkerAt {φ : Type} (stopNotifies : Bool) (loop : LoopPlace φ) (place : WorkerPlace φ) :
    Place (TaskQueueCall φ) TaskQueueCondition (TaskQueueResult φ) → Prop
  | .outside => loop.At place
  | .entering c | .testing c | .waiting c | .ready c | .signalling c _ _ =>
    c = .takeTask ∧ loop = .taking ∧ place.wantsMutex = true
  | .asleep c => c = .takeTask ∧ loop = .taking ∧
    place = if stopNotifies = true then .woken else .asleep
  | .leaving c r => c = .takeTask ∧ loop = .taking ∧ place = .taken r.taken

/-- What a producer wants from its call. -/
def TaskQueueCall.At {φ : Type} : TaskQueueCall φ → ProducerPlace φ → Prop
  | .addTask task, place => place.wantsMutex = some task
  | .queueSize, place => place = .outside
  | _, _ => False

/-- Where a producer is. -/
def ProducerAt {φ : Type} (place : ProducerPlace φ) :
    Place (TaskQueueCall φ) TaskQueueCondition (TaskQueueResult φ) → Prop
  | .outside | .leaving _ _ => place = .outside
  | .entering c | .testing c | .waiting c | .ready c | .signalling c _ _ => c.At place
  | .asleep c => ∃ task, c = .addTask task ∧ place = .asleep task

/-- Where the thread is that calls `stop`. -/
def StopperAt {φ : Type} (past place : StopPlace) :
    Place (TaskQueueCall φ) TaskQueueCondition (TaskQueueResult φ) → Prop
  | .outside => place = past
  | .entering c | .testing c | .ready c => c = .stop ∧ past = .outside ∧ place = .outside
  | .signalling c _ sig =>
    c = .stop ∧ sig = .all .notEmpty ∧ past = .outside ∧ place = .joining
  | .leaving c _ => c = .stop ∧ past = .outside ∧ place = .joining
  | .waiting _ | .asleep _ => False

/-- What some calls left behind. -/
structure Tells {ω π φ : Type} (entries : List (TaskQueueEntry (PoolThread ω π) φ))
    (q : TaskQueue φ) (c : ThreadPool ω π φ) : Prop where
  tasks : c.taskQueue = q.tasks
  running : c.running = q.running
  pushed : c.pushed = added entries
  dequeued : c.dequeued = taken entries

/-- What the calls left behind, but for a call of `addTask`, `takeTask` or `queueSize` that has
not signalled. -/
inductive Told {ω π φ : Type} (maxQueueSize : ℕ) (s : PoolSections ω π φ)
    (c : ThreadPool ω π φ) : Prop
  | settled : (∀ t, t ≠ .stopper → atSignal (s.place t) = false) → Tells s.log s.data c →
      Told maxQueueSize s c
  | acted {t : PoolThread ω π} {call : TaskQueueCall φ} {q : TaskQueue φ}
      {entries : List (TaskQueueEntry (PoolThread ω π) φ)} : t ≠ .stopper →
      s.place t = .signalling call ((threadPool φ maxQueueSize).result call q)
        ((threadPool φ maxQueueSize).signal call q) →
      (threadPool φ maxQueueSize).guard call q = true →
      s.log = entries ++ [⟨t, call, (threadPool φ maxQueueSize).result call q⟩] →
      s.data = (threadPool φ maxQueueSize).body call q → Tells entries q c →
      Told maxQueueSize s c

namespace PoolProgram

variable {ω π φ : Type}

/-- Where a thread is. -/
def At (s : PoolProgram ω π φ) (c : ThreadPool ω π φ) (stopNotifies : Bool) :
    PoolThread ω π → Place (TaskQueueCall φ) TaskQueueCondition (TaskQueueResult φ) → Prop
  | .worker w => WorkerAt stopNotifies (s.loop w) (c.worker w)
  | .producer p => ProducerAt (c.producer p)
  | .stopper => StopperAt s.stopper c.stopper

/-- A critical section counts from its signal on if it is not that of `stop`, which counts from the
change of `running_` on. -/
structure Refines (maxQueueSize : ℕ) (s : PoolProgram ω π φ) (c : ThreadPool ω π φ) : Prop where
  bound : c.maxQueueSize = maxQueueSize
  told : Told maxQueueSize s.sections c
  place : ∀ t, s.At c (atSignal (s.sections.place .stopper)) t (s.sections.place t)
  started : c.started = s.started
  finished : c.finished = s.finished

end PoolProgram

end Dalin
