import Dalin.Base.Failure
import Dalin.Library.Monitor
import Mathlib.Data.Int.CardIntervalMod
import Mathlib.Data.Int.Notation

/-!
# The threads of the I/O loops

`EventLoopThreadPool::start` makes its threads one after the other. Each of them
constructs an `EventLoop` in the frame of `threadFunc` and hands its address over
through `loop_`, which the monitor `handOff` guards; `startLoop` waits for it.
Afterwards `getNextLoop` deals the loops out in turn. This file follows a pool
through its whole start, with the steps of its threads in any order.
-/

set_option autoImplicit false

namespace Dalin.Net

open Monitors Transition

/-- An `EventLoop`: the base loop of the pool, or the local variable of `threadFunc` in the
thread of this number. -/
inductive PoolLoop
  | base
  | inThread (k : ℕ)
  deriving DecidableEq

/-- The two threads that use an `EventLoopThread`. -/
inductive Party
  | owner
  | loopThread
  deriving DecidableEq

instance : Fintype Party := ⟨{.owner, .loopThread}, fun party => by cases party <;> simp⟩

/-- The sections of `EventLoopThread` that hold its `mutex_`. -/
inductive HandOffCall
  /-- The wait in `startLoop`. -/
  | startLoop
  /-- The assignment of `loop_` in `threadFunc`. -/
  | threadFunc (loop : PoolLoop)
  deriving DecidableEq

/-- The members `loop_`, `mutex_` and `cond_` of an `EventLoopThread`. The result of `startLoop`
is read after its section, but nobody writes to `loop_` any more. -/
def handOff : Monitor (Option PoolLoop) HandOffCall Unit (Option PoolLoop) where
  guard
    -- `while (loop_ == NULL)`
    | .startLoop, loop => loop.isSome
    | .threadFunc _, _ => true
  cond
    | .startLoop => some ()
    | .threadFunc _ => none
  body
    | .startLoop, loop => loop
    | .threadFunc loop, _ => some loop
  result
    | .startLoop, loop => loop
    | .threadFunc _, _ => none
  signal
    | .startLoop, _ => .silent
    | .threadFunc _, _ => .one ()

/-- The owner waits for the loop, and the thread of number `k` hands over its own. -/
def MayCall (k : ℕ) : Party → HandOffCall → Prop
  | .owner, call => call = .startLoop
  | .loopThread, call => call = .threadFunc (.inThread k)

instance (k : ℕ) (party : Party) (call : HandOffCall) : Decidable (MayCall k party call) := by
  unfold MayCall
  apply @Party.casesOn _ party <;> infer_instance

/-- The state of a hand-over. -/
abbrev HandOff := State Party (Option PoolLoop) HandOffCall Unit (Option PoolLoop)

/-- `EventLoopThread`. -/
structure EventLoopThread where
  /-- `thread_.started()`. -/
  started : Bool
  /-- `loop_` with `mutex_` and `cond_`. -/
  monitor : HandOff
  /-- The thread has come past the construction of the loop in `threadFunc`. -/
  constructed : Bool

namespace EventLoopThread

/-- `EventLoopThread::EventLoopThread`. -/
def new : EventLoopThread := ⟨false, ⟨none, none, fun _ => .outside, [], []⟩, false⟩

/-- `EventLoopThread::startLoop`, up to the lock of `mutex_`. -/
def startLoop (t : EventLoopThread) : Except Failure EventLoopThread := do
  require (t.started = false) "!thread_.started()"
  return { t with started := true, monitor := t.monitor.move .owner (.entering .startLoop) }

/-- `EventLoopThread::threadFunc` in the thread of number `k`, up to the lock of `mutex_`. -/
def threadFunc (t : EventLoopThread) (k : ℕ) : EventLoopThread :=
  { t with
    constructed := true
    monitor := t.monitor.move .loopThread (.entering (.threadFunc (.inThread k))) }

/-- What the last `startLoop` returned. -/
def returned (t : EventLoopThread) : Option PoolLoop :=
  (State.callsOf .owner t.monitor.returned).getLast?.bind Entry.result

end EventLoopThread

/-- Where the base thread is. -/
inductive PoolPlace
  | idle
  /-- In `start`, at the test of the loop. -/
  | looping (i : ℕ)
  /-- In `start`, in `startLoop` of this thread. -/
  | waiting (i : ℕ)
  deriving DecidableEq

/-- `EventLoopThreadPool`. -/
structure EventLoopThreadPool where
  /-- `started_`. -/
  started : Bool
  /-- `numThreads_`. -/
  numThreads : ℤ
  /-- `next_`. -/
  next : ℕ
  /-- `threads_`, and the thread `t` of `start`. -/
  threads : List EventLoopThread
  /-- `loops_`. -/
  loops : List (Option PoolLoop)
  place : PoolPlace
  /-- `numThreads_` at the call of `start`. -/
  asked : ℤ
  /-- What `getNextLoop` has returned since the call of `start`. -/
  given : List (Option PoolLoop)

/-- A step of the base thread, or of a thread of the pool. -/
inductive PoolStep
  | setThreadNum (numThreads : ℤ)
  | start (inLoop : Bool)
  /-- `start` makes the next thread and calls `startLoop`. -/
  | newThread
  /-- `startLoop` has returned. -/
  | pushBack
  | startReturns
  | getNextLoop (inLoop : Bool)
  /-- A thread has constructed its loop. -/
  | threadFunc (k : ℕ)
  /-- An operation on the mutex or the condition of an `EventLoopThread`. -/
  | handOff (k : ℕ) (a : Action Party HandOffCall)

namespace EventLoopThreadPool

/-- Change a thread. -/
def modifyThread (s : EventLoopThreadPool) (k : ℕ) (f : EventLoopThread → EventLoopThread) :
    EventLoopThreadPool :=
  { s with threads := s.threads.modify k f }

/-- `baseLoop_->assertInLoopThread()`. -/
def assertInLoopThread (inLoop : Bool) : Except Failure Unit :=
  if inLoop then .ok () else .error (.abort "EventLoop::abortNotInThread")

/-- `EventLoopThreadPool::start`, up to its loop. -/
def start (s : EventLoopThreadPool) (inLoop : Bool) : Except Failure EventLoopThreadPool := do
  require (s.started = false) "!started_"
  assertInLoopThread inLoop
  return { s with started := true, place := .looping 0, asked := s.numThreads, given := [] }

/-- The body of the loop in `start`, up to the wait in `startLoop`. -/
def newThread (s : EventLoopThreadPool) (i : ℕ) : Except Failure EventLoopThreadPool := do
  let t ← EventLoopThread.new.startLoop
  return { s with threads := s.threads ++ [t], place := .waiting i }

/-- The rest of the body. -/
def pushBack (s : EventLoopThreadPool) (i : ℕ) (t : EventLoopThread) : EventLoopThreadPool :=
  { s with loops := s.loops ++ [t.returned], place := .looping (i + 1) }

/-- `EventLoopThreadPool::getNextLoop`. -/
def getNextLoop (s : EventLoopThreadPool) (inLoop : Bool) :
    Except Failure EventLoopThreadPool := do
  assertInLoopThread inLoop
  if s.loops = [] then return { s with given := s.given ++ [some .base] }
  else
    match s.loops[s.next]? with
    | none => .error (.danglingPointer "loops_[next_]")
    | some loop => return { s with
        given := s.given ++ [loop]
        next := if s.loops.length ≤ s.next + 1 then 0 else s.next + 1 }

/-- Which steps may come next. -/
def enabled (s : EventLoopThreadPool) : PoolStep → Prop
  | .setThreadNum _ | .start _ | .getNextLoop _ => s.place = .idle
  | .newThread =>
    match s.place with
    | .looping i => i < s.numThreads
    | _ => False
  | .pushBack =>
    match s.place with
    | .waiting i =>
      s.threads[i]?.any (fun t => decide (t.monitor.place .owner = .outside)) = true
    | _ => False
  | .startReturns =>
    match s.place with
    | .looping i => s.numThreads ≤ i
    | _ => False
  | .threadFunc k => s.threads[k]?.any (fun t => t.started && !t.constructed) = true
  | .handOff k a =>
    a.continues = true ∧ ∃ t ∈ s.threads[k]?, t.monitor.enabled handOff (MayCall k) a

instance (s : EventLoopThreadPool) (a : PoolStep) : Decidable (s.enabled a) := by
  unfold enabled
  apply @PoolStep.casesOn _ a <;> intros <;> dsimp only
  all_goals first
    | infer_instance
    | generalize s.place = place
      apply @PoolPlace.casesOn _ place <;> intros <;> infer_instance

/-- The effect of a step. -/
def exec (s : EventLoopThreadPool) : PoolStep → Except Failure EventLoopThreadPool
  | .setThreadNum numThreads => .ok { s with numThreads := numThreads }
  | .start inLoop => s.start inLoop
  | .newThread =>
    match s.place with
    | .looping i => s.newThread i
    | _ => .ok s
  | .pushBack =>
    match s.place with
    | .waiting i =>
      match s.threads[i]? with
      | some t => .ok (s.pushBack i t)
      | none => .ok s
    | _ => .ok s
  | .startReturns => .ok { s with place := .idle }
  | .getNextLoop inLoop => s.getNextLoop inLoop
  | .threadFunc k => .ok (s.modifyThread k fun t => t.threadFunc k)
  | .handOff k a => .ok (s.modifyThread k fun t => { t with monitor := t.monitor.exec handOff a })

/-- `EventLoopThreadPool::EventLoopThreadPool`. -/
structure New (s : EventLoopThreadPool) : Prop where
  started : s.started = false
  numThreads : s.numThreads = 0
  next : s.next = 0
  threads : s.threads = []
  loops : s.loops = []
  place : s.place = .idle
  given : s.given = []

end EventLoopThreadPool

/-- All runs of a pool and its threads. -/
def poolSystem : System EventLoopThreadPool PoolStep Failure where
  init := EventLoopThreadPool.New
  enabled := EventLoopThreadPool.enabled
  exec := EventLoopThreadPool.exec

instance (s : EventLoopThreadPool) (a : PoolStep) : Decidable (poolSystem.enabled s a) :=
  inferInstanceAs (Decidable (s.enabled a))

end Dalin.Net
