import Dalin.Base.Failure
import Dalin.Library.OrderedSet
import Dalin.Library.Transition
import Mathlib.Algebra.Group.Nat.Defs
import Mathlib.Data.Prod.Lex
import Mathlib.Logic.Function.Basic

/-!
# The timer queue

This file embeds `TimerQueue` with the timers on the heap, the timerfd, and the
clock readings as arguments. `handleRead` runs user callbacks, which add and
cancel timers, so it is cut at its calls of `run()`. Timestamps and intervals
are whole microseconds in unbounded integers: additions do not overflow.
-/

set_option autoImplicit false

namespace Dalin.Net

open Transition

/-- `Timer`, without its callback. -/
structure Timer where
  /-- `expiration_`. -/
  expiration : ℤ
  /-- What `addTime` adds for `interval_`. -/
  interval : ℤ
  /-- `repeat_`, that is `interval_ > 0.0`. -/
  repeats : Bool
  /-- `sequence_`. -/
  sequence : ℕ

/-- `Timer::restart`. -/
def Timer.restart (t : Timer) (now : ℤ) : Timer :=
  { t with expiration := if t.repeats = true then now + t.interval else 0 }

/-- `TimerId`, and `TimerQueue::ActiveTimer`: the address and the number of a timer. -/
structure TimerId where
  timer : ℕ
  sequence : ℕ
  deriving DecidableEq

instance : LinearOrder TimerId :=
  LinearOrder.lift' (fun id => toLex (id.timer, id.sequence)) fun a b h => by
    cases a
    cases b
    simpa using h

/-- `TimerQueue::Entry`: an expiration and the address of a timer. -/
structure TimerQueue.Entry where
  expiration : ℤ
  timer : ℕ
  deriving DecidableEq

instance : LinearOrder TimerQueue.Entry :=
  LinearOrder.lift' (fun e => toLex (e.expiration, e.timer)) fun a b h => by
    cases a
    cases b
    simpa using h

/-- `struct timespec`. -/
structure Timespec where
  sec : ℤ
  nsec : ℤ
  deriving DecidableEq

/-- A timerfd without interval: not set, waiting for its expiration, or expired. -/
inductive Timerfd
  | disarmed
  | armed
  | readable
  deriving DecidableEq

/-- A step of the thread of the loop, of the kernel, or of another thread. -/
inductive TimerAction
  /-- The timerfd expires. -/
  | expire
  | addTimer (timer : ℕ) (expiration interval : ℤ) (repeats : Bool) (now : ℤ)
  | foreignAddTimer (timer : ℕ) (expiration interval : ℤ) (repeats : Bool)
  /-- The next queued `addTimerInLoop` runs. -/
  | runPending (now : ℤ)
  | cancel (id : TimerId)
  | handleRead (now : ℤ)
  /-- `handleRead` calls the next `run()`. -/
  | runTimer
  | callbackReturns
  /-- The end of `handleRead`. -/
  | reset (now : ℤ)

/-- A call of `timerfd_settime`: the delay, the clock reading it was computed from, and
`timers_` at that moment. -/
structure Settime where
  delay : Timespec
  now : ℤ
  timers : OrderedSet TimerQueue.Entry

/-- A `handleRead` in progress. -/
structure Batch where
  now : ℤ
  /-- The local vector `expired`. -/
  expired : List TimerQueue.Entry
  /-- The entries that are still to be run. -/
  rest : List TimerQueue.Entry
  /-- The thread is in a callback. -/
  inCallback : Bool

/-- What happened to timers so far. -/
inductive TimerEvent
  /-- The callback of this timer was started. -/
  | started (id : TimerId)
  /-- A `cancel` for this timer was completed. -/
  | cancelled (id : TimerId)
  deriving DecidableEq

/-- `TimerQueue`, with the heap and the queue of its loop. -/
structure TimerQueue where
  /-- The timers on the heap. -/
  heap : ℕ → Option Timer
  /-- `s_numCreated_`. -/
  numCreated : ℕ
  /-- `timers_`. -/
  timers : OrderedSet TimerQueue.Entry
  /-- `callingExpiredTimers_`. -/
  callingExpiredTimers : Bool
  /-- `activeTimers_`. -/
  activeTimers : OrderedSet TimerId
  /-- `cancelingTimers_`. -/
  cancelingTimers : OrderedSet TimerId
  /-- The kernel object of `timerfd_`. -/
  timerfd : Timerfd
  /-- The last call of `timerfd_settime`. -/
  lastSettime : Option Settime
  /-- The `handleRead` in progress, if there is one. -/
  batch : Option Batch
  /-- The timers of the calls of `addTimerInLoop` in `pendingFunctors_`. -/
  pendingTimers : List ℕ
  /-- The ids that `addTimer` has returned. -/
  issued : List TimerId
  /-- The history, oldest first. -/
  history : List TimerEvent

/-- `Timestamp::kMicroSecondsPerSecond`. -/
def kMicroSecondsPerSecond : ℤ := 1000 * 1000

/-- `UINTPTR_MAX`. -/
def UINTPTR_MAX : ℕ := 2 ^ 64 - 1

/-- `howMuchTimeFromNow`. -/
def howMuchTimeFromNow (when now : ℤ) : Timespec :=
  let microseconds := if when - now < 100 then 100 else when - now
  ⟨microseconds.tdiv kMicroSecondsPerSecond, microseconds.tmod kMicroSecondsPerSecond * 1000⟩

namespace Timespec

/-- What `timerfd_settime` accepts. -/
def Normalised (ts : Timespec) : Prop := 0 ≤ ts.sec ∧ 0 ≤ ts.nsec ∧ ts.nsec < 1000000000

instance (ts : Timespec) : Decidable ts.Normalised := inferInstanceAs (Decidable (_ ∧ _))

/-- The length in nanoseconds. -/
def nanoseconds (ts : Timespec) : ℤ := ts.sec * 1000000000 + ts.nsec

end Timespec

namespace TimerQueue

/-- `*timer`. -/
def deref (q : TimerQueue) (timer : ℕ) : Except Failure Timer :=
  match q.heap timer with
  | some t => .ok t
  | none => .error (.danglingPointer "timer")

/-- `timerfd_settime(timerfd, 0, &newValue, &oldValue)`: a zero value disarms, and a value
that is not normalised is refused. -/
def settime (q : TimerQueue) (delay : Timespec) (now : ℤ) : TimerQueue :=
  { q with
    timerfd := if ¬ delay.Normalised then q.timerfd
      else if delay = ⟨0, 0⟩ then .disarmed else .armed
    lastSettime := some ⟨delay, now, q.timers⟩ }

/-- `resetTimerfd`. -/
def resetTimerfd (q : TimerQueue) (expiration now : ℤ) : TimerQueue :=
  q.settime (howMuchTimeFromNow expiration now) now

/-- `readTimerfd`: a read of a timerfd that has expired, or one that fails. -/
def readTimerfd (q : TimerQueue) : TimerQueue :=
  { q with timerfd := if q.timerfd = .readable then .disarmed else q.timerfd }

/-- `assert(timers_.size() == activeTimers_.size())`. -/
def requireSizes (q : TimerQueue) : Except Failure Unit :=
  require (q.timers.size = q.activeTimers.size) "timers_.size() == activeTimers_.size()"

/-- `TimerQueue::insert`. Returns whether the earliest expiration changed. -/
def insert (q : TimerQueue) (timer : ℕ) : Except Failure (TimerQueue × Bool) := do
  q.requireSizes
  let t ← q.deref timer
  let earliestChanged := match q.timers.first? with
    | none => true
    | some e => decide (t.expiration < e.expiration)
  require (⟨t.expiration, timer⟩ ∉ q.timers) "result.second"
  let q := { q with timers := q.timers.insert ⟨t.expiration, timer⟩ }
  require (⟨timer, t.sequence⟩ ∉ q.activeTimers) "result.second"
  let q := { q with activeTimers := q.activeTimers.insert ⟨timer, t.sequence⟩ }
  q.requireSizes
  return (q, earliestChanged)

/-- `TimerQueue::addTimerInLoop`. -/
def addTimerInLoop (q : TimerQueue) (timer : ℕ) (now : ℤ) : Except Failure TimerQueue := do
  let (q, earliestChanged) ← q.insert timer
  if earliestChanged = true then
    let t ← q.deref timer
    return q.resetTimerfd t.expiration now
  else return q

/-- `new Timer`, at an address the allocator chose. -/
def newTimer (q : TimerQueue) (timer : ℕ) (expiration interval : ℤ) (repeats : Bool) :
    TimerQueue :=
  { q with
    heap := Function.update q.heap timer (some ⟨expiration, interval, repeats, q.numCreated + 1⟩)
    numCreated := q.numCreated + 1 }

/-- `TimerQueue::cancelInLoop`. -/
def cancelInLoop (q : TimerQueue) (id : TimerId) : Except Failure TimerQueue := do
  q.requireSizes
  if id ∈ q.activeTimers then
    let t ← q.deref id.timer
    require (⟨t.expiration, id.timer⟩ ∈ q.timers) "n == 1"
    let q := { q with
      timers := q.timers.erase ⟨t.expiration, id.timer⟩
      heap := Function.update q.heap id.timer none
      activeTimers := q.activeTimers.erase id }
    q.requireSizes
    return q
  else if q.callingExpiredTimers = true then
    return { q with cancelingTimers := q.cancelingTimers.insert id }
  else return q

/-- The loop of `getExpired` that takes the expired timers out of `activeTimers_`. -/
def eraseActive (q : TimerQueue) : List Entry → Except Failure TimerQueue
  | [] => .ok q
  | entry :: rest => do
    let t ← q.deref entry.timer
    require (⟨entry.timer, t.sequence⟩ ∈ q.activeTimers) "n == 1"
    { q with activeTimers := q.activeTimers.erase ⟨entry.timer, t.sequence⟩ }.eraseActive rest

/-- `TimerQueue::getExpired`. -/
def getExpired (q : TimerQueue) (now : ℤ) : Except Failure (TimerQueue × List Entry) := do
  q.requireSizes
  let sentry : Entry := ⟨now, UINTPTR_MAX⟩
  let expired := q.timers.below sentry
  let q := { q with timers := q.timers.above sentry }
  require (∀ e ∈ q.timers.first?, now < e.expiration) "it == timers_.end() || now < it->first"
  let q ← q.eraseActive expired
  q.requireSizes
  return (q, expired)

/-- `TimerQueue::handleRead`, up to the first call of `run()`. -/
def handleRead (q : TimerQueue) (now : ℤ) : Except Failure TimerQueue := do
  let (q, expired) ← q.readTimerfd.getExpired now
  return { q with
    callingExpiredTimers := true
    cancelingTimers := .empty
    batch := some ⟨now, expired, expired, false⟩ }

/-- The loop of `reset` that inserts the repeating timers again. -/
def restartTimers (q : TimerQueue) (now : ℤ) : List Entry → Except Failure TimerQueue
  | [] => .ok q
  | entry :: rest => do
    let t ← q.deref entry.timer
    if t.repeats = true ∧ ⟨entry.timer, t.sequence⟩ ∉ q.cancelingTimers then
      let q := { q with heap := Function.update q.heap entry.timer (some (t.restart now)) }
      let (q, _) ← q.insert entry.timer
      q.restartTimers now rest
    else q.restartTimers now rest

/-- The end of `reset`: the timerfd is set for the earliest timer, if its expiration is a
valid timestamp. -/
def rearm (q : TimerQueue) (now : ℤ) : Except Failure TimerQueue :=
  match q.timers.first? with
  | none => .ok q
  | some e => do
    let t ← q.deref e.timer
    if 0 < t.expiration then return q.resetTimerfd t.expiration now else return q

/-- `TimerQueue::reset`, where `clock` is the reading for `howMuchTimeFromNow`. -/
def reset (q : TimerQueue) (expired : List Entry) (now clock : ℤ) : Except Failure TimerQueue := do
  let q ← q.restartTimers now expired
  q.rearm clock

/-- The thread of the loop may call `addTimer` and `cancel`: it is in no `handleRead`, or
in a callback of it. -/
def InUserCode (q : TimerQueue) : Prop := ∀ b ∈ q.batch, b.inCallback = true

instance (q : TimerQueue) : Decidable q.InUserCode :=
  match h : q.batch with
  | none => .isTrue fun b hb => by simp [h] at hb
  | some b => decidable_of_iff (b.inCallback = true) (by simp [InUserCode, h])

/-- An address that the allocator may choose, and an interval that agrees with `repeat_`. -/
def MayCreate (q : TimerQueue) (timer : ℕ) (interval : ℤ) (repeats : Bool) : Prop :=
  (q.heap timer).isNone = true ∧ timer < UINTPTR_MAX ∧ (repeats = true → 0 ≤ interval)

instance (q : TimerQueue) (timer : ℕ) (interval : ℤ) (repeats : Bool) :
    Decidable (q.MayCreate timer interval repeats) := inferInstanceAs (Decidable (_ ∧ _ ∧ _))

/-- Which steps may come next. All clock readings are positive. -/
def enabled (q : TimerQueue) : TimerAction → Prop
  | .expire => q.timerfd = .armed
  | .addTimer timer _ interval repeats now =>
    q.InUserCode ∧ q.MayCreate timer interval repeats ∧ 0 < now
  | .foreignAddTimer timer _ interval repeats => q.MayCreate timer interval repeats
  | .runPending now => q.batch.isNone = true ∧ q.pendingTimers ≠ [] ∧ 0 < now
  | .cancel _ => q.InUserCode
  | .handleRead now => q.batch.isNone = true ∧ 0 < now
  | .runTimer => q.batch.any (fun b => !b.inCallback && !b.rest.isEmpty) = true
  | .callbackReturns => q.batch.any (fun b => b.inCallback) = true
  | .reset now => q.batch.any (fun b => !b.inCallback && b.rest.isEmpty) = true ∧ 0 < now

instance (q : TimerQueue) (a : TimerAction) : Decidable (q.enabled a) := by
  cases a <;> unfold enabled <;> infer_instance

/-- The id that `addTimer` returns for a new timer. -/
def issue (q : TimerQueue) (timer : ℕ) : TimerQueue :=
  { q with issued := q.issued ++ [⟨timer, q.numCreated⟩] }

/-- The effect of a step. -/
def exec (q : TimerQueue) : TimerAction → Except Failure TimerQueue
  | .expire => .ok { q with timerfd := .readable }
  | .addTimer timer expiration interval repeats now => do
    let q ← (q.newTimer timer expiration interval repeats).addTimerInLoop timer now
    return q.issue timer
  | .foreignAddTimer timer expiration interval repeats =>
    .ok ({ q.newTimer timer expiration interval repeats with
      pendingTimers := q.pendingTimers ++ [timer] }.issue timer)
  | .runPending now =>
    match q.pendingTimers with
    | [] => .ok q
    | timer :: rest => { q with pendingTimers := rest }.addTimerInLoop timer now
  | .cancel id => do
    let q' ← q.cancelInLoop id
    return { q' with history := q'.history ++ if id ∈ q.issued then [.cancelled id] else [] }
  | .handleRead now => q.handleRead now
  | .runTimer =>
    match q.batch with
    | some ⟨now, expired, entry :: rest, _⟩ => do
      let t ← q.deref entry.timer
      return { q with
        batch := some ⟨now, expired, rest, true⟩
        history := q.history ++ [.started ⟨entry.timer, t.sequence⟩] }
    | _ => .ok q
  | .callbackReturns => .ok { q with batch := q.batch.map fun b => { b with inCallback := false } }
  | .reset clock =>
    match q.batch with
    | some b => do
      let q ← { q with callingExpiredTimers := false }.reset b.expired b.now clock
      return { q with batch := none }
    | none => .ok q

end TimerQueue

/-- All runs of a timer queue from its construction on. -/
def timerSystem : System TimerQueue TimerAction Failure where
  init q := q.heap = (fun _ => none) ∧ q.timers = .empty ∧ q.activeTimers = .empty ∧
    q.callingExpiredTimers = false ∧ q.timerfd = .disarmed ∧ q.lastSettime = none ∧
    q.batch = none ∧ q.pendingTimers = [] ∧ q.issued = [] ∧ q.history = []
  enabled := TimerQueue.enabled
  exec := TimerQueue.exec

instance (q : TimerQueue) (a : TimerAction) : Decidable (timerSystem.enabled q a) :=
  inferInstanceAs (Decidable (q.enabled a))

end Dalin.Net
