import Dalin.Base.Failure
import Dalin.Library.Transition
import Mathlib.Logic.Function.Basic

/-!
# The wake-up of an event loop

Other threads hand functors to an `EventLoop` in two steps: a push under
`mutex_`, and a write to the eventfd that the loop polls. The thread of the loop
itself writes only while it calls the pending functors, and its `handleRead`
takes all earlier writes at once. This file embeds `EventLoop::loop` and
`queueInLoop` at the grain of these steps, and shows that no functor is left
behind while the loop sleeps.
-/

set_option autoImplicit false

namespace Dalin.Net

open Transition

/-- The largest value of an eventfd counter; a write that would pass it fails. -/
def eventfdMax : ℕ := 0xfffffffffffffffe

/-- A channel that a poll reports: the wake-up channel, or one whose handler is elsewhere. -/
inductive Source
  | wakeup
  | other
  deriving DecidableEq

/-- Where the thread of the loop is. -/
inductive Place (φ : Type)
  /-- At the test of `quit_`. -/
  | loopHead
  /-- In `Poller::poll`. -/
  | poll
  /-- Between two calls of `handleEvent`. -/
  | handling (activeChannels : List Source)
  /-- In a handler that is not the one of the wake-up channel. -/
  | handler (activeChannels : List Source)
  /-- In `doPendingFunctors`, before the swap. -/
  | swapping
  /-- In `doPendingFunctors`, between two functors. -/
  | running (functors : List φ)
  /-- In a functor. -/
  | functor (functors : List φ)
  /-- Past the loop. -/
  | left
  deriving DecidableEq

/-- Where another thread is. -/
inductive Caller
  | outside
  /-- In `queueInLoop`, between the push and `wakeup`. -/
  | pushed
  /-- In `quit`, between the assignment and `wakeup`. -/
  | quitting
  deriving DecidableEq

/-- An `EventLoop` with the threads `τ` that use it, and functors `φ`. -/
structure EventLoop (τ φ : Type) where
  /-- `quit_`. -/
  quit : Bool
  /-- `callingPendingFunctors_`. -/
  callingPendingFunctors : Bool
  /-- `pendingFunctors_`. -/
  pendingFunctors : List φ
  /-- The counter of `wakeupFd_`. -/
  wakeupFd : ℕ
  /-- The thread of the loop. -/
  place : Place φ
  /-- The thread of the loop is in `queueInLoop`, past the push. -/
  inQueueInLoop : Bool
  /-- The other threads. -/
  caller : τ → Caller

/-- A step of the thread of the loop, or of another thread. -/
inductive LoopStep (τ φ : Type)
  | enterPoll
  | leave
  | pollReturns (activeChannels : List Source)
  | handleEvent
  | handlerReturns
  | setCalling
  | swap
  | callFunctor
  | functorReturns
  | clearCalling
  | push (f : φ)
  | testCalling
  | quit
  | foreignPush (t : τ) (f : φ)
  | foreignWakeup (t : τ)
  | foreignQuit (t : τ)

namespace EventLoop

variable {τ φ : Type} [DecidableEq τ]

/-- `EventLoop::wakeup`. -/
def wakeup (e : EventLoop τ φ) : EventLoop τ φ :=
  { e with wakeupFd := if e.wakeupFd < eventfdMax then e.wakeupFd + 1 else e.wakeupFd }

/-- `EventLoop::handleRead`. A read sets the counter to zero, or fails because it is. -/
def handleRead (e : EventLoop τ φ) : EventLoop τ φ := { e with wakeupFd := 0 }

/-- `EventLoop::queueInLoop`, the push under `mutex_`. -/
def push (e : EventLoop τ φ) (f : φ) : EventLoop τ φ :=
  { e with pendingFunctors := e.pendingFunctors ++ [f] }

/-- The rest of `queueInLoop` in the thread of the loop. -/
def testCalling (e : EventLoop τ φ) : EventLoop τ φ :=
  if e.callingPendingFunctors = true then e.wakeup else e

/-- Which steps may come next at a place. A poll reports the wake-up channel only if its
counter is not zero. A handler and a functor may call `queueInLoop` and `quit` any number
of times; `runInLoop` calls its argument at once there. -/
def enabledAt (e : EventLoop τ φ) : LoopStep τ φ → Place φ → Prop
  | .enterPoll, .loopHead => e.quit = false
  | .leave, .loopHead => e.quit = true
  | .pollReturns activeChannels, .poll => .wakeup ∈ activeChannels → 0 < e.wakeupFd
  | .handleEvent, .handling (_ :: _) => True
  | .handlerReturns, .handler _ => e.inQueueInLoop = false
  | .setCalling, .handling [] => True
  | .swap, .swapping => True
  | .callFunctor, .running (_ :: _) => True
  | .functorReturns, .functor _ => e.inQueueInLoop = false
  | .clearCalling, .running [] => True
  | .push _, .handler _ => e.inQueueInLoop = false
  | .push _, .functor _ => e.inQueueInLoop = false
  | .testCalling, _ => e.inQueueInLoop = true
  | .quit, .handler _ => e.inQueueInLoop = false
  | .quit, .functor _ => e.inQueueInLoop = false
  | .foreignPush t _, _ => e.caller t = .outside
  | .foreignWakeup t, _ => e.caller t ≠ .outside
  | .foreignQuit t, _ => e.caller t = .outside
  | _, _ => False

instance (e : EventLoop τ φ) (a : LoopStep τ φ) (place : Place φ) :
    Decidable (enabledAt e a place) := by
  unfold enabledAt
  split <;> infer_instance

/-- The effect of a step. -/
def exec (e : EventLoop τ φ) (a : LoopStep τ φ) : EventLoop τ φ :=
  match a, e.place with
  | .enterPoll, _ => { e with place := .poll }
  | .leave, _ => { e with place := .left }
  | .pollReturns activeChannels, _ => { e with place := .handling activeChannels }
  | .handleEvent, .handling (.wakeup :: rest) => { e.handleRead with place := .handling rest }
  | .handleEvent, .handling (.other :: rest) => { e with place := .handler rest }
  | .handlerReturns, .handler rest => { e with place := .handling rest }
  | .setCalling, _ => { e with callingPendingFunctors := true, place := .swapping }
  | .swap, _ => { e with pendingFunctors := [], place := .running e.pendingFunctors }
  | .callFunctor, .running (_ :: rest) => { e with place := .functor rest }
  | .functorReturns, .functor rest => { e with place := .running rest }
  | .clearCalling, _ => { e with callingPendingFunctors := false, place := .loopHead }
  | .push f, _ => { e.push f with inQueueInLoop := true }
  | .testCalling, _ => { e.testCalling with inQueueInLoop := false }
  | .quit, _ => { e with quit := true }
  | .foreignPush t f, _ => { e.push f with caller := Function.update e.caller t .pushed }
  | .foreignWakeup t, _ => { e.wakeup with caller := Function.update e.caller t .outside }
  | .foreignQuit t, _ => { e with quit := true, caller := Function.update e.caller t .quitting }
  | _, _ => e

end EventLoop

/-- All runs from the entry to `loop()`, with no functor pending. -/
def eventLoopSystem (τ φ : Type) [DecidableEq τ] :
    System (EventLoop τ φ) (LoopStep τ φ) Failure where
  init e := e.quit = false ∧ e.callingPendingFunctors = false ∧ e.pendingFunctors = [] ∧
    e.place = .loopHead ∧ e.inQueueInLoop = false ∧ ∀ t, e.caller t = .outside
  enabled e a := e.enabledAt a e.place
  exec e a := .ok (e.exec a)

instance {τ φ : Type} [DecidableEq τ] (e : EventLoop τ φ) (a : LoopStep τ φ) :
    Decidable ((eventLoopSystem τ φ).enabled e a) :=
  inferInstanceAs (Decidable (EventLoop.enabledAt ..))

namespace EventLoop

variable {τ φ : Type} [DecidableEq τ] {e : EventLoop τ φ}

/-- The wake-up of a pending functor is on its way: the counter is not zero, or another
thread has still to write to it. -/
def Waking (e : EventLoop τ φ) : Prop := 0 < e.wakeupFd ∨ ∃ t, e.caller t = .pushed

/-- The next poll comes before the next swap. -/
def BeforePoll : Place φ → Prop
  | .loopHead | .poll | .running _ | .functor _ => True
  | .handling _ | .handler _ | .swapping | .left => False

/-- `callingPendingFunctors_` at a place. -/
def callsFunctors : Place φ → Bool
  | .swapping | .running _ | .functor _ => true
  | .loopHead | .poll | .handling _ | .handler _ | .left => false

/-- The thread of the loop may be in `queueInLoop`. -/
def InUserCode : Place φ → Prop
  | .handler _ | .functor _ => True
  | _ => False

/-- No functor is forgotten: between the swap and the next poll, a functor that is pending
is on its way to wake the loop, and the thread of the loop is about to if it pushed it. -/
structure Attentive (e : EventLoop τ φ) : Prop where
  flag : e.callingPendingFunctors = callsFunctors e.place
  queueing : e.inQueueInLoop = true → InUserCode e.place
  waking : BeforePoll e.place → e.pendingFunctors ≠ [] → e.Waking ∨ e.inQueueInLoop = true

omit [DecidableEq τ] in
/-- A write to the eventfd leaves its counter positive. -/
theorem wakeup_pos (e : EventLoop τ φ) : 0 < e.wakeup.wakeupFd := by
  have hmax : 0 < eventfdMax := by decide
  unfold wakeup
  split
  · exact Nat.succ_pos _
  · simp only
    omega

/-- Every step keeps the loop attentive. -/
theorem Attentive.step {a : LoopStep τ φ} (h : e.Attentive) (henabled : e.enabledAt a e.place) :
    (e.exec a).Attentive := by
  obtain ⟨quit, calling, pending, fd, place, queueing, caller⟩ := e
  obtain ⟨hflag, hqueueing, hwaking⟩ := h
  simp only at hflag hqueueing hwaking henabled
  unfold enabledAt at henabled
  split at henabled
  · -- `enterPoll`
    exact ⟨hflag, hqueueing, hwaking⟩
  · -- `leave`
    exact ⟨hflag, hqueueing, fun hbefore => hbefore.elim⟩
  · -- `pollReturns`
    exact ⟨hflag, hqueueing, fun hbefore => hbefore.elim⟩
  · -- `handleEvent`
    rename_i source rest
    cases source with
    | wakeup => exact ⟨hflag, hqueueing, fun hbefore => hbefore.elim⟩
    | other => exact ⟨hflag, fun _ => trivial, fun hbefore => hbefore.elim⟩
  · -- `handlerReturns`
    exact ⟨hflag, fun hin => absurd (henabled.symm.trans hin) Bool.false_ne_true,
      fun hbefore => hbefore.elim⟩
  · -- `setCalling`
    exact ⟨rfl, hqueueing, fun hbefore => hbefore.elim⟩
  · -- `swap`
    exact ⟨hflag, hqueueing, fun _ hne => absurd rfl hne⟩
  · -- `callFunctor`
    exact ⟨hflag, fun _ => trivial, hwaking⟩
  · -- `functorReturns`
    exact ⟨hflag, fun hin => absurd (henabled.symm.trans hin) Bool.false_ne_true, hwaking⟩
  · -- `clearCalling`
    exact ⟨rfl, hqueueing, hwaking⟩
  · -- `push` of a handler
    exact ⟨hflag, fun _ => trivial, fun hbefore => hbefore.elim⟩
  · -- `push` of a functor
    exact ⟨hflag, fun _ => trivial, fun _ _ => Or.inr rfl⟩
  · -- `testCalling`: in a functor the flag is set, so the thread writes to the eventfd
    cases place with
    | functor functors =>
      change calling = true at hflag
      subst hflag
      exact ⟨rfl, fun hin => (by cases hin), fun _ _ => Or.inl (Or.inl (wakeup_pos _))⟩
    | handler rest =>
      change calling = false at hflag
      subst hflag
      exact ⟨rfl, fun hin => (by cases hin), fun hbefore => hbefore.elim⟩
    | _ => exact (hqueueing henabled).elim
  · -- `quit` of a handler
    exact ⟨hflag, hqueueing, hwaking⟩
  · -- `quit` of a functor
    exact ⟨hflag, hqueueing, hwaking⟩
  · -- `foreignPush`
    rename_i t f
    exact ⟨hflag, hqueueing, fun _ _ => Or.inl (Or.inr ⟨t, Function.update_self ..⟩)⟩
  · -- `foreignWakeup`
    exact ⟨hflag, hqueueing, fun _ _ => Or.inl (Or.inl (wakeup_pos _))⟩
  · -- `foreignQuit`: the threads that have pushed are others
    rename_i t
    refine ⟨hflag, hqueueing, fun hbefore hne => (hwaking hbefore hne).imp_left ?_⟩
    rintro (hpos | ⟨t', hpushed⟩)
    · exact Or.inl hpos
    · have hother : t' ≠ t := by
        rintro rfl
        rw [henabled] at hpushed
        cases hpushed
      exact Or.inr ⟨t', (Function.update_of_ne hother ..).trans hpushed⟩
  · exact henabled.elim

/-- It holds before the first step. -/
theorem Attentive.of_init (h : (eventLoopSystem τ φ).init e) : e.Attentive := by
  obtain ⟨_, hflag, hpending, hplace, hqueueing, _⟩ := h
  refine ⟨?_, fun hin => ?_, fun _ hne => absurd hpending hne⟩
  · rw [hflag, hplace]
    rfl
  · rw [hqueueing] at hin
    cases hin

/-- **No lost wake-up.** Whenever the thread of the loop is in the poll or about to enter
it, and a functor is pending, the counter of the eventfd is positive, or another thread has
pushed a functor and not written to the eventfd yet. -/
theorem no_lost_wakeup (h : (eventLoopSystem τ φ).Reachable e)
    (hplace : e.place = .loopHead ∨ e.place = .poll) (hpending : e.pendingFunctors ≠ []) :
    0 < e.wakeupFd ∨ ∃ t, e.caller t = .pushed := by
  have hattentive : e.Attentive := by
    refine h.invariant Attentive.of_init fun hI henabled hexec => ?_
    cases hexec
    exact hI.step henabled
  have hbefore : BeforePoll e.place := by rcases hplace with heq | heq <;> simp [heq, BeforePoll]
  rcases hattentive.waking hbefore hpending with hwaking | hin
  · exact hwaking
  · have huser := hattentive.queueing hin
    rcases hplace with heq | heq <;> simp [heq, InUserCode] at huser

/-- A loop at its entry, used by one other thread. -/
def quietLoop : EventLoop Unit ℕ := ⟨false, false, [], 0, .loopHead, false, fun _ => .outside⟩

/-- The other thread pushes while the loop handles its earlier wake-up, and a functor pushes
another one. -/
def pushes : List (LoopStep Unit ℕ) :=
  [.enterPoll, .foreignPush () 1, .foreignWakeup (), .pollReturns [.wakeup], .foreignPush () 2,
    .foreignWakeup (), .handleEvent, .setCalling, .swap, .callFunctor, .push 3, .testCalling,
    .functorReturns, .callFunctor, .functorReturns, .clearCalling]

/-- A functor waits, and a wake-up is on its way. -/
theorem no_lost_wakeup_pushes :
    ∃ e, (eventLoopSystem Unit ℕ).Reachable e ∧ e.pendingFunctors = [3] ∧
      (0 < e.wakeupFd ∨ ∃ t, e.caller t = .pushed) := by
  have hcheck : ((eventLoopSystem Unit ℕ).replay quietLoop pushes).any (fun e =>
      decide (e.pendingFunctors = [3]) && match e.place with | .loopHead => true | _ => false) =
      true := by decide +kernel
  obtain ⟨e, hrun, he⟩ := System.exists_run_of_replay hcheck
  obtain ⟨hpending, hplace⟩ := Bool.and_eq_true_iff.mp he
  replace hpending := of_decide_eq_true hpending
  have hreach : (eventLoopSystem Unit ℕ).Reachable e :=
    ⟨_, _, ⟨rfl, rfl, rfl, rfl, rfl, fun _ => rfl⟩, hrun⟩
  refine ⟨e, hreach, hpending, no_lost_wakeup hreach (Or.inl ?_) (hpending ▸ List.cons_ne_nil _ _)⟩
  split at hplace
  · assumption
  · cases hplace

end EventLoop

end Dalin.Net
