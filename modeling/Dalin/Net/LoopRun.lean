import Dalin.Library.Transition
import Dalin.Net.OutputStream
import Dalin.Net.PollerEvents

/-!
# Runs of an event loop

The thread of an `EventLoop` polls, handles the active channels and runs the
pending functors, over and over. User code runs where a callback ends, and
other threads call `send` and `shutdown`, accept connections, and erase them
from the table of a server at any time. This file puts the functions of the
connections together into the transition system of one loop.

Every channel has its own descriptor, and connection objects are never freed:
descriptors are not reused within a run.
-/

set_option autoImplicit false

namespace Dalin.Net

open Transition

/-- The callbacks of a channel. -/
inductive Callback
  | close
  | error
  | read
  | write
  deriving DecidableEq

/-- The peer hung up and `POLLIN` is not reported: `Channel::handleEvent` closes. -/
def HungUp (revents : BitVec 32) : Prop := revents &&& POLLHUP ≠ 0 ∧ revents &&& POLLIN = 0

instance (revents : BitVec 32) : Decidable (HungUp revents) := inferInstanceAs (Decidable (_ ∧ _))

/-- The callbacks that `Channel::handleEvent` calls for these `revents_`, in this order. -/
def eventCallbacks (revents : BitVec 32) : List Callback :=
  (if HungUp revents then [Callback.close] else []) ++
  (if revents &&& (POLLERR ||| POLLNVAL) ≠ 0 then [Callback.error] else []) ++
  (if revents &&& (POLLIN ||| POLLPRI ||| POLLRDHUP) ≠ 0 then [Callback.read] else []) ++
  (if revents &&& POLLOUT ≠ 0 then [Callback.write] else [])

/-- Where the thread of a loop is. -/
inductive Phase (ι : Type)
  /-- In or before `Poller::poll`. -/
  | polling
  /-- Between two calls of `handleEvent`. -/
  | dispatching (activeChannels : List (ChannelId ι))
  /-- In `handleEvent` of a connection, with these callbacks left to call. -/
  | handling (c : ι) (callbacks : List Callback) (activeChannels : List (ChannelId ι))
  /-- In the loop of `doPendingFunctors`. -/
  | running (functors : List (Functor ι))
  /-- In `connectDestroyed`, at the call of `connectionCallback_`. -/
  | destroying (c : ι) (functors : List (Functor ι))

/-- A loop, where its thread is, and whether that thread is in user code. -/
structure LoopRun (ι : Type) where
  loop : IoLoop ι
  phase : Phase ι
  userCode : Bool

/-- A step of the thread of the loop, of the user code it runs, or of another thread. -/
inductive LoopAction (ι : Type)
  | poll (revents : List (BitVec 16))
  | pollFailed
  | handleEvent
  | closeCallback
  | errorCallback
  | readCallback (r : ReadResult)
  | writeCallback (r : WriteResult)
  | handled
  | doPendingFunctors
  | runFunctor (r : WriteResult)
  | removeChannel
  | batchDone
  | send (c : ι) (message : List Byte) (r : WriteResult)
  | shutdown (c : ι)
  | newConnection (c : ι)
  | interest (k : ℕ) (i : Interest)
  | removeOther (k : ℕ)
  | queueInLoop
  | foreignSend (c : ι) (message : List Byte)
  | foreignShutdown (c : ι)
  | foreignNewConnection (c : ι)
  | foreignQueueInLoop
  | removeConnectionInLoop

variable {ι : Type} [DecidableEq ι]

namespace IoLoop

/-- `newConnection`, where the holder enters the connection into its table. -/
def holdEntry (l : IoLoop ι) (c : ι) : IoLoop ι :=
  l.modifyConn c fun conn => { conn with entry := .held }

/-- `doPendingFunctors`, the swap under `mutex_`. -/
def swapFunctors (l : IoLoop ι) : IoLoop ι := { l with pendingFunctors := [] }

/-- A Poller function applied to the Poller of the loop. -/
def liftPoller (l : IoLoop ι)
    (f : Poller (ChannelId ι) → Except Failure (Poller (ChannelId ι))) :
    Except Failure (IoLoop ι) := do
  let poller ← f l.poller
  return { l with poller := poller }

end IoLoop

namespace LoopRun

/-- Which steps may come next in a phase. -/
def enabledIn (l : IoLoop ι) (userCode : Bool) : LoopAction ι → Phase ι → Prop
  | .poll revents, .polling => l.poller.MayReport revents
  | .pollFailed, .polling => True
  | .handleEvent, .dispatching (_ :: _) => True
  | .closeCallback, .handling _ (.close :: _) _ => True
  | .errorCallback, .handling _ (.error :: _) _ => True
  | .readCallback _, .handling _ (.read :: _) _ => True
  | .writeCallback _, .handling _ (.write :: _) _ => True
  | .handled, .handling _ [] _ => True
  | .doPendingFunctors, .dispatching [] => True
  | .runFunctor _, .running (_ :: _) => True
  | .removeChannel, .destroying _ _ => True
  | .batchDone, .running [] => True
  | .send c _ _, _ => userCode = true ∧ (l.conn c).entry ≠ .notYet
  | .shutdown c, _ => userCode = true ∧ (l.conn c).entry ≠ .notYet
  | .newConnection c, _ => userCode = true ∧ (l.conn c).entry = .notYet ∧
      IoLoop.viaBase (l.conn c).holder = false
  | .interest _ _, _ => userCode = true
  | .removeOther _, _ => userCode = true
  | .queueInLoop, _ => userCode = true
  | .foreignSend c _, _ => (l.conn c).entry ≠ .notYet
  | .foreignShutdown c, _ => (l.conn c).entry ≠ .notYet
  | .foreignNewConnection c, _ => (l.conn c).entry = .notYet ∧
      IoLoop.viaBase (l.conn c).holder = true
  | .foreignQueueInLoop, _ => True
  | .removeConnectionInLoop, _ => l.baseFunctors ≠ []
  | _, _ => False

instance (l : IoLoop ι) (userCode : Bool) (a : LoopAction ι) (phase : Phase ι) :
    Decidable (enabledIn l userCode a phase) := by
  unfold enabledIn
  split <;> infer_instance

/-- The callback that a step calls. -/
def callbackOf : LoopAction ι → Option Callback
  | .closeCallback => some .close
  | .errorCallback => some .error
  | .readCallback _ => some .read
  | .writeCallback _ => some .write
  | _ => none

omit [DecidableEq ι] in
/-- A callback is called when it is the next one of the handled channel. -/
theorem phase_of_callback {l : IoLoop ι} {u : Bool} {a : LoopAction ι} {φ : Phase ι} {cb : Callback}
    (h : enabledIn l u a φ) (ha : callbackOf a = some cb) :
    ∃ c rest active, φ = .handling c (cb :: rest) active := by
  unfold enabledIn at h
  split at h
  all_goals
    first
      | (cases ha; exact ⟨_, _, _, rfl⟩)
      | cases ha
      | cases h

omit [DecidableEq ι] in
/-- A functor is run when it is the next one of the batch. -/
theorem phase_of_runFunctor {l : IoLoop ι} {u : Bool} {r : WriteResult} {φ : Phase ι}
    (h : enabledIn l u (.runFunctor r) φ) : ∃ f rest, φ = .running (f :: rest) := by
  unfold enabledIn at h
  split at h
  all_goals first | exact ⟨_, _, rfl⟩ | contradiction

/-- Run a functor of the batch. -/
def runFunctor (l : IoLoop ι) (f : Functor ι) (rest : List (Functor ι)) (r : WriteResult) :
    Except Failure (LoopRun ι) :=
  match f with
  | .connectEstablished c => do
    let l ← l.connectEstablished c
    return ⟨l, .running rest, true⟩
  | .sendInLoop c message => do
    let l ← l.sendInLoop c message r
    return ⟨l, .running rest, false⟩
  | .shutdownInLoop c => .ok ⟨l.shutdownInLoop c, .running rest, false⟩
  | .writeComplete _ => .ok ⟨l, .running rest, true⟩
  | .connectDestroyed c => do
    let l ← l.connectDestroyed c
    return ⟨l, .destroying c rest, true⟩
  | .other => .ok ⟨l, .running rest, true⟩

/-- Start to handle the events of a channel. The callbacks of a channel that is not a
connection's are user code. -/
def handleEvent (l : IoLoop ι) (id : ChannelId ι) (rest : List (ChannelId ι)) : LoopRun ι :=
  match id with
  | .conn c => ⟨l, .handling c (eventCallbacks (l.channel c).revents) rest, false⟩
  | .other _ => ⟨l, .dispatching rest, true⟩

/-- A read that calls `messageCallback_`. -/
def deliversData : ReadResult → Bool
  | .data (_ :: _) => true
  | _ => false

/-- The effect of a step. -/
def exec (s : LoopRun ι) (a : LoopAction ι) : Except Failure (LoopRun ι) :=
  match a, s.phase with
  | .poll revents, .polling => do
    let (poller, activeChannels) ← (s.loop.poller.report revents).fillActiveChannels
    return ⟨{ s.loop with poller := poller }, .dispatching activeChannels, false⟩
  | .pollFailed, .polling => .ok ⟨s.loop, .dispatching [], false⟩
  | .handleEvent, .dispatching (id :: rest) => .ok (handleEvent s.loop id rest)
  | .closeCallback, .handling c (.close :: rest) active => do
    let l ← s.loop.handleClose c
    return ⟨l, .handling c rest active, false⟩
  | .errorCallback, .handling c (.error :: rest) active =>
    .ok ⟨s.loop.handleError c, .handling c rest active, false⟩
  | .readCallback r, .handling c (.read :: rest) active => do
    let l ← s.loop.handleRead c r
    return ⟨l, .handling c rest active, deliversData r⟩
  | .writeCallback r, .handling c (.write :: rest) active => do
    let l ← s.loop.handleWrite c r
    return ⟨l, .handling c rest active, false⟩
  | .handled, .handling _ [] active => .ok ⟨s.loop, .dispatching active, false⟩
  | .doPendingFunctors, .dispatching [] =>
    .ok ⟨s.loop.swapFunctors, .running s.loop.pendingFunctors, false⟩
  | .runFunctor r, .running (f :: rest) => runFunctor s.loop f rest r
  | .removeChannel, .destroying c functors => do
    let l ← s.loop.removeChannel c
    return ⟨l, .running functors, false⟩
  | .batchDone, .running [] => .ok ⟨s.loop, .polling, false⟩
  | .send c message r, _ => do
    let l ← s.loop.send true c message r
    return { s with loop := l }
  | .shutdown c, _ => .ok { s with loop := s.loop.shutdown true c }
  | .newConnection c, _ => do
    let l ← (s.loop.holdEntry c).connectEstablished c
    return { s with loop := l }
  | .interest k i, _ => do
    let l ← s.loop.liftPoller fun p => p.setInterest (.other k) i
    return { s with loop := l }
  | .removeOther k, _ => do
    let l ← s.loop.liftPoller fun p => p.removeChannel (.other k)
    return { s with loop := l }
  | .queueInLoop, _ => .ok { s with loop := s.loop.queueInLoop .other }
  | .foreignSend c message, _ => do
    let l ← s.loop.send false c message (.room 0)
    return { s with loop := l }
  | .foreignShutdown c, _ => .ok { s with loop := s.loop.shutdown false c }
  | .foreignNewConnection c, _ =>
    .ok { s with loop := (s.loop.holdEntry c).queueInLoop (.connectEstablished c) }
  | .foreignQueueInLoop, _ => .ok { s with loop := s.loop.queueInLoop .other }
  | .removeConnectionInLoop, _ =>
    match s.loop.baseFunctors with
    | [] => .ok s
    | c :: rest => do
      let l ← { s.loop with baseFunctors := rest }.removeConnectionInLoop c
      return { s with loop := l }
  | _, _ => .ok s

end LoopRun

/-- All runs of a loop, from before the call of `loop()`. -/
def loopSystem (ι : Type) [DecidableEq ι] : System (LoopRun ι) (LoopAction ι) Failure where
  init s := s.loop.Fresh ∧ s.phase = .polling ∧ s.userCode = true
  enabled s a := LoopRun.enabledIn s.loop s.userCode a s.phase
  exec := LoopRun.exec

instance (s : LoopRun ι) (a : LoopAction ι) : Decidable ((loopSystem ι).enabled s a) :=
  inferInstanceAs (Decidable (LoopRun.enabledIn ..))

end Dalin.Net
