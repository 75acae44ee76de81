import Mathlib.Algebra.Group.Nat.Defs
import Mathlib.Logic.Function.Basic
import Mathlib.Data.Fintype.Defs
import Dalin.Base.Failure
import Dalin.Library.Transition
import Dalin.Net.TcpConnection

/-!
# The server and its loops

A `TcpServer` accepts connections in its base loop and gives each to one of `n`
I/O loops, or keeps it in the base loop if there are none. Establishing, removing
and destroying a connection are functors that travel between the queues of the
loops. This file embeds these functions, with the part of each `EventLoop` that
moves functors, and the runs of all loops in any interleaving. Connections stay
alive while functors refer to them, and `send` and `shutdown` are atomic.
-/

set_option autoImplicit false

namespace Dalin.Net

open Transition

/-- The loops of a server with `n` I/O threads. -/
inductive LoopId (n : ℕ)
  | base
  | io (i : Fin n)
  deriving DecidableEq

/-- A functor that a server or connection puts in the queue of a loop. -/
inductive ServerFunctor
  | connectEstablished (c : ℕ)
  | removeConnectionInLoop (c : ℕ)
  | connectDestroyed (c : ℕ)
  deriving DecidableEq

/-- What happens to a connection, with the loop it happens in. -/
inductive ConnectionEvent (n : ℕ)
  | connectEstablished (loop : LoopId n)
  /-- `connectionCallback_`, with the value of `connected()` in it. -/
  | connectionCallback (connected : Bool)
  | handleEvent (loop : LoopId n)
  | messageCallback
  | connectDestroyed (loop : LoopId n)
  deriving DecidableEq

/-- A `TcpConnection` of a server. -/
structure ServerConnection (n : ℕ) where
  /-- `loop_`. -/
  loop : LoopId n
  /-- `name_`. -/
  name : String
  /-- `state_`. -/
  state : StateE
  /-- The channel is registered in the Poller of `loop_`. -/
  registered : Bool
  /-- `closeCallback_` was called. -/
  closed : Bool
  /-- `removeConnectionInLoop` was called. -/
  removed : Bool
  /-- What has happened so far, oldest first. -/
  log : List (ConnectionEvent n)

/-- `TcpConnection::connected`. -/
def ServerConnection.connected {n : ℕ} (conn : ServerConnection n) : Bool :=
  conn.state = .kConnected

/-- Append to the log of a connection. -/
def ServerConnection.record {n : ℕ} (conn : ServerConnection n)
    (events : List (ConnectionEvent n)) : ServerConnection n :=
  { conn with log := conn.log ++ events }

/-- The phases of an iteration of a loop. -/
inductive ServerPhase
  | polling
  | handlers
  /-- The functors of the batch still to run. -/
  | functors (batch : List ServerFunctor)
  deriving DecidableEq

/-- An `EventLoop`, as far as functors move through it. -/
structure ServerLoop where
  phase : ServerPhase
  /-- `pendingFunctors_`. -/
  pendingFunctors : List ServerFunctor

/-- A `TcpServer` with its connections, in the order in which they were accepted, and its loops. -/
structure TcpServer (n : ℕ) where
  /-- `name_`. -/
  name : String
  /-- `nextConnId_`, a signed integer of 32 bits. -/
  nextConnId : ℤ
  /-- `EventLoopThreadPool::next_`. -/
  next : ℕ
  /-- `connections_`. -/
  connections : String → Option ℕ
  /-- The number of connections accepted. -/
  accepted : ℕ
  conn : ℕ → ServerConnection n
  loops : LoopId n → ServerLoop

/-- A step of a loop, or of a user in any thread. -/
inductive ServerStep (n : ℕ)
  | pollReturns (loop : LoopId n)
  /-- The acceptor has a new connection. -/
  | accept
  /-- The channel of a connection is handled. -/
  | handleEvent (c : ℕ)
  /-- A handler reads a message. -/
  | message (c : ℕ)
  /-- A handler calls `handleClose`. -/
  | handleClose (c : ℕ)
  /-- The handlers are done, and `doPendingFunctors` swaps the queue out. -/
  | swap (loop : LoopId n)
  | runFunctor (loop : LoopId n)
  | iterationDone (loop : LoopId n)
  | shutdown (c : ℕ)

namespace TcpServer

variable {n : ℕ}

/-- `++nextConnId_` on a signed integer of 32 bits. -/
def increment (id : ℤ) : ℤ := (id + 1).bmod (2 ^ 32)

/-- The name that `newConnection` makes of `name_` and `nextConnId_`. -/
def connName (name : String) (id : ℤ) : String := name ++ ("#" ++ toString id)

/-- `EventLoop::assertInLoopThread` of the loop `own` in the thread of `running`. -/
def assertInLoopThread (running own : LoopId n) : Except Failure Unit :=
  if running = own then .ok () else .error (.abort "EventLoop::abortNotInThread")

/-- Change the fields of one connection. -/
def modifyConn (s : TcpServer n) (c : ℕ) (f : ServerConnection n → ServerConnection n) :
    TcpServer n :=
  { s with conn := Function.update s.conn c (f (s.conn c)) }

/-- Change one loop. -/
def setLoop (s : TcpServer n) (loop : LoopId n) (l : ServerLoop) : TcpServer n :=
  { s with loops := Function.update s.loops loop l }

/-- Change the phase of a loop. -/
def setPhase (s : TcpServer n) (loop : LoopId n) (phase : ServerPhase) : TcpServer n :=
  s.setLoop loop { s.loops loop with phase := phase }

/-- `EventLoop::queueInLoop`. -/
def queueInLoop (s : TcpServer n) (loop : LoopId n) (f : ServerFunctor) : TcpServer n :=
  s.setLoop loop { s.loops loop with pendingFunctors := (s.loops loop).pendingFunctors ++ [f] }

/-- `TcpConnection::connectEstablished`, in the thread of a loop. -/
def connectEstablished (s : TcpServer n) (loop : LoopId n) (c : ℕ) :
    Except Failure (TcpServer n) := do
  assertInLoopThread loop (s.conn c).loop
  require ((s.conn c).state = .kConnecting) "state_ == kConnecting"
  return s.modifyConn c fun conn =>
    let conn := { conn with state := .kConnected, registered := true }
    conn.record [.connectEstablished loop, .connectionCallback conn.connected]

/-- `TcpConnection::connectDestroyed`, in the thread of a loop. -/
def connectDestroyed (s : TcpServer n) (loop : LoopId n) (c : ℕ) :
    Except Failure (TcpServer n) := do
  assertInLoopThread loop (s.conn c).loop
  require ((s.conn c).state = .kConnected ∨ (s.conn c).state = .kDisconnecting)
    "state_ == kConnected || state_ == kDisconnecting"
  return s.modifyConn c fun conn =>
    let conn := { conn with state := .kDisconnected, registered := false }
    conn.record [.connectDestroyed loop, .connectionCallback conn.connected]

/-- `TcpServer::removeConnectionInLoop`, in the thread of a loop. -/
def removeConnectionInLoop (s : TcpServer n) (loop : LoopId n) (c : ℕ) :
    Except Failure (TcpServer n) := do
  assertInLoopThread loop .base
  let erased := if (s.connections (s.conn c).name).isSome then 1 else 0
  require (erased = 1) "n == 1"
  let s := { s with connections := Function.update s.connections (s.conn c).name none }
  let s := s.modifyConn c fun conn => { conn with removed := true }
  return s.queueInLoop (s.conn c).loop (.connectDestroyed c)

/-- A call of a functor in the thread of a loop. -/
def call (s : TcpServer n) (loop : LoopId n) : ServerFunctor → Except Failure (TcpServer n)
  | .connectEstablished c => s.connectEstablished loop c
  | .removeConnectionInLoop c => s.removeConnectionInLoop loop c
  | .connectDestroyed c => s.connectDestroyed loop c

/-- `EventLoop::runInLoop` of the loop `own` in the thread of `running`. -/
def runInLoop (s : TcpServer n) (running own : LoopId n) (f : ServerFunctor) :
    Except Failure (TcpServer n) :=
  if running = own then s.call running f else .ok (s.queueInLoop own f)

/-- `EventLoopThreadPool::getNextLoop`, with the new value of `next_`. -/
def getNextLoop (s : TcpServer n) : Except Failure (LoopId n × ℕ) :=
  if n = 0 then .ok (.base, s.next)
  else if h : s.next < n then
    .ok (.io ⟨s.next, h⟩, if n ≤ s.next + 1 then 0 else s.next + 1)
  else .error (.danglingPointer "loops_[next_]")

/-- `TcpServer::newConnection`. -/
def newConnection (s : TcpServer n) : Except Failure (TcpServer n) := do
  let (ioLoop, next) ← s.getNextLoop
  let connName := connName s.name s.nextConnId
  let c := s.accepted
  let s := { s with
    nextConnId := increment s.nextConnId
    next
    accepted := c + 1
    connections := Function.update s.connections connName (some c)
    conn := Function.update s.conn c ⟨ioLoop, connName, .kConnecting, false, false, false, []⟩ }
  s.runInLoop .base ioLoop (.connectEstablished c)

/-- `TcpConnection::handleClose`, with `TcpServer::removeConnection` as `closeCallback_`. -/
def handleClose (s : TcpServer n) (c : ℕ) : Except Failure (TcpServer n) := do
  require ((s.conn c).state = .kConnected ∨ (s.conn c).state = .kDisconnecting)
    "state_ == kConnected || state_ == kDisconnecting"
  let s := s.modifyConn c fun conn => { conn with closed := true }
  s.runInLoop (s.conn c).loop .base (.removeConnectionInLoop c)

/-- The effect of a step. -/
def exec (s : TcpServer n) : ServerStep n → Except Failure (TcpServer n)
  | .pollReturns loop => .ok (s.setPhase loop .handlers)
  | .accept => s.newConnection
  | .handleEvent c => .ok (s.modifyConn c fun conn => conn.record [.handleEvent conn.loop])
  | .message c => .ok (s.modifyConn c fun conn => conn.record [.messageCallback])
  | .handleClose c => s.handleClose c
  | .swap loop => .ok (s.setLoop loop ⟨.functors (s.loops loop).pendingFunctors, []⟩)
  | .runFunctor loop =>
    match (s.loops loop).phase with
    | .functors (f :: rest) => (s.setPhase loop (.functors rest)).call loop f
    | _ => .ok s
  | .iterationDone loop => .ok (s.setPhase loop .polling)
  | .shutdown c => .ok (s.modifyConn c fun conn =>
      if conn.state = .kConnected then { conn with state := .kDisconnecting } else conn)

/-- A loop is in the middle of a batch. -/
def InBatch : ServerPhase → Prop
  | .functors (_ :: _) => True
  | _ => False

instance (phase : ServerPhase) : Decidable (InBatch phase) := by
  unfold InBatch
  split <;> infer_instance

/-- Handlers of a connection run in its loop, while its channel is registered. -/
def Handling (s : TcpServer n) (c : ℕ) : Prop :=
  c < s.accepted ∧ (s.loops (s.conn c).loop).phase = .handlers ∧ (s.conn c).registered = true

instance (s : TcpServer n) (c : ℕ) : Decidable (s.Handling c) := by
  unfold Handling
  infer_instance

/-- Which steps may come next: a connection calls its `closeCallback_` at most once. -/
def enabled (s : TcpServer n) : ServerStep n → Prop
  | .pollReturns loop => (s.loops loop).phase = .polling
  | .accept => (s.loops .base).phase = .handlers
  | .handleEvent c => s.Handling c
  | .message c => s.Handling c
  | .handleClose c => s.Handling c ∧ (s.conn c).closed = false
  | .swap loop => (s.loops loop).phase = .handlers
  | .runFunctor loop => InBatch (s.loops loop).phase
  | .iterationDone loop => (s.loops loop).phase = .functors []
  | .shutdown c => c < s.accepted

instance (s : TcpServer n) (a : ServerStep n) : Decidable (s.enabled a) := by
  cases a <;> unfold enabled <;> infer_instance

end TcpServer

/-- All runs of a server and its loops, from the start of the server on. -/
def serverSystem (n : ℕ) : System (TcpServer n) (ServerStep n) Failure where
  init s := s.nextConnId = 1 ∧ s.next = 0 ∧ s.connections = (fun _ => none) ∧ s.accepted = 0 ∧
    s.loops = fun _ => ⟨.polling, []⟩
  enabled := TcpServer.enabled
  exec := TcpServer.exec

instance {n : ℕ} (s : TcpServer n) (a : ServerStep n) :
    Decidable ((serverSystem n).enabled s a) :=
  inferInstanceAs (Decidable (s.enabled a))

end Dalin.Net
