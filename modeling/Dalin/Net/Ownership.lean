import Mathlib.Data.Fintype.Defs
import Dalin.Net.TcpServer

/-!
# Who owns a connection

Connections live while a `shared_ptr` refers to them. Some functors hold one by
value, others only refer to a variable of the frame that made them, or to `this`.
This file embeds a server with `n` I/O loops and a client in its base loop, as far
as they create, copy and drop owners and pass functors from loop to loop, with
the frames of `newConnection` and `handleClose` and the local vector of
`doPendingFunctors`. All other pointers, those of the program, of callbacks and of
functors for write-complete callbacks, are counted, and come and go at any time.
-/

set_option autoImplicit false

namespace Dalin.Net

open Transition

/-- A functor in the queue of a loop. -/
inductive OwnedFunctor
  /-- Refers to the local variable `conn` of `newConnection`. -/
  | connectEstablished (c : ℕ)
  /-- Holds a copy of the `shared_ptr`. -/
  | removeConnectionInLoop (c : ℕ)
  /-- Refers to the parameter `conn` of the function that queued it. -/
  | connectDestroyed (c : ℕ)
  /-- Holds `this`, as does the next one. -/
  | sendInLoop (c : ℕ)
  | shutdownInLoop (c : ℕ)
  deriving DecidableEq

/-- The connection that a functor calls. -/
def OwnedFunctor.connection : OwnedFunctor → ℕ
  | connectEstablished c => c
  | removeConnectionInLoop c => c
  | connectDestroyed c => c
  | sendInLoop c => c
  | shutdownInLoop c => c

/-- The phases of an iteration of a loop. -/
inductive OwnedPhase
  | polling
  /-- The connection whose channel is inside `handleEvent`, if there is one. -/
  | handlers (current : Option ℕ)
  /-- The local vector of `doPendingFunctors`: the functors that have returned, the one that
  runs, and those still to run. -/
  | functors (returned : List OwnedFunctor) (running : Option OwnedFunctor)
      (rest : List OwnedFunctor)
  deriving DecidableEq

/-- The local vector of `doPendingFunctors`. -/
def OwnedPhase.vector : OwnedPhase → List OwnedFunctor
  | functors returned running rest => returned ++ running.toList ++ rest
  | _ => []

/-- The functors of the vector that were called. -/
def OwnedPhase.called : OwnedPhase → List OwnedFunctor
  | functors returned running _ => returned ++ running.toList
  | _ => []

/-- The functors of the vector that have not returned. -/
def OwnedPhase.unfinished : OwnedPhase → List OwnedFunctor
  | functors _ running rest => running.toList ++ rest
  | _ => []

/-- The functor that runs. -/
def OwnedPhase.current : OwnedPhase → Option OwnedFunctor
  | functors _ running _ => running
  | _ => none

/-- An `EventLoop`, as far as functors move through it. -/
structure OwnedLoop where
  phase : OwnedPhase
  /-- `pendingFunctors_`. -/
  pendingFunctors : List OwnedFunctor

/-- A `TcpConnection` with its owners. -/
structure OwnedConnection (n : ℕ) where
  /-- `loop_`. -/
  loop : LoopId n
  /-- The client made the connection, not the server. -/
  client : Bool
  /-- `state_`. -/
  state : StateE
  /-- The channel is registered in the Poller of `loop_`. -/
  registered : Bool
  /-- `connections_` or `connection_` holds the connection. -/
  entry : Bool
  /-- `handleClose` has called `closeCallback_` with a temporary `shared_ptr`. In the base loop the
  functor object of `removeConnection` is a second temporary. -/
  closing : Bool
  /-- The number of all other pointers to the connection. -/
  others : ℕ
  /-- `connectDestroyed` has returned. -/
  destroyed : Bool

/-- A server and a client, with their connections in the order in which they were made. -/
structure Ownership (n : ℕ) where
  /-- `EventLoopThreadPool::next_`. -/
  next : ℕ
  /-- The number of connections made. -/
  made : ℕ
  /-- The local variable `conn` of `newConnection`, while that runs. -/
  making : Option ℕ
  conn : ℕ → OwnedConnection n
  loops : LoopId n → OwnedLoop

/-- A step of a loop, or of the program in any thread. -/
inductive OwnedStep (n : ℕ)
  | pollReturns (loop : LoopId n)
  /-- `TcpServer::newConnection` up to its end. -/
  | accept
  /-- `TcpClient::newConnection` up to its end. -/
  | connected
  | newConnectionReturns
  /-- The channel of a connection is handled. -/
  | handleEvent (c : ℕ)
  /-- The handler calls `handleClose`, up to the return of `closeCallback_`. -/
  | handleClose (c : ℕ)
  | handleCloseReturns (c : ℕ)
  | handleEventReturns (c : ℕ)
  /-- The handlers are done, and `doPendingFunctors` swaps the queue out. -/
  | swap (loop : LoopId n)
  | callFunctor (loop : LoopId n)
  | functorReturns (loop : LoopId n)
  | doPendingFunctorsReturns (loop : LoopId n)
  /-- Some pointer to the connection is copied. -/
  | copy (c : ℕ)
  /-- One of the other pointers goes out of scope. -/
  | drop (c : ℕ)
  /-- `send` in another thread than that of the loop. -/
  | send (c : ℕ)
  /-- `shutdown`, in the thread of the loop or in another one. -/
  | shutdown (c : ℕ) (inLoopThread : Bool)

namespace Ownership

variable {n : ℕ}

/-- A program without connections whose loops run. -/
def started (n : ℕ) : Ownership n where
  next := 0
  made := 0
  making := none
  conn _ := ⟨.base, false, .kConnecting, false, false, false, 0, false⟩
  loops _ := ⟨.polling, []⟩

/-- Change the fields of one connection. -/
def modifyConn (s : Ownership n) (c : ℕ) (f : OwnedConnection n → OwnedConnection n) :
    Ownership n :=
  { s with conn := Function.update s.conn c (f (s.conn c)) }

/-- Change one loop. -/
def setLoop (s : Ownership n) (loop : LoopId n) (l : OwnedLoop) : Ownership n :=
  { s with loops := Function.update s.loops loop l }

/-- Change the phase of a loop. -/
def setPhase (s : Ownership n) (loop : LoopId n) (phase : OwnedPhase) : Ownership n :=
  s.setLoop loop { s.loops loop with phase := phase }

/-- `EventLoop::queueInLoop`. -/
def queueInLoop (s : Ownership n) (loop : LoopId n) (f : OwnedFunctor) : Ownership n :=
  s.setLoop loop { s.loops loop with
    pendingFunctors := (s.loops loop).pendingFunctors ++ [f] }

/-! ### Owners -/

/-- The copies that functors for `removeConnectionInLoop` hold: those in the queue of the base loop
and those in the vector of its `doPendingFunctors`. -/
def copies (s : Ownership n) (c : ℕ) : ℕ :=
  ((s.loops .base).phase.vector ++ (s.loops .base).pendingFunctors).count
    (.removeConnectionInLoop c)

/-- The number of owners of a connection. -/
def owners (s : Ownership n) (c : ℕ) : ℕ :=
  (s.conn c).entry.toNat + (if s.making = some c then 1 else 0) + (s.conn c).closing.toNat +
    s.copies c + (s.conn c).others

/-- The variable through which a functor reaches its connection is in scope. For `connectDestroyed`
that is a temporary of `handleClose`, or of `removeConnection` in the base loop, if it was queued
there, and else the copy in the functor for `removeConnectionInLoop` that queued it. -/
def InScope (s : Ownership n) : OwnedFunctor → Prop
  | .connectEstablished c => s.making = some c
  | .connectDestroyed c =>
    if (s.conn c).loop = .base then (s.conn c).closing = true
    else .removeConnectionInLoop c ∈ (s.loops .base).phase.called
  | .removeConnectionInLoop _ | .sendInLoop _ | .shutdownInLoop _ => True

instance (s : Ownership n) (f : OwnedFunctor) : Decidable (s.InScope f) := by
  cases f <;> unfold InScope <;> infer_instance

/-- An access through a pointer, whose variable and target must exist. -/
def access (p : Prop) [Decidable p] (pointer : String) : Except Failure Unit :=
  if p then .ok () else .error (.danglingPointer pointer)

/-! ### Functions -/

/-- `EventLoopThreadPool::getNextLoop`, with the new value of `next_`. -/
def getNextLoop (s : Ownership n) : Except Failure (LoopId n × ℕ) :=
  if n = 0 then .ok (.base, s.next)
  else if h : s.next < n then
    .ok (.io ⟨s.next, h⟩, if n ≤ s.next + 1 then 0 else s.next + 1)
  else .error (.danglingPointer "loops_[next_]")

/-- `TcpServer::newConnection` before it returns. `connectEstablished` runs at once if there are no
I/O loops. -/
def acceptConnection (s : Ownership n) : Except Failure (Ownership n) := do
  let (ioLoop, next) ← s.getNextLoop
  let c := s.made
  if ioLoop = .base then
    return { s with
      next
      made := c + 1
      making := some c
      conn := Function.update s.conn c ⟨ioLoop, false, .kConnected, true, true, false, 0, false⟩ }
  else
    return { s with
      next
      made := c + 1
      making := some c
      conn := Function.update s.conn c
        ⟨ioLoop, false, .kConnecting, false, true, false, 0, false⟩ }.queueInLoop
          ioLoop (.connectEstablished c)

/-- `TcpClient::newConnection` before it returns. -/
def newConnection (s : Ownership n) : Ownership n :=
  { s with
    made := s.made + 1
    making := some s.made
    conn := Function.update s.conn s.made
      ⟨.base, true, .kConnected, true, true, false, 0, false⟩ }

/-- `TcpConnection::handleClose` before the temporary goes. In the base loop `removeConnection` and
`removeConnectionInLoop`, or `removeConnection` of the client, run at once. -/
def handleClose (s : Ownership n) (c : ℕ) : Except Failure (Ownership n) := do
  require ((s.conn c).state = .kConnected ∨ (s.conn c).state = .kDisconnecting)
    "state_ == kConnected || state_ == kDisconnecting"
  if (s.conn c).loop = .base then
    require ((s.conn c).entry = true)
      (if (s.conn c).client then "connection_ == conn" else "n == 1")
    return (s.modifyConn c fun conn => { conn with entry := false, closing := true }).queueInLoop
      .base (.connectDestroyed c)
  else
    return (s.modifyConn c fun conn => { conn with closing := true }).queueInLoop
      .base (.removeConnectionInLoop c)

/-- The call of a functor in the thread of a loop: for `connectDestroyed` up to the user callback,
and for the others all of it. -/
def call (s : Ownership n) (loop : LoopId n) : OwnedFunctor → Except Failure (Ownership n)
  | .connectEstablished c => do
    TcpServer.assertInLoopThread loop (s.conn c).loop
    require ((s.conn c).state = .kConnecting) "state_ == kConnecting"
    return s.modifyConn c fun conn => { conn with state := .kConnected, registered := true }
  | .removeConnectionInLoop c => do
    TcpServer.assertInLoopThread loop .base
    require ((s.conn c).entry = true) "n == 1"
    return (s.modifyConn c fun conn => { conn with entry := false }).queueInLoop
      (s.conn c).loop (.connectDestroyed c)
  | .connectDestroyed c => do
    TcpServer.assertInLoopThread loop (s.conn c).loop
    require ((s.conn c).state = .kConnected ∨ (s.conn c).state = .kDisconnecting)
      "state_ == kConnected || state_ == kDisconnecting"
    return s.modifyConn c fun conn => { conn with state := .kDisconnected }
  | .sendInLoop c | .shutdownInLoop c => do
    TcpServer.assertInLoopThread loop (s.conn c).loop
    return s

/-- The next functor of the vector is called. -/
def callFunctor (s : Ownership n) (loop : LoopId n) : Except Failure (Ownership n) :=
  match (s.loops loop).phase with
  | .functors returned none (f :: rest) => do
    let s := s.setPhase loop (.functors returned (some f) rest)
    access (s.InScope f ∧ 0 < s.owners f.connection) "conn"
    s.call loop f
  | _ => .ok s

/-- The functor that runs returns: `connectDestroyed` after it has removed the channel. -/
def functorReturns (s : Ownership n) (loop : LoopId n) : Except Failure (Ownership n) :=
  match (s.loops loop).phase with
  | .functors returned (some f) rest => do
    let s := s.setPhase loop (.functors (returned ++ [f]) none rest)
    match f with
    | .connectDestroyed c =>
      access (0 < s.owners c) "this"
      return s.modifyConn c fun conn => { conn with registered := false, destroyed := true }
    | _ => return s
  | _ => .ok s

/-- `TcpConnection::send` in another thread. -/
def send (s : Ownership n) (c : ℕ) : Ownership n :=
  if (s.conn c).state = .kConnected then s.queueInLoop (s.conn c).loop (.sendInLoop c) else s

/-- `TcpConnection::shutdown`. -/
def shutdown (s : Ownership n) (c : ℕ) (inLoopThread : Bool) : Ownership n :=
  if (s.conn c).state = .kConnected then
    let s := s.modifyConn c fun conn => { conn with state := .kDisconnecting }
    if inLoopThread then s else s.queueInLoop (s.conn c).loop (.shutdownInLoop c)
  else s

/-- The effect of a step. -/
def exec (s : Ownership n) : OwnedStep n → Except Failure (Ownership n)
  | .pollReturns loop => .ok (s.setPhase loop (.handlers none))
  | .accept => s.acceptConnection
  | .connected => .ok s.newConnection
  | .newConnectionReturns => .ok { s with making := none }
  | .handleEvent c => .ok (s.setPhase (s.conn c).loop (.handlers (some c)))
  | .handleClose c => s.handleClose c
  | .handleCloseReturns c => .ok (s.modifyConn c fun conn => { conn with closing := false })
  | .handleEventReturns c => .ok (s.setPhase (s.conn c).loop (.handlers none))
  | .swap loop =>
    .ok (s.setLoop loop ⟨.functors [] none (s.loops loop).pendingFunctors, []⟩)
  | .callFunctor loop => s.callFunctor loop
  | .functorReturns loop => s.functorReturns loop
  | .doPendingFunctorsReturns loop => .ok (s.setPhase loop .polling)
  | .copy c => .ok (s.modifyConn c fun conn => { conn with others := conn.others + 1 })
  | .drop c => .ok (s.modifyConn c fun conn => { conn with others := conn.others - 1 })
  | .send c => .ok (s.send c)
  | .shutdown c inLoopThread => .ok (s.shutdown c inLoopThread)

/-- The loop handles no connection, and no call of `newConnection` runs in it. -/
def BetweenEvents (s : Ownership n) (loop : LoopId n) : Prop :=
  (s.loops loop).phase = .handlers none ∧ (loop = .base → s.making = none)

/-- The next functor of a vector may be called. -/
def MayCall : OwnedPhase → Prop
  | .functors _ none (_ :: _) => True
  | _ => False

/-- A functor runs. -/
def Running : OwnedPhase → Prop
  | .functors _ (some _) _ => True
  | _ => False

/-- All functors of a vector have returned. -/
def Finished : OwnedPhase → Prop
  | .functors _ none [] => True
  | _ => False

/-- Which steps may come next: a client makes a connection only if it has none, a channel is handled
while it is registered, and only an owner can be copied or called. -/
def enabled (s : Ownership n) : OwnedStep n → Prop
  | .pollReturns loop => (s.loops loop).phase = .polling
  | .accept => s.BetweenEvents .base
  | .connected => s.BetweenEvents .base ∧
      ∀ c < s.made, (s.conn c).client = true → (s.conn c).entry = false
  | .newConnectionReturns => s.making ≠ none
  | .handleEvent c => c < s.made ∧ s.BetweenEvents (s.conn c).loop ∧ (s.conn c).registered = true
  | .handleClose c => c < s.made ∧ (s.loops (s.conn c).loop).phase = .handlers (some c) ∧
      (s.conn c).closing = false
  | .handleCloseReturns c => c < s.made ∧ (s.conn c).closing = true
  | .handleEventReturns c => c < s.made ∧
      (s.loops (s.conn c).loop).phase = .handlers (some c) ∧ (s.conn c).closing = false
  | .swap loop => s.BetweenEvents loop
  | .callFunctor loop => MayCall (s.loops loop).phase
  | .functorReturns loop => Running (s.loops loop).phase
  | .doPendingFunctorsReturns loop => Finished (s.loops loop).phase
  | .copy c | .send c | .shutdown c _ => c < s.made ∧ 0 < s.owners c
  | .drop c => c < s.made ∧ 0 < (s.conn c).others

instance (s : Ownership n) (loop : LoopId n) : Decidable (s.BetweenEvents loop) :=
  inferInstanceAs (Decidable (_ ∧ _))

instance (phase : OwnedPhase) : Decidable (MayCall phase) := by
  unfold MayCall
  split <;> infer_instance

instance (phase : OwnedPhase) : Decidable (Running phase) := by
  unfold Running
  split <;> infer_instance

instance (phase : OwnedPhase) : Decidable (Finished phase) := by
  unfold Finished
  split <;> infer_instance

instance (s : Ownership n) (a : OwnedStep n) : Decidable (s.enabled a) := by
  cases a <;> unfold enabled <;> infer_instance

end Ownership

/-- All runs of a server with `n` I/O loops and a client. -/
def ownershipSystem (n : ℕ) : System (Ownership n) (OwnedStep n) Failure where
  init s := s = .started n
  enabled := Ownership.enabled
  exec := Ownership.exec

instance {n : ℕ} (s : Ownership n) (a : OwnedStep n) :
    Decidable ((ownershipSystem n).enabled s a) :=
  inferInstanceAs (Decidable (s.enabled a))

end Dalin.Net
