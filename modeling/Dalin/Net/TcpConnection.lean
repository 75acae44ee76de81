import Dalin.Net.Buffer
import Dalin.Net.PollerTables

/-!
# Connections of one I/O loop

`IoLoop` is the part of an `EventLoop` that its connections act on: the Poller,
the queue of pending functors, and the connections themselves. This file embeds
the member functions of `TcpConnection`, with the results of the system calls
as arguments. User callbacks are not called from here: they run at the end of
the function that calls them, and a caller of these functions supplies what
they do next.
-/

set_option autoImplicit false

namespace Dalin.Net

/-- `TcpConnection::stateE`. -/
inductive StateE
  | kConnecting
  | kConnected
  | kDisconnecting
  | kDisconnected
  deriving DecidableEq

/-- What `::write` meets: an error, or room for some number of bytes. -/
inductive WriteResult
  | failed (errno : ℕ)
  | room (n : ℕ)

/-- The value returned by a `::write` of `k` bytes: `-1` or a number up to `k`. -/
def WriteResult.returned : WriteResult → ℕ → ℤ
  | failed _, _ => -1
  | room n, k => (min n k : ℕ)

/-- A call on the socket of a connection. -/
inductive SocketCall
  /-- A `::write` of these bytes that returned this value. -/
  | write (data : List Byte) (returned : ℤ)
  /-- `Socket::shutdownWrite`. -/
  | shutdownWrite
  deriving DecidableEq

/-- The bytes the kernel accepted in a call. -/
def SocketCall.accepted : SocketCall → List Byte
  | write data returned => data.take returned.toNat
  | shutdownWrite => []

/-- Who keeps a connection in its table, set by the closing side of it. -/
inductive Holder
  /-- `TcpServer::connections_`; the flag says whether the base loop of the server
  is the loop of the connection. -/
  | server (sameLoop : Bool)
  /-- `TcpClient::connection_`. -/
  | client
  deriving DecidableEq

/-- The entry of a connection in the table of its holder. -/
inductive Entry
  | notYet
  | held
  | erased
  deriving DecidableEq

/-- `TcpConnection`. Its channel is found in the Poller under the same name. -/
structure TcpConnection where
  /-- `state_`. -/
  state : StateE
  /-- `inputBuffer_`. -/
  inputBuffer : Buffer
  /-- `outputBuffer_`. -/
  outputBuffer : Buffer
  /-- Whether `writeCompleteCallback_` is set. -/
  writeCompleteCallback : Bool
  /-- The target of `closeCallback_`. -/
  holder : Holder
  /-- The entry of the connection with its holder. -/
  entry : Entry
  /-- The calls made on `socket_`, oldest first. -/
  socketCalls : List SocketCall
  /-- The messages whose `send` found the connection connected, oldest first. -/
  handed : List (List Byte)
  /-- How many times `closeCallback_` was called. -/
  closes : ℕ

namespace TcpConnection

/-- The bytes the kernel has accepted from the connection. -/
def accepted (conn : TcpConnection) : List Byte := conn.socketCalls.flatMap SocketCall.accepted

/-- `TcpConnection::TcpConnection`. -/
def new (writeCompleteCallback : Bool) (holder : Holder) : TcpConnection :=
  ⟨.kConnecting, .new, .new, writeCompleteCallback, holder, .notYet, [], [], 0⟩

end TcpConnection

/-- The owner of a channel in the loop: a connection, or something else (the
wake-up channel, a timer queue, an acceptor, a connector). -/
inductive ChannelId (ι : Type)
  | conn (c : ι)
  | other (k : ℕ)
  deriving DecidableEq

/-- A functor in the queue of the loop. -/
inductive Functor (ι : Type)
  | connectEstablished (c : ι)
  | sendInLoop (c : ι) (message : List Byte)
  | shutdownInLoop (c : ι)
  | writeComplete (c : ι)
  | connectDestroyed (c : ι)
  /-- A functor of the user or of another component. -/
  | other
  deriving DecidableEq

/-- An `EventLoop` as far as its connections see it. -/
structure IoLoop (ι : Type) where
  /-- `poller_`. -/
  poller : Poller (ChannelId ι)
  /-- The connections whose `loop_` is this loop. -/
  conn : ι → TcpConnection
  /-- `pendingFunctors_`. -/
  pendingFunctors : List (Functor ι)
  /-- Calls of `removeConnectionInLoop` that wait in the base loop of a server. -/
  baseFunctors : List ι

namespace IoLoop

variable {ι : Type} [DecidableEq ι]

/-- The channel of a connection. -/
def channel (l : IoLoop ι) (c : ι) : Channel := l.poller.channel (.conn c)

/-- `channel_->isWriting()`. -/
def isWriting (l : IoLoop ι) (c : ι) : Bool := (l.channel c).isWriting

/-- Change the fields of one connection. -/
def modifyConn (l : IoLoop ι) (c : ι) (f : TcpConnection → TcpConnection) : IoLoop ι :=
  { l with conn := Function.update l.conn c (f (l.conn c)) }

/-- `TcpConnection::setState`. -/
def setState (l : IoLoop ι) (c : ι) (s : StateE) : IoLoop ι :=
  l.modifyConn c fun conn => { conn with state := s }

/-- Replace `outputBuffer_`. -/
def setOutput (l : IoLoop ι) (c : ι) (b : Buffer) : IoLoop ι :=
  l.modifyConn c fun conn => { conn with outputBuffer := b }

/-- A system call on the socket of a connection. -/
def callSocket (l : IoLoop ι) (c : ι) (call : SocketCall) : IoLoop ι :=
  l.modifyConn c fun conn => { conn with socketCalls := conn.socketCalls ++ [call] }

/-- `EventLoop::queueInLoop`, the push under `mutex_`. -/
def queueInLoop (l : IoLoop ι) (f : Functor ι) : IoLoop ι :=
  { l with pendingFunctors := l.pendingFunctors ++ [f] }

/-- An interest call on the channel of a connection. -/
def setInterest (l : IoLoop ι) (c : ι) (i : Interest) : Except Failure (IoLoop ι) := do
  let poller ← l.poller.setInterest (.conn c) i
  return { l with poller := poller }

/-- `if (writeCompleteCallback_) loop_->queueInLoop(...)`. -/
def queueWriteComplete (l : IoLoop ι) (c : ι) : IoLoop ι :=
  if (l.conn c).writeCompleteCallback then l.queueInLoop (.writeComplete c) else l

/-- The first half of `TcpConnection::sendInLoop`: write directly if nothing is in
the output queue. Returns the number of bytes written. -/
def directWrite (l : IoLoop ι) (c : ι) (message : List Byte) (r : WriteResult) : IoLoop ι × ℤ :=
  if l.isWriting c = false ∧ (l.conn c).outputBuffer.readableBytes = 0 then
    let nwrote := r.returned message.length
    let l := l.callSocket c (.write message nwrote)
    if 0 ≤ nwrote then
      if nwrote < message.length then (l, nwrote) else (l.queueWriteComplete c, nwrote)
    else (l, 0)
  else (l, 0)

/-- The second half of `TcpConnection::sendInLoop`: keep what was not written, and
ask for write events. -/
def bufferRest (l : IoLoop ι) (c : ι) (message : List Byte) (nwrote : ℤ) :
    Except Failure (IoLoop ι) := do
  require (0 ≤ nwrote) "nwrote >= 0"
  if nwrote < message.length then
    let out ← (l.conn c).outputBuffer.append (message.drop nwrote.toNat)
    let l := l.setOutput c out
    if l.isWriting c = false then l.setInterest c .enableWriting else return l
  else return l

/-- `TcpConnection::sendInLoop`. -/
def sendInLoop (l : IoLoop ι) (c : ι) (message : List Byte) (r : WriteResult) :
    Except Failure (IoLoop ι) :=
  let (l, nwrote) := l.directWrite c message r
  l.bufferRest c message nwrote

/-- `TcpConnection::send`. The history of the connection records the message. -/
def send (l : IoLoop ι) (inLoop : Bool) (c : ι) (message : List Byte) (r : WriteResult) :
    Except Failure (IoLoop ι) :=
  if (l.conn c).state = .kConnected then
    let l := l.modifyConn c fun conn => { conn with handed := conn.handed ++ [message] }
    if inLoop then l.sendInLoop c message r else .ok (l.queueInLoop (.sendInLoop c message))
  else .ok l

/-- `TcpConnection::shutdownInLoop`. -/
def shutdownInLoop (l : IoLoop ι) (c : ι) : IoLoop ι :=
  if l.isWriting c = false then l.callSocket c .shutdownWrite else l

/-- `TcpConnection::shutdown`. -/
def shutdown (l : IoLoop ι) (inLoop : Bool) (c : ι) : IoLoop ι :=
  if (l.conn c).state = .kConnected then
    let l := l.setState c .kDisconnecting
    if inLoop then l.shutdownInLoop c else l.queueInLoop (.shutdownInLoop c)
  else l

/-- `TcpConnection::connectEstablished`, up to the call of `connectionCallback_`. -/
def connectEstablished (l : IoLoop ι) (c : ι) : Except Failure (IoLoop ι) := do
  require ((l.conn c).state = .kConnecting) "state_ == kConnecting"
  (l.setState c .kConnected).setInterest c .enableReading

/-- `TcpConnection::connectDestroyed`, up to the call of `connectionCallback_`. -/
def connectDestroyed (l : IoLoop ι) (c : ι) : Except Failure (IoLoop ι) := do
  require ((l.conn c).state = .kConnected ∨ (l.conn c).state = .kDisconnecting)
    "state_ == kConnected || state_ == kDisconnecting"
  (l.setState c .kDisconnected).setInterest c .disableAll

/-- The rest of `TcpConnection::connectDestroyed`, after `connectionCallback_`. -/
def removeChannel (l : IoLoop ι) (c : ι) : Except Failure (IoLoop ι) := do
  let poller ← l.poller.removeChannel (.conn c)
  return { l with poller := poller }

/-- The holder takes the connection out of its table, which it asserts to find
there, and queues `connectDestroyed`. -/
def dropEntry (l : IoLoop ι) (c : ι) (assertion : String) : Except Failure (IoLoop ι) := do
  require ((l.conn c).entry = .held) assertion
  return (l.modifyConn c fun conn => { conn with entry := .erased }).queueInLoop
    (.connectDestroyed c)

/-- `TcpServer::removeConnectionInLoop`. -/
def removeConnectionInLoop (l : IoLoop ι) (c : ι) : Except Failure (IoLoop ι) :=
  l.dropEntry c "n == 1"

/-- `TcpServer::removeConnection`. -/
def serverRemoveConnection (l : IoLoop ι) (c : ι) (sameLoop : Bool) : Except Failure (IoLoop ι) :=
  if sameLoop then l.removeConnectionInLoop c
  else .ok { l with baseFunctors := l.baseFunctors ++ [c] }

/-- `TcpClient::removeConnection`, without the restart of the connector. -/
def clientRemoveConnection (l : IoLoop ι) (c : ι) : Except Failure (IoLoop ι) :=
  l.dropEntry c "connection_ == conn"

/-- `closeCallback_`. -/
def closeCallback (l : IoLoop ι) (c : ι) : Except Failure (IoLoop ι) :=
  let l := l.modifyConn c fun conn => { conn with closes := conn.closes + 1 }
  match (l.conn c).holder with
  | .server sameLoop => l.serverRemoveConnection c sameLoop
  | .client => l.clientRemoveConnection c

/-- `TcpConnection::handleClose`. -/
def handleClose (l : IoLoop ι) (c : ι) : Except Failure (IoLoop ι) := do
  require ((l.conn c).state = .kConnected ∨ (l.conn c).state = .kDisconnecting)
    "state_ == kConnected || state_ == kDisconnecting"
  let l ← l.setInterest c .disableAll
  l.closeCallback c

/-- `TcpConnection::handleError`, which only reports the error. -/
def handleError (l : IoLoop ι) (_ : ι) : IoLoop ι := l

/-- `TcpConnection::handleRead`, up to the call of `messageCallback_`. -/
def handleRead (l : IoLoop ι) (c : ι) (r : ReadResult) : Except Failure (IoLoop ι) := do
  let (input, n, _) ← (l.conn c).inputBuffer.readFd 0 r
  let l := l.modifyConn c fun conn => { conn with inputBuffer := input }
  if 0 < n then return l
  else if n = 0 then l.handleClose c
  else return l.handleError c

/-- The part of `TcpConnection::handleWrite` after a `::write` that accepted bytes
and emptied the buffer. -/
def drained (l : IoLoop ι) (c : ι) : Except Failure (IoLoop ι) := do
  let l ← l.setInterest c .disableWriting
  let l := l.queueWriteComplete c
  if (l.conn c).state = .kDisconnecting then return l.shutdownInLoop c else return l

/-- `TcpConnection::handleWrite`. -/
def handleWrite (l : IoLoop ι) (c : ι) (r : WriteResult) : Except Failure (IoLoop ι) :=
  if l.isWriting c = true then
    let data := (l.conn c).outputBuffer.readable
    let n := r.returned data.length
    let l := l.callSocket c (.write data n)
    if 0 < n then do
      let out ← (l.conn c).outputBuffer.retrieve n.toNat
      let l := l.setOutput c out
      if out.readableBytes = 0 then l.drained c else return l
    else .error (.abort "Failed in TcpConnection::handleWrite()")
  else .ok l

end IoLoop

end Dalin.Net
