import Mathlib.Logic.Function.Basic
import Dalin.Library.Transition
import Dalin.Net.Connector
import Dalin.Net.TcpConnection

/-!
# The client

A `TcpClient` owns a connector and at most one connection at a time, in
`connection_`. A socket of the connector becomes a connection in `newConnection`;
when the connection is lost, `removeConnection` may restart the connector. This
file embeds the member functions of `TcpClient`, the functions of `TcpConnection`
that open and close a connection, and their runs in the loop thread. Connections
live until their last owner is gone, at some time after `connectDestroyed`.
-/

set_option autoImplicit false

namespace Dalin.Net

open Transition

/-- A `TcpConnection` as far as the client sees it. -/
structure ClientConnection where
  /-- The descriptor of `socket_`. -/
  fd : ℕ
  /-- `state_`. -/
  state : StateE
  /-- `closeCallback_` was called. -/
  closed : Bool
  /-- The object exists, and its socket is open. -/
  alive : Bool
  deriving DecidableEq

/-- A `TcpClient` and its connections, by the number in their names. -/
structure TcpClient where
  /-- `connector_`, with the loop. -/
  connector : Connector
  /-- `retry_`. -/
  retry : Bool
  /-- `connect_`. -/
  connects : Bool
  /-- `nextConnId_`. -/
  nextConnId : ℕ
  /-- `connection_`. -/
  connection : Option ℕ
  /-- The connections that `newConnection` has made. -/
  conn : ℕ → ClientConnection
  /-- The number of calls of `connect`. -/
  connectCalls : ℕ

/-- A call of the user, or a step of the loop. A step that may call `::connect` comes with the
new socket and the result. -/
inductive ClientStep
  | connect (errno : Errno) (sockfd : ℕ)
  | disconnect
  | stop
  | enableRetry
  | poll (expired : List ℕ) (active : List ChannelOwner)
  | runTimer (errno : Errno) (sockfd : ℕ)
  | timersDone
  | handleConnector (revents : BitVec 32) (soError : ℤ) (selfConnect : Bool)
  /-- The handler of the current connection, the given one, calls `handleClose`. -/
  | handleClose (n : ℕ) (errno : Errno) (sockfd : ℕ)
  /-- The handler of the current connection, the given one, returns. -/
  | connectionHandled (n : ℕ)
  | swap
  | resetChannel
  | connectDestroyed (n : ℕ)
  | iterationDone
  /-- The last owner of a connection is gone. -/
  | release (n : ℕ)

namespace TcpClient

/-- `TcpClient::TcpClient`. -/
def new : TcpClient := ⟨.new, false, true, 1, none, fun _ => ⟨0, .kConnecting, false, false⟩, 0⟩

/-- Change the fields of one connection. -/
def modifyConn (t : TcpClient) (n : ℕ) (f : ClientConnection → ClientConnection) : TcpClient :=
  { t with conn := Function.update t.conn n (f (t.conn n)) }

/-- `TcpClient::connect`. -/
def connect (t : TcpClient) (errno : Errno) (sockfd : ℕ) : Except Failure TcpClient := do
  let connector ← t.connector.start errno sockfd
  return { t with connector, connects := true, connectCalls := t.connectCalls + 1 }

/-- `TcpConnection::shutdown`, as far as it changes `state_`. -/
def shutdown (t : TcpClient) (n : ℕ) : TcpClient :=
  t.modifyConn n fun conn =>
    if conn.state = .kConnected then { conn with state := .kDisconnecting } else conn

/-- `TcpClient::disconnect`. -/
def disconnect (t : TcpClient) : TcpClient :=
  match t.connection with
  | some n => { t with connects := false }.shutdown n
  | none => { t with connects := false }

/-- `TcpClient::stop`. -/
def stop (t : TcpClient) : TcpClient :=
  { t with connects := false, connector := t.connector.stop }

/-- `TcpConnection::connectEstablished`. The user callback at its end may call the client. -/
def connectEstablished (t : TcpClient) (n : ℕ) : Except Failure TcpClient := do
  require ((t.conn n).state = .kConnecting) "state_ == kConnecting"
  let connector ← t.connector.register (t.conn n).fd (.connection n)
  return { t.modifyConn n fun conn => { conn with state := .kConnected } with connector }

/-- `TcpClient::newConnection`. -/
def newConnection (t : TcpClient) (sockfd : ℕ) : Except Failure TcpClient :=
  let n := t.nextConnId
  { t.modifyConn n fun _ => ⟨sockfd, .kConnecting, false, true⟩ with
    nextConnId := n + 1
    connection := some n }.connectEstablished n

/-- `TcpClient::removeConnection`. -/
def removeConnection (t : TcpClient) (n : ℕ) (errno : Errno) (sockfd : ℕ) :
    Except Failure TcpClient := do
  require (t.connection = some n) "connection_ == conn"
  let t := { t with
    connection := none
    connector := t.connector.queueInLoop (.connectDestroyed n) }
  if t.retry && t.connects then
    let connector ← t.connector.restart errno sockfd
    return { t with connector }
  else return t

/-- `TcpConnection::handleClose`. -/
def handleClose (t : TcpClient) (n : ℕ) (errno : Errno) (sockfd : ℕ) :
    Except Failure TcpClient := do
  require ((t.conn n).state = .kConnected ∨ (t.conn n).state = .kDisconnecting)
    "state_ == kConnected || state_ == kDisconnecting"
  let connector ← t.connector.disableAll (t.conn n).fd (.connection n)
  { t.modifyConn n fun conn => { conn with closed := true } with connector }.removeConnection
    n errno sockfd

/-- `TcpConnection::connectDestroyed`, where the user callback in it may call the client. -/
def connectDestroyed (t : TcpClient) (n : ℕ) : Except Failure TcpClient := do
  require ((t.conn n).state = .kConnected ∨ (t.conn n).state = .kDisconnecting)
    "state_ == kConnected || state_ == kDisconnecting"
  let connector ← t.connector.disableAll (t.conn n).fd (.connection n)
  let connector ← connector.removeChannel (t.conn n).fd (.connection n)
  return { t.modifyConn n fun conn => { conn with state := .kDisconnected } with connector }

/-- The channel of the connector is handled, where the last call may be `newConnection`. -/
def handleConnector (t : TcpClient) (revents : BitVec 32) (soError : ℤ) (selfConnect : Bool) :
    Except Failure TcpClient := do
  let (connector, handed) ← t.connector.handleEvent revents soError selfConnect
  let t := { t with connector := connector.handlerDone }
  match handed with
  | some sockfd => t.newConnection sockfd
  | none => return t

/-- The effect of a step. -/
def exec (t : TcpClient) : ClientStep → Except Failure TcpClient
  | .connect errno sockfd => t.connect errno sockfd
  | .disconnect => .ok t.disconnect
  | .stop => .ok t.stop
  | .enableRetry => .ok { t with retry := true }
  | .poll expired active => .ok { t with connector := t.connector.poll expired active }
  | .runTimer errno sockfd => do
    let connector ← t.connector.runTimer errno sockfd
    return { t with connector }
  | .timersDone => .ok { t with connector := t.connector.timersDone }
  | .handleConnector revents soError selfConnect => t.handleConnector revents soError selfConnect
  | .handleClose n errno sockfd => t.handleClose n errno sockfd
  | .connectionHandled _ => .ok { t with connector := t.connector.handlerDone }
  | .swap => .ok { t with connector := t.connector.swap }
  | .resetChannel => .ok { t with connector := t.connector.resetChannel.functorDone }
  | .connectDestroyed n => do
    let t ← t.connectDestroyed n
    return { t with connector := t.connector.functorDone }
  | .iterationDone => .ok { t with connector := t.connector.iterationDone }
  | .release n => .ok { t.modifyConn n fun conn => { conn with alive := false } with
      connector := t.connector.close (t.conn n).fd }

/-- Which steps may come next: the user calls at any time, the kernel makes a socket that is
not open, and a connection calls its `closeCallback_` at most once. -/
def enabled (t : TcpClient) : ClientStep → Prop
  | .connect _ sockfd => sockfd ∉ t.connector.sockets
  | .disconnect | .stop | .enableRetry => True
  | .poll expired active => t.connector.MayFind expired active
  | .runTimer _ sockfd => t.connector.phase.expired ≠ [] ∧ sockfd ∉ t.connector.sockets
  | .timersDone => t.connector.phase = .timers [] t.connector.phase.active
  | .handleConnector _ _ _ =>
    t.connector.phase = .channels (.connector :: t.connector.phase.active.tail)
  | .handleClose n _ sockfd =>
    t.connector.phase = .channels (.connection n :: t.connector.phase.active.tail) ∧
      (t.conn n).closed = false ∧ sockfd ∉ t.connector.sockets
  | .connectionHandled n =>
    t.connector.phase = .channels (.connection n :: t.connector.phase.active.tail)
  | .swap => t.connector.phase = .channels []
  | .resetChannel =>
    t.connector.phase = .functors (.resetChannel :: t.connector.phase.batch.tail)
  | .connectDestroyed n =>
    t.connector.phase = .functors (.connectDestroyed n :: t.connector.phase.batch.tail)
  | .iterationDone => t.connector.phase = .functors []
  | .release n => (t.conn n).state = .kDisconnected ∧ (t.conn n).alive = true

instance (t : TcpClient) (a : ClientStep) : Decidable (t.enabled a) := by
  cases a <;> unfold enabled <;> infer_instance

end TcpClient

/-- All runs of a client from its construction on. -/
def clientSystem : System TcpClient ClientStep Failure where
  init t := t = .new
  enabled := TcpClient.enabled
  exec := TcpClient.exec

instance (t : TcpClient) (a : ClientStep) : Decidable (clientSystem.enabled t a) :=
  inferInstanceAs (Decidable (t.enabled a))

end Dalin.Net
