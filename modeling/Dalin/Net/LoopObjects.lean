import Dalin.Library.Transition
import Dalin.Net.Connector
import Dalin.Net.PollerEvents
import Dalin.Net.TcpConnection

/-!
# The objects of one loop

A program makes servers, clients and connectors in a loop thread, uses them and
deletes them when it likes, also from callbacks. Each of them owns channels, and
the Poller of the loop refers to the registered ones by pointer. This file embeds
the functions that make, register, remove and delete channels, over the tables
of the Poller, and all runs of any number of such objects. Retry timers may run
at any time, and `~Channel` does not check `eventHandling_`.
-/

set_option autoImplicit false

namespace Dalin.Net

open Transition

/-- A channel object, named after its owner: the acceptor of a server, the `k`-th attempt of a
connector, or a connection. -/
inductive ChannelName
  | acceptor (server : ℕ)
  | attempt (connector k : ℕ)
  | connection (c : ℕ)
  deriving DecidableEq

/-- The `closeCallback_` of a connection. -/
inductive CloseTarget
  /-- `TcpServer::removeConnection`. -/
  | server (server : ℕ)
  /-- `TcpClient::removeConnection`. -/
  | client (client : ℕ)
  /-- `Detail::removeConnection`. -/
  | detail
  deriving DecidableEq

/-- A functor in the queue of the loop. -/
inductive ObjectFunctor
  | resetChannel (connector : ℕ)
  | connectDestroyed (c : ℕ)
  deriving DecidableEq

/-- The phases of an iteration of the loop. -/
inductive ObjectPhase
  | polling
  /-- The active channels still to be handled, the current one included. -/
  | handlers (active : List ChannelName)
  /-- The functors of the batch still to run. -/
  | functors (batch : List ObjectFunctor)
  deriving DecidableEq

/-- The active channels that are still to be handled. -/
def ObjectPhase.active : ObjectPhase → List ChannelName
  | handlers active => active
  | _ => []

/-- The functors of the batch that are still to run. -/
def ObjectPhase.batch : ObjectPhase → List ObjectFunctor
  | functors batch => batch
  | _ => []

/-- A `TcpServer` with its `Acceptor`, without I/O loops. -/
structure ServerObject where
  /-- The object exists. -/
  alive : Bool
  /-- `Acceptor::listenning_`. -/
  listenning : Bool
  /-- The connections in `connections_`. -/
  connections : List ℕ

/-- A `Connector`. -/
structure ConnectorObject where
  /-- The object exists. -/
  alive : Bool
  /-- `connect_`. -/
  connects : Bool
  /-- `state_`. -/
  state : ConnectorState
  /-- The attempt that `channel_` belongs to, if there is a channel. -/
  channel : Option ℕ
  /-- The number of channels made so far. -/
  made : ℕ
  /-- The client that owns the connector, if there is one. -/
  client : Option ℕ

/-- A `TcpClient`. -/
structure ClientObject where
  /-- The object exists. -/
  alive : Bool
  /-- `connector_`. -/
  connector : ℕ
  /-- `retry_`. -/
  retry : Bool
  /-- `connect_`. -/
  connects : Bool
  /-- `connection_`. -/
  connection : Option ℕ

/-- A `TcpConnection`. -/
structure ConnectionObject where
  /-- The object exists. -/
  alive : Bool
  /-- `state_`. -/
  state : StateE
  /-- `closeCallback_`. -/
  closeTarget : CloseTarget

/-- A loop with the objects that were made in its thread, in the order in which they were made. -/
structure LoopObjects where
  /-- The Poller, and the channel objects. -/
  poller : Poller ChannelName
  servers : ℕ → ServerObject
  numServers : ℕ
  connectors : ℕ → ConnectorObject
  numConnectors : ℕ
  clients : ℕ → ClientObject
  numClients : ℕ
  connections : ℕ → ConnectionObject
  numConnections : ℕ
  phase : ObjectPhase
  /-- `pendingFunctors_`. -/
  pendingFunctors : List ObjectFunctor
  /-- The connection whose callback runs inside `connectDestroyed`. -/
  destroying : Option ℕ

/-- A call of the program, at any time, or a step of the loop. A step that may call `::connect`
comes with the result and the new socket. -/
inductive ObjectStep
  | newServer (sockfd : ℕ)
  | startServer (s : ℕ)
  | deleteServer (s : ℕ)
  | newConnector
  | startConnector (i : ℕ) (errno : Errno) (sockfd : ℕ)
  | restartConnector (i : ℕ) (errno : Errno) (sockfd : ℕ)
  | stopConnector (i : ℕ)
  /-- The last owner of a connector that no client owns is gone. -/
  | deleteConnector (i : ℕ)
  | newClient
  | connectClient (j : ℕ) (errno : Errno) (sockfd : ℕ)
  | disconnectClient (j : ℕ)
  | stopClient (j : ℕ)
  | enableRetry (j : ℕ)
  | deleteClient (j : ℕ)
  | shutdown (c : ℕ)
  /-- A call of `send` that leaves data to write. -/
  | send (c : ℕ)
  /-- The last owner of a connection is gone. -/
  | deleteConnection (c : ℕ)
  /-- A retry timer of a connector runs. -/
  | runTimer (i : ℕ) (errno : Errno) (sockfd : ℕ)
  | poll (revents : List (BitVec 16))
  /-- The acceptor has a new socket. -/
  | accept (s sockfd : ℕ)
  | handleConnectorWrite (i k : ℕ) (soError : ℤ) (selfConnect : Bool)
  | handleConnectorError (i k : ℕ)
  /-- All data of a connection is written. -/
  | handleWritten (c : ℕ)
  | handleClose (c : ℕ) (errno : Errno) (sockfd : ℕ)
  | handlerDone
  /-- The handlers are done, and `doPendingFunctors` swaps the queue out. -/
  | swap
  | runFunctor
  /-- The callback inside `connectDestroyed` returns. -/
  | callbackDone (c : ℕ)
  | iterationDone

namespace LoopObjects

/-- A loop thread without objects. -/
def empty : LoopObjects where
  poller := ⟨[], ∅, fun _ => Channel.new 0, []⟩
  servers _ := ⟨false, false, []⟩
  numServers := 0
  connectors _ := ⟨false, false, .kDisconnected, none, 0, none⟩
  numConnectors := 0
  clients _ := ⟨false, 0, false, true, none⟩
  numClients := 0
  connections _ := ⟨false, .kConnecting, .detail⟩
  numConnections := 0
  phase := .polling
  pendingFunctors := []
  destroying := none

/-! ### Single fields -/

/-- Change one server. -/
def modifyServer (w : LoopObjects) (s : ℕ) (f : ServerObject → ServerObject) : LoopObjects :=
  { w with servers := Function.update w.servers s (f (w.servers s)) }

/-- Change one connector. -/
def modifyConnector (w : LoopObjects) (i : ℕ) (f : ConnectorObject → ConnectorObject) :
    LoopObjects :=
  { w with connectors := Function.update w.connectors i (f (w.connectors i)) }

/-- Change one client. -/
def modifyClient (w : LoopObjects) (j : ℕ) (f : ClientObject → ClientObject) : LoopObjects :=
  { w with clients := Function.update w.clients j (f (w.clients j)) }

/-- Change one connection. -/
def modifyConnection (w : LoopObjects) (c : ℕ) (f : ConnectionObject → ConnectionObject) :
    LoopObjects :=
  { w with connections := Function.update w.connections c (f (w.connections c)) }

/-- An access to an object, which must still exist. -/
def access (alive : Bool) (pointer : String) : Except Failure Unit :=
  if alive then .ok () else .error (.danglingPointer pointer)

/-- A new channel object. -/
def newChannel (w : LoopObjects) (name : ChannelName) (fd : ℕ) : LoopObjects :=
  { w with poller := w.poller.modify name fun _ => Channel.new fd }

/-- `Channel::enableReading` and its siblings. -/
def setInterest (w : LoopObjects) (name : ChannelName) (i : Interest) :
    Except Failure LoopObjects := do
  let poller ← w.poller.setInterest name i
  return { w with poller }

/-- `EventLoop::removeChannel`. -/
def removeChannel (w : LoopObjects) (name : ChannelName) : Except Failure LoopObjects := do
  let poller ← w.poller.removeChannel name
  return { w with poller }

/-- `EventLoop::queueInLoop`. -/
def queueInLoop (w : LoopObjects) (f : ObjectFunctor) : LoopObjects :=
  { w with pendingFunctors := w.pendingFunctors ++ [f] }

/-! ### The connector -/

/-- `Connector::setState`. -/
def setState (w : LoopObjects) (i : ℕ) (state : ConnectorState) : LoopObjects :=
  w.modifyConnector i fun connector => { connector with state := state }

/-- `Connector::Connector`. -/
def newConnector (w : LoopObjects) (client : Option ℕ) : LoopObjects :=
  { w.modifyConnector w.numConnectors fun _ => ⟨true, false, .kDisconnected, none, 0, client⟩ with
    numConnectors := w.numConnectors + 1 }

/-- `Connector::connecting`. -/
def connecting (w : LoopObjects) (i sockfd : ℕ) : Except Failure LoopObjects := do
  require ((w.connectors i).channel = none) "!channel_"
  let k := (w.connectors i).made
  let w := w.modifyConnector i fun connector =>
    { connector with state := .kConnecting, channel := some k, made := k + 1 }
  (w.newChannel (.attempt i k) sockfd).setInterest (.attempt i k) .enableWriting

/-- `Connector::connect`, where `retry` and the other failures leave no channel. -/
def connect (w : LoopObjects) (i : ℕ) (errno : Errno) (sockfd : ℕ) : Except Failure LoopObjects :=
  match errno.branch with
  | .connecting => w.connecting i sockfd
  | .retry => .ok (w.setState i .kDisconnected)
  | .close => .ok w

/-- `Connector::startInLoop`. -/
def startInLoop (w : LoopObjects) (i : ℕ) (errno : Errno) (sockfd : ℕ) :
    Except Failure LoopObjects := do
  access (w.connectors i).alive "this"
  require ((w.connectors i).state = .kDisconnected) "state_ == kDisconnected"
  if (w.connectors i).connects then w.connect i errno sockfd else return w

/-- `Connector::start`. -/
def startConnector (w : LoopObjects) (i : ℕ) (errno : Errno) (sockfd : ℕ) :
    Except Failure LoopObjects :=
  (w.modifyConnector i fun connector => { connector with connects := true }).startInLoop
    i errno sockfd

/-- `Connector::restart`. -/
def restartConnector (w : LoopObjects) (i : ℕ) (errno : Errno) (sockfd : ℕ) :
    Except Failure LoopObjects :=
  (w.modifyConnector i fun connector =>
    { connector with state := .kDisconnected, connects := true }).startInLoop i errno sockfd

/-- `Connector::stop`. -/
def stopConnector (w : LoopObjects) (i : ℕ) : LoopObjects :=
  w.modifyConnector i fun connector => { connector with connects := false }

/-- `Connector::removeAndResetChannel`. -/
def removeAndResetChannel (w : LoopObjects) (i : ℕ) : Except Failure LoopObjects :=
  match (w.connectors i).channel with
  | none => .error (.nullPointer "channel_")
  | some k => do
    let w ← w.setInterest (.attempt i k) .disableAll
    let w ← w.removeChannel (.attempt i k)
    return w.queueInLoop (.resetChannel i)

/-- `Connector::resetChannel`. -/
def resetChannel (w : LoopObjects) (i : ℕ) : LoopObjects :=
  w.modifyConnector i fun connector => { connector with channel := none }

/-! ### Connections -/

/-- A new `TcpConnection`, up to the end of `connectEstablished`. -/
def establish (w : LoopObjects) (sockfd : ℕ) (closeTarget : CloseTarget) :
    Except Failure LoopObjects :=
  let c := w.numConnections
  let w := { w.modifyConnection c fun _ => ⟨true, .kConnected, closeTarget⟩ with
    numConnections := c + 1 }
  (w.newChannel (.connection c) sockfd).setInterest (.connection c) .enableReading

/-- `TcpServer::newConnection`. -/
def newServerConnection (w : LoopObjects) (s sockfd : ℕ) : Except Failure LoopObjects :=
  (w.modifyServer s fun server =>
    { server with connections := server.connections ++ [w.numConnections] }).establish
      sockfd (.server s)

/-- `TcpClient::newConnection`. -/
def newClientConnection (w : LoopObjects) (j sockfd : ℕ) : Except Failure LoopObjects :=
  (w.modifyClient j fun client =>
    { client with connection := some w.numConnections }).establish sockfd (.client j)

/-- `TcpConnection::shutdown`, as far as it changes `state_`. -/
def shutdown (w : LoopObjects) (c : ℕ) : LoopObjects :=
  w.modifyConnection c fun conn =>
    if conn.state = .kConnected then { conn with state := .kDisconnecting } else conn

/-- `TcpConnection::send` with more data than the socket takes. -/
def send (w : LoopObjects) (c : ℕ) : Except Failure LoopObjects :=
  if (w.connections c).state = .kConnected then
    if (w.poller.channel (.connection c)).isWriting then .ok w
    else w.setInterest (.connection c) .enableWriting
  else .ok w

/-- `TcpConnection::handleWrite` with the last of the data. -/
def handleWritten (w : LoopObjects) (c : ℕ) : Except Failure LoopObjects :=
  if (w.poller.channel (.connection c)).isWriting then
    w.setInterest (.connection c) .disableWriting
  else .ok w

/-- `TcpServer::removeConnection`, which runs `removeConnectionInLoop` at once. -/
def removeServerConnection (w : LoopObjects) (s c : ℕ) : Except Failure LoopObjects := do
  access (w.servers s).alive "TcpServer"
  require (c ∈ (w.servers s).connections) "n == 1"
  return (w.modifyServer s fun server =>
    { server with connections := server.connections.filter (· ≠ c) }).queueInLoop
      (.connectDestroyed c)

/-- `TcpClient::removeConnection`. -/
def removeClientConnection (w : LoopObjects) (j c : ℕ) (errno : Errno) (sockfd : ℕ) :
    Except Failure LoopObjects := do
  access (w.clients j).alive "TcpClient"
  require ((w.clients j).connection = some c) "connection_ == conn"
  let w := (w.modifyClient j fun client => { client with connection := none }).queueInLoop
    (.connectDestroyed c)
  if (w.clients j).retry && (w.clients j).connects then
    w.restartConnector (w.clients j).connector errno sockfd
  else return w

/-- `TcpConnection::handleClose` with its `closeCallback_`. -/
def handleClose (w : LoopObjects) (c : ℕ) (errno : Errno) (sockfd : ℕ) :
    Except Failure LoopObjects := do
  require ((w.connections c).state = .kConnected ∨ (w.connections c).state = .kDisconnecting)
    "state_ == kConnected || state_ == kDisconnecting"
  let w ← w.setInterest (.connection c) .disableAll
  match (w.connections c).closeTarget with
  | .server s => w.removeServerConnection s c
  | .client j => w.removeClientConnection j c errno sockfd
  | .detail => return w.queueInLoop (.connectDestroyed c)

/-- `TcpConnection::connectDestroyed` up to the callback. -/
def connectDestroyed (w : LoopObjects) (c : ℕ) : Except Failure LoopObjects := do
  access (w.connections c).alive "conn"
  require ((w.connections c).state = .kConnected ∨ (w.connections c).state = .kDisconnecting)
    "state_ == kConnected || state_ == kDisconnecting"
  let w := w.modifyConnection c fun conn => { conn with state := .kDisconnected }
  let w ← w.setInterest (.connection c) .disableAll
  return { w with destroying := some c }

/-- The end of `TcpConnection::connectDestroyed`, after the callback. -/
def callbackDone (w : LoopObjects) (c : ℕ) : Except Failure LoopObjects := do
  access (w.connections c).alive "this"
  let w ← w.removeChannel (.connection c)
  return { w with destroying := none }

/-! ### Handlers of the connector -/

/-- `newConnectionCallback_`, if the connector has a client. -/
def newConnectionCallback (w : LoopObjects) (i sockfd : ℕ) : Except Failure LoopObjects :=
  match (w.connectors i).client with
  | some j => w.newClientConnection j sockfd
  | none => .ok w

/-- `Connector::handleWrite`, where `soError` is the pending error of the socket. -/
def handleConnectorWrite (w : LoopObjects) (i : ℕ) (soError : ℤ) (selfConnect : Bool) :
    Except Failure LoopObjects :=
  if (w.connectors i).state = .kConnecting then do
    let sockfd := match (w.connectors i).channel with
      | some k => (w.poller.channel (.attempt i k)).fd.toNat
      | none => 0
    let w ← w.removeAndResetChannel i
    if soError ≠ 0 then return w.setState i .kDisconnected
    else if selfConnect then return w.setState i .kDisconnected
    else
      let w := w.setState i .kConnected
      if (w.connectors i).connects then w.newConnectionCallback i sockfd else return w
  else do
    require ((w.connectors i).state = .kDisconnected) "state_ == kDisconnected"
    return w

/-- `Connector::handleError`. -/
def handleConnectorError (w : LoopObjects) (i : ℕ) : Except Failure LoopObjects := do
  require ((w.connectors i).state = .kConnecting) "state_ == kConnecting"
  let w ← w.removeAndResetChannel i
  return w.setState i .kDisconnected

/-! ### Construction and destruction -/

/-- `TcpServer::TcpServer`. -/
def newServer (w : LoopObjects) (sockfd : ℕ) : LoopObjects :=
  { (w.modifyServer w.numServers fun _ => ⟨true, false, []⟩).newChannel
      (.acceptor w.numServers) sockfd with
    numServers := w.numServers + 1 }

/-- `Acceptor::listen`. -/
def listen (w : LoopObjects) (s : ℕ) : Except Failure LoopObjects :=
  (w.modifyServer s fun server => { server with listenning := true }).setInterest
    (.acceptor s) .enableReading

/-- `TcpServer::start`, without I/O threads. -/
def startServer (w : LoopObjects) (s : ℕ) : Except Failure LoopObjects :=
  if (w.servers s).listenning then .ok w else w.listen s

/-- `TcpServer::~TcpServer`, which does nothing, and the end of its members. -/
def deleteServer (w : LoopObjects) (s : ℕ) : LoopObjects :=
  w.modifyServer s fun server => { server with alive := false, connections := [] }

/-- `TcpClient::TcpClient`. -/
def newClient (w : LoopObjects) : LoopObjects :=
  { (w.newConnector (some w.numClients)).modifyClient w.numClients fun _ =>
      ⟨true, w.numConnectors, false, true, none⟩ with
    numClients := w.numClients + 1 }

/-- `Connector::~Connector`, which cancels the timer, and the end of its members. -/
def deleteConnector (w : LoopObjects) (i : ℕ) : LoopObjects :=
  w.modifyConnector i fun connector => { connector with alive := false }

/-- `TcpClient::~TcpClient` and the end of its members. -/
def deleteClient (w : LoopObjects) (j : ℕ) : LoopObjects :=
  let i := (w.clients j).connector
  let w := match (w.clients j).connection with
    | some c => w.modifyConnection c fun conn => { conn with closeTarget := .detail }
    | none => w.stopConnector i
  (w.modifyClient j fun client =>
    { client with alive := false, connection := none }).deleteConnector i

/-! ### Steps -/

/-- `TcpClient::connect`. -/
def connectClient (w : LoopObjects) (j : ℕ) (errno : Errno) (sockfd : ℕ) :
    Except Failure LoopObjects :=
  (w.modifyClient j fun client => { client with connects := true }).startConnector
    (w.clients j).connector errno sockfd

/-- `TcpClient::disconnect`. -/
def disconnectClient (w : LoopObjects) (j : ℕ) : LoopObjects :=
  let w := w.modifyClient j fun client => { client with connects := false }
  match (w.clients j).connection with
  | some c => w.shutdown c
  | none => w

/-- `TcpClient::stop`. -/
def stopClient (w : LoopObjects) (j : ℕ) : LoopObjects :=
  (w.modifyClient j fun client => { client with connects := false }).stopConnector
    (w.clients j).connector

/-- `Poller::poll` with these events. -/
def poll (w : LoopObjects) (revents : List (BitVec 16)) : Except Failure LoopObjects := do
  let (poller, active) ← (w.poller.report revents).fillActiveChannels
  return { w with poller, phase := .handlers active }

/-- The next functor of the batch runs. -/
def runFunctor (w : LoopObjects) : Except Failure LoopObjects :=
  match w.phase with
  | .functors (.resetChannel i :: rest) => do
    access (w.connectors i).alive "this"
    return { w with phase := .functors rest }.resetChannel i
  | .functors (.connectDestroyed c :: rest) =>
    { w with phase := .functors rest }.connectDestroyed c
  | _ => .ok w

/-- The channel object exists. -/
def Live (w : LoopObjects) : ChannelName → Prop
  | .acceptor s => (w.servers s).alive = true
  | .attempt i k => (w.connectors i).alive = true ∧ (w.connectors i).channel = some k
  | .connection c => (w.connections c).alive = true

instance (w : LoopObjects) (name : ChannelName) : Decidable (w.Live name) := by
  cases name <;> unfold Live <;> infer_instance

/-- A handler of this channel, which must still exist. -/
def handle (w : LoopObjects) (name : ChannelName) (handler : Except Failure LoopObjects) :
    Except Failure LoopObjects :=
  if w.Live name then handler else .error (.danglingPointer "channel")

/-- The channel that is handled now. -/
def current (w : LoopObjects) : Option ChannelName := w.phase.active.head?

/-- The effect of a step. -/
def exec (w : LoopObjects) : ObjectStep → Except Failure LoopObjects
  | .newServer sockfd => .ok (w.newServer sockfd)
  | .startServer s => w.startServer s
  | .deleteServer s => .ok (w.deleteServer s)
  | .newConnector => .ok (w.newConnector none)
  | .startConnector i errno sockfd => w.startConnector i errno sockfd
  | .restartConnector i errno sockfd => w.restartConnector i errno sockfd
  | .stopConnector i => .ok (w.stopConnector i)
  | .deleteConnector i => .ok (w.deleteConnector i)
  | .newClient => .ok w.newClient
  | .connectClient j errno sockfd => w.connectClient j errno sockfd
  | .disconnectClient j => .ok (w.disconnectClient j)
  | .stopClient j => .ok (w.stopClient j)
  | .enableRetry j => .ok (w.modifyClient j fun client => { client with retry := true })
  | .deleteClient j => .ok (w.deleteClient j)
  | .shutdown c => .ok (w.shutdown c)
  | .send c => w.send c
  | .deleteConnection c => .ok (w.modifyConnection c fun conn => { conn with alive := false })
  | .runTimer i errno sockfd => w.startInLoop i errno sockfd
  | .poll revents => w.poll revents
  | .accept s sockfd => w.handle (.acceptor s) (w.newServerConnection s sockfd)
  | .handleConnectorWrite i k soError selfConnect =>
    w.handle (.attempt i k) (w.handleConnectorWrite i soError selfConnect)
  | .handleConnectorError i k => w.handle (.attempt i k) (w.handleConnectorError i)
  | .handleWritten c => w.handle (.connection c) (w.handleWritten c)
  | .handleClose c errno sockfd => w.handle (.connection c) (w.handleClose c errno sockfd)
  | .handlerDone => .ok { w with phase := .handlers w.phase.active.tail }
  | .swap => .ok { w with phase := .functors w.pendingFunctors, pendingFunctors := [] }
  | .runFunctor => w.runFunctor
  | .callbackDone c => w.callbackDone c
  | .iterationDone => .ok { w with phase := .polling }

/-- No server and no client holds a pointer to the connection. -/
def Unheld (w : LoopObjects) (c : ℕ) : Prop :=
  (∀ s < w.numServers, c ∉ (w.servers s).connections) ∧
    ∀ j < w.numClients, (w.clients j).connection ≠ some c

instance (w : LoopObjects) (c : ℕ) : Decidable (w.Unheld c) :=
  inferInstanceAs (Decidable (_ ∧ _))

/-- Which steps may come next: the program uses the objects that it has not deleted, and a
connection ends at some time after no server and no client holds it. -/
def enabled (w : LoopObjects) : ObjectStep → Prop
  | .newServer _ | .newConnector | .newClient => True
  | .startServer s | .deleteServer s => (w.servers s).alive = true
  | .startConnector i _ _ | .restartConnector i _ _ | .stopConnector i | .deleteConnector i =>
    (w.connectors i).alive = true ∧ (w.connectors i).client = none
  | .connectClient j _ _ | .disconnectClient j | .stopClient j | .enableRetry j
  | .deleteClient j => (w.clients j).alive = true
  | .shutdown c | .send c => (w.connections c).alive = true
  | .deleteConnection c => (w.connections c).alive = true ∧ w.Unheld c
  | .runTimer i _ _ => i < w.numConnectors
  | .poll revents => w.phase = .polling ∧ w.poller.MayReport revents
  | .accept s _ => w.current = some (.acceptor s)
  | .handleConnectorWrite i k _ _ | .handleConnectorError i k => w.current = some (.attempt i k)
  | .handleWritten c | .handleClose c _ _ => w.current = some (.connection c)
  | .handlerDone => w.current ≠ none
  | .swap => w.phase = .handlers []
  | .runFunctor => w.phase.batch ≠ [] ∧ w.destroying = none
  | .callbackDone c => w.destroying = some c
  | .iterationDone => w.phase = .functors [] ∧ w.destroying = none

instance (w : LoopObjects) (a : ObjectStep) : Decidable (w.enabled a) := by
  cases a <;> unfold enabled <;> infer_instance

end LoopObjects

/-- All runs of a loop thread, from an empty program on. -/
def objectSystem : System LoopObjects ObjectStep Failure where
  init w := w = .empty
  enabled := LoopObjects.enabled
  exec := LoopObjects.exec

instance (w : LoopObjects) (a : ObjectStep) : Decidable (objectSystem.enabled w a) :=
  inferInstanceAs (Decidable (w.enabled a))

end Dalin.Net
