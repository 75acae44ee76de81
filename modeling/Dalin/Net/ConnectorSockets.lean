import Dalin.Net.ConnectorAttempts

/-!
# The sockets of a connector

A socket that `connect` creates can leave the connector in many places: the
`switch` over `errno`, the error handler, and the write handler, which closes it
after an error, a self-connection or a call of `stop`, or else hands it over.
This file embeds the member functions once more with a record of what they do to
sockets and channels, in order, and proves that each socket is dealt with once,
after its channel has left the Poller, and that `stop` is obeyed.
-/

set_option autoImplicit false

namespace Dalin.Net

open Transition

/-- What a connector does to a socket. -/
inductive SocketEvent
  /-- The channel of the socket is registered in the Poller. -/
  | registered
  /-- The channel of the socket is removed from the Poller. -/
  | removed
  /-- `SocketsOps::close`. -/
  | closed
  /-- `newConnectionCallback_`. -/
  | handedOver
  deriving DecidableEq

/-- A call of the user, or what a connector does to the socket of a descriptor. -/
inductive ConnectorEvent
  | start
  | stop
  | restart
  /-- `SocketsOps::createNonblockingOrDie`. -/
  | created (sockfd : ℕ)
  | socket (sockfd : ℕ) (event : SocketEvent)
  deriving DecidableEq

/-- A connector and the record of its events, oldest first. -/
structure RecordedConnector where
  connector : Connector
  events : List ConnectorEvent
  deriving DecidableEq

namespace RecordedConnector

/-- Put an event on record. -/
def record (r : RecordedConnector) (event : ConnectorEvent) : RecordedConnector :=
  { r with events := r.events ++ [event] }

/-- Change the connector without an event. -/
def change (r : RecordedConnector) (f : Connector → Connector) : RecordedConnector :=
  { r with connector := f r.connector }

/-- `SocketsOps::close`. -/
def close (r : RecordedConnector) (sockfd : ℕ) : RecordedConnector :=
  (r.change fun c => c.close sockfd).record (.socket sockfd .closed)

/-- `Connector::retry`. -/
def retry (r : RecordedConnector) (sockfd : ℕ) : RecordedConnector :=
  let r := (r.close sockfd).change fun c => c.setState .kDisconnected
  if r.connector.connects then r.change fun c => c.runAfter.doubleDelay else r

/-- `Connector::connecting`, whose last call registers the channel. -/
def connecting (r : RecordedConnector) (sockfd : ℕ) : Except Failure RecordedConnector := do
  let connector ← r.connector.connecting sockfd
  return { r with connector }.record (.socket sockfd .registered)

/-- `Connector::connect`, where the kernel makes `sockfd` and `::connect` sets `errno`. -/
def connect (r : RecordedConnector) (errno : Errno) (sockfd : ℕ) :
    Except Failure RecordedConnector :=
  let r := (r.change fun c =>
    { c with sockets := sockfd :: c.sockets, attempts := c.attempts + 1 }).record (.created sockfd)
  match errno.branch with
  | .connecting => r.connecting sockfd
  | .retry => .ok (r.retry sockfd)
  | .close => .ok (r.close sockfd)

/-- `Connector::startInLoop`. -/
def startInLoop (r : RecordedConnector) (errno : Errno) (sockfd : ℕ) :
    Except Failure RecordedConnector := do
  require (r.connector.state = .kDisconnected) "state_ == kDisconnected"
  if r.connector.connects then r.connect errno sockfd else return r

/-- `Connector::start`, called in the loop thread. -/
def start (r : RecordedConnector) (errno : Errno) (sockfd : ℕ) : Except Failure RecordedConnector :=
  ((r.record .start).change fun c => { c with connects := true }).startInLoop errno sockfd

/-- `Connector::restart`. -/
def restart (r : RecordedConnector) (errno : Errno) (sockfd : ℕ) :
    Except Failure RecordedConnector :=
  ((r.record .restart).change fun c => { c.setState .kDisconnected with
    retryDelayMs := Connector.kInitRetryDelayMs
    connects := true }).startInLoop errno sockfd

/-- `Connector::stop`. -/
def stop (r : RecordedConnector) : RecordedConnector := (r.record .stop).change Connector.stop

/-- `Connector::removeAndResetChannel`. -/
def removeAndResetChannel (r : RecordedConnector) : Except Failure (RecordedConnector × ℕ) := do
  let (connector, sockfd) ← r.connector.removeAndResetChannel
  return ({ r with connector }.record (.socket sockfd .removed), sockfd)

/-- `Connector::handleWrite`; as before, the socket that goes to `newConnectionCallback_` is part
of the result. -/
def handleWrite (r : RecordedConnector) (soError : ℤ) (selfConnect : Bool) :
    Except Failure (RecordedConnector × Option ℕ) :=
  if r.connector.state = .kConnecting then do
    let (r, sockfd) ← r.removeAndResetChannel
    if soError ≠ 0 then return (r.retry sockfd, none)
    else if selfConnect then return (r.retry sockfd, none)
    else
      let r := r.change fun c => c.setState .kConnected
      if r.connector.connects then return (r.record (.socket sockfd .handedOver), some sockfd)
      else return (r.close sockfd, none)
  else do
    require (r.connector.state = .kDisconnected) "state_ == kDisconnected"
    return (r, none)

/-- `Connector::handleError`. -/
def handleError (r : RecordedConnector) : Except Failure RecordedConnector := do
  require (r.connector.state = .kConnecting) "state_ == kConnecting"
  let (r, sockfd) ← r.removeAndResetChannel
  return r.retry sockfd

/-- `Channel::handleEvent` for the channel of the connector. -/
def handleEvent (r : RecordedConnector) (revents : BitVec 32) (soError : ℤ) (selfConnect : Bool) :
    Except Failure (RecordedConnector × Option ℕ) := do
  let r ← if revents &&& (POLLERR ||| POLLNVAL) ≠ 0 then r.handleError else .ok r
  if revents &&& POLLOUT ≠ 0 then r.handleWrite soError selfConnect else return (r, none)

/-- The next expired retry timer runs. -/
def runTimer (r : RecordedConnector) (errno : Errno) (sockfd : ℕ) :
    Except Failure RecordedConnector :=
  match r.connector.phase with
  | .timers (_ :: rest) active =>
    (r.change fun c => { c with phase := .timers rest active }).startInLoop errno sockfd
  | _ => .ok r

/-! ### The record changes nothing -/

/-- What `retry` records. -/
theorem retry_eq (r : RecordedConnector) (sockfd : ℕ) :
    r.retry sockfd =
      ⟨r.connector.retry sockfd, r.events ++ [ConnectorEvent.socket sockfd .closed]⟩ := by
  unfold retry Connector.retry
  change (if r.connector.connects then _ else _) = RecordedConnector.mk (if _ then _ else _) _
  split <;> rfl

/-- What becomes at once of a socket that is created. -/
def firstEvent (errno : Errno) : SocketEvent :=
  match errno.branch with
  | .connecting => .registered
  | .retry | .close => .closed

/-- An operation followed by a function of its result. -/
theorem bind_eq_map {α β : Type} (x : Except Failure α) (f : α → β) :
    (x >>= fun a => .ok (f a)) = x.map f := by
  cases x with
  | error e => rfl
  | ok a => rfl

/-- What `connect` records. -/
theorem connect_eq (r : RecordedConnector) (errno : Errno) (sockfd : ℕ) :
    r.connect errno sockfd = (r.connector.connect errno sockfd).map fun c =>
      ⟨c, r.events ++ [ConnectorEvent.created sockfd, .socket sockfd (firstEvent errno)]⟩ := by
  have happend : ∀ event, r.events ++ [ConnectorEvent.created sockfd, .socket sockfd event] =
      r.events ++ [ConnectorEvent.created sockfd] ++ [ConnectorEvent.socket sockfd event] := by simp
  unfold connect Connector.connect firstEvent
  simp only [happend]
  cases errno.branch with
  | connecting => exact bind_eq_map (Connector.connecting _ sockfd) _
  | retry => exact congrArg Except.ok (retry_eq _ sockfd)
  | close => rfl

/-- The events of `startInLoop`. -/
def attemptEvents (c : Connector) (errno : Errno) (sockfd : ℕ) : List ConnectorEvent :=
  if c.connects then [.created sockfd, .socket sockfd (firstEvent errno)] else []

/-- What `startInLoop` records. -/
theorem startInLoop_eq (r : RecordedConnector) (errno : Errno) (sockfd : ℕ) :
    r.startInLoop errno sockfd = (r.connector.startInLoop errno sockfd).map fun c =>
      ⟨c, r.events ++ attemptEvents r.connector errno sockfd⟩ := by
  unfold startInLoop Connector.startInLoop attemptEvents
  cases require (r.connector.state = .kDisconnected) "state_ == kDisconnected" with
  | error e => rfl
  | ok _ =>
    change (if _ then _ else _) = Except.map _ (if _ then _ else _)
    split
    · exact connect_eq r errno sockfd
    · exact congrArg Except.ok (congrArg (RecordedConnector.mk _) (List.append_nil _).symm)

/-- What `removeAndResetChannel` records. -/
theorem removeAndResetChannel_eq (r : RecordedConnector) :
    r.removeAndResetChannel = r.connector.removeAndResetChannel.map fun p =>
      (⟨p.1, r.events ++ [ConnectorEvent.socket p.2 .removed]⟩, p.2) :=
  bind_eq_map _ _

/-- The record changes nothing in `handleWrite`. -/
theorem handleWrite_connector (r : RecordedConnector) (soError : ℤ) (selfConnect : Bool) :
    (r.handleWrite soError selfConnect).map (fun p => (p.1.connector, p.2)) =
      r.connector.handleWrite soError selfConnect := by
  unfold handleWrite Connector.handleWrite
  split
  · rw [removeAndResetChannel_eq]
    cases r.connector.removeAndResetChannel with
    | error e => rfl
    | ok p =>
      obtain ⟨c, sockfd⟩ := p
      change Except.map _ (if soError ≠ 0 then _ else if selfConnect = true then _ else _) =
        if soError ≠ 0 then _ else if selfConnect = true then _ else _
      split
      · rw [retry_eq]
        rfl
      split
      · rw [retry_eq]
        rfl
      change Except.map _ (if c.connects = true then _ else _) = if c.connects = true then _ else _
      split <;> rfl
  · cases require (r.connector.state = .kDisconnected) "state_ == kDisconnected" with
    | error e => rfl
    | ok _ => rfl

/-- The record changes nothing in `handleError`. -/
theorem handleError_connector (r : RecordedConnector) :
    r.handleError.map connector = r.connector.handleError := by
  unfold handleError Connector.handleError
  rw [removeAndResetChannel_eq]
  cases require (r.connector.state = .kConnecting) "state_ == kConnecting" with
  | error e => rfl
  | ok _ =>
    cases r.connector.removeAndResetChannel with
    | error e => rfl
    | ok p => exact congrArg (fun r => Except.ok (connector r)) (retry_eq _ p.2)

/-- The record changes nothing in `handleEvent`. -/
theorem handleEvent_connector (r : RecordedConnector) (revents : BitVec 32) (soError : ℤ)
    (selfConnect : Bool) :
    (r.handleEvent revents soError selfConnect).map (fun p => (p.1.connector, p.2)) =
      r.connector.handleEvent revents soError selfConnect := by
  have hwrite : ∀ r : RecordedConnector,
      (if revents &&& POLLOUT ≠ 0 then r.handleWrite soError selfConnect else
        .ok (r, none)).map (fun p => (p.1.connector, p.2)) =
      if revents &&& POLLOUT ≠ 0 then r.connector.handleWrite soError selfConnect else
        .ok (r.connector, none) := by
    intro r
    split
    · exact handleWrite_connector r soError selfConnect
    · rfl
  unfold handleEvent Connector.handleEvent
  by_cases herror : revents &&& (POLLERR ||| POLLNVAL) ≠ 0
  · rw [if_pos herror, if_pos herror, ← handleError_connector]
    cases r.handleError with
    | error e => rfl
    | ok r' => exact hwrite r'
  · rw [if_neg herror, if_neg herror]
    exact hwrite r

/-! ### What a step puts on record -/

/-- A step from `c` to `c'` that neither begins nor ends an attempt. -/
structure Keeps (c c' : Connector) : Prop where
  state : c'.state = .kConnecting ↔ c.state = .kConnecting
  channel : c.state = .kConnecting → c'.channel = c.channel

/-- A new socket is in progress with a channel of its own, or it was closed at once. -/
inductive Begun (c : Connector) (sockfd : ℕ) : SocketEvent → Prop
  | connecting : c.state = .kConnecting → c.channel = some sockfd → Begun c sockfd .registered
  | refused : c.state ≠ .kConnecting → Begun c sockfd .closed

/-- What a step from `c` to `c'` puts on record. -/
inductive Records (c c' : Connector) : List ConnectorEvent → Prop
  | nothing : Keeps c c' → c'.connects = c.connects → Records c c' []
  | stopped : Keeps c c' → c'.connects = false → Records c c' [.stop]
  /-- A call of the user, or else a retry timer, calls `::connect`. -/
  | attempted (call : List ConnectorEvent) (sockfd : ℕ) (event : SocketEvent) :
      call = [] ∧ c.connects = true ∨ call = [.start] ∨ call = [.restart] →
      c.state ≠ .kConnecting → c'.connects = true → Begun c' sockfd event →
      Records c c' (call ++ [ConnectorEvent.created sockfd, .socket sockfd event])
  | closed (sockfd : ℕ) : c.state = .kConnecting → c.channel = some sockfd →
      c'.state ≠ .kConnecting → c'.connects = c.connects →
      Records c c' [.socket sockfd .removed, .socket sockfd .closed]
  | handedOver (sockfd : ℕ) : c.state = .kConnecting → c.channel = some sockfd →
      c'.state ≠ .kConnecting → c'.connects = c.connects → c.connects = true →
      Records c c' [.socket sockfd .removed, .socket sockfd .handedOver]

variable {r r' : RecordedConnector} {c c' : Connector} {errno : Errno} {sockfd : ℕ}
  {news : List ConnectorEvent}

/-- A step that changes neither `state_` nor `channel_`. -/
theorem Keeps.of_eq (hstate : c'.state = c.state) (hchannel : c'.channel = c.channel) :
    Keeps c c' := ⟨by rw [hstate], fun _ => hchannel⟩

/-- The loop goes on to the next handler. -/
theorem Records.handlerDone (h : Records c c' news) : Records c c'.handlerDone news := by
  cases h with
  | nothing hkeeps hconnects => exact .nothing ⟨hkeeps.state, hkeeps.channel⟩ hconnects
  | stopped hkeeps hconnects => exact .stopped ⟨hkeeps.state, hkeeps.channel⟩ hconnects
  | attempted call sockfd event hcall hidle hconnects hbegun =>
    refine .attempted call sockfd event hcall hidle hconnects ?_
    cases hbegun with
    | connecting hstate hchannel => exact .connecting hstate hchannel
    | refused hstate => exact .refused hstate
  | closed sockfd hstate hchannel hdone hconnects =>
    exact .closed sockfd hstate hchannel hdone hconnects
  | handedOver sockfd hstate hchannel hdone hconnects hcalled =>
    exact .handedOver sockfd hstate hchannel hdone hconnects hcalled

/-- A failed attempt leaves `connect_` as it is. -/
@[simp] theorem retry_connects (c : Connector) (sockfd : ℕ) :
    (c.retry sockfd).connects = c.connects := by
  unfold Connector.retry
  split <;> rfl

/-- A call of `::connect` leaves `connect_` as it is. -/
theorem attempted_connects (c : Connector) (errno : Errno) (sockfd : ℕ) :
    (c.attempted errno sockfd).connects = c.connects := by
  unfold Connector.attempted
  cases errno.branch with
  | connecting => rfl
  | retry => exact retry_connects _ sockfd
  | close => rfl

/-- How an attempt begins. -/
theorem Begun.of_attempted (errno : Errno) (sockfd : ℕ) (hstate : c.state ≠ .kConnecting) :
    Begun (c.attempted errno sockfd) sockfd (firstEvent errno) := by
  unfold Connector.attempted firstEvent
  cases errno.branch with
  | connecting => exact .connecting rfl rfl
  | retry => exact .refused (by simp)
  | close => exact .refused hstate

/-- What `startInLoop` puts on record if `connect_` is set. -/
theorem startInLoop_records (h : r.startInLoop errno sockfd = .ok r')
    (hconnects : r.connector.connects = true) :
    r'.connector.connects = true ∧ ∃ event, Begun r'.connector sockfd event ∧
      r'.events = r.events ++ [ConnectorEvent.created sockfd, .socket sockfd event] := by
  rw [startInLoop_eq] at h
  cases hstart : r.connector.startInLoop errno sockfd with
  | error e =>
    rw [hstart] at h
    cases h
  | ok c =>
    rw [hstart] at h
    have hr : r' = ⟨c, r.events ++ attemptEvents r.connector errno sockfd⟩ :=
      (Except.ok.inj h).symm
    obtain ⟨hstate, _, hc⟩ := Connector.startInLoop_eq_ok.mp hstart
    rw [attemptEvents, if_pos hconnects] at hr
    rw [if_pos hconnects] at hc
    rw [hr, hc]
    exact ⟨(attempted_connects _ errno sockfd).trans hconnects, _,
      .of_attempted errno sockfd (by simp [hstate]), rfl⟩

/-- After `stop`, `startInLoop` does nothing. -/
theorem startInLoop_of_not_connects (errno : Errno) (sockfd : ℕ)
    (hstate : r.connector.state = .kDisconnected) (hconnects : r.connector.connects = false) :
    r.startInLoop errno sockfd = .ok r ∧
      r.connector.startInLoop errno sockfd = .ok r.connector := by
  have hstop : ¬ r.connector.connects = true := by simp [hconnects]
  have hplain : r.connector.startInLoop errno sockfd = .ok r.connector :=
    Connector.startInLoop_eq_ok.mpr ⟨hstate, fun htrue => absurd htrue hstop, (if_neg hstop).symm⟩
  refine ⟨?_, hplain⟩
  rw [startInLoop_eq, hplain, attemptEvents, if_neg hstop]
  exact congrArg (fun events => Except.ok (RecordedConnector.mk _ events)) (List.append_nil _)

/-- `removeAndResetChannel` in the middle of an attempt. -/
theorem removeAndResetChannel_of_registered (hchannel : r.connector.channel = some sockfd)
    (hregistered : r.connector.Registered sockfd .connector) :
    r.removeAndResetChannel = .ok
      (⟨r.connector.detached sockfd, r.events ++ [ConnectorEvent.socket sockfd .removed]⟩,
        sockfd) := by
  rw [removeAndResetChannel_eq,
    Connector.removeAndResetChannel_of_registered hchannel hregistered]
  rfl

/-- A failed attempt in progress closes its socket. -/
theorem Records.retry (hstate : c.state = .kConnecting) (hchannel : c.channel = some sockfd) :
    Records c ((c.detached sockfd).retry sockfd)
      [.socket sockfd .removed, .socket sockfd .closed] :=
  .closed sockfd hstate hchannel (by simp) (retry_connects _ sockfd)

/-- What the write handler puts on record in the middle of an attempt. -/
theorem handleWrite_records (soError : ℤ) (selfConnect : Bool)
    (hstate : r.connector.state = .kConnecting) (hchannel : r.connector.channel = some sockfd)
    (hregistered : r.connector.Registered sockfd .connector) :
    ∃ c news handed, r.handleWrite soError selfConnect = .ok (⟨c, r.events ++ news⟩, handed) ∧
      Records r.connector c news := by
  have happend : ∀ event,
      r.events ++ [ConnectorEvent.socket sockfd .removed] ++ [ConnectorEvent.socket sockfd event] =
      r.events ++ [ConnectorEvent.socket sockfd .removed, .socket sockfd event] :=
    fun _ => List.append_assoc _ _ _
  unfold handleWrite
  rw [if_pos hstate, removeAndResetChannel_of_registered hchannel hregistered]
  change ∃ c news handed, (if soError ≠ 0 then .ok _ else if selfConnect = true then .ok _ else
    if r.connector.connects = true then .ok _ else .ok _) = Except.ok (_, _) ∧ _
  rw [retry_eq, happend]
  split
  · exact ⟨_, _, _, rfl, .retry hstate hchannel⟩
  split
  · exact ⟨_, _, _, rfl, .retry hstate hchannel⟩
  split <;> rename_i hconnects
  · refine ⟨_, _, _, congrArg (fun events => Except.ok (RecordedConnector.mk _ events, _))
      (happend .handedOver), ?_⟩
    exact .handedOver sockfd hstate hchannel (fun h => by cases h) rfl hconnects
  · refine ⟨_, _, _, congrArg (fun events => Except.ok (RecordedConnector.mk _ events, _))
      (happend .closed), ?_⟩
    exact .closed sockfd hstate hchannel (fun h => by cases h) rfl

/-- What the handler of the channel puts on record in the middle of an attempt: whatever the
events of the socket are, the attempt ends once or goes on. -/
theorem handleEvent_records (revents : BitVec 32) (soError : ℤ) (selfConnect : Bool)
    (hstate : r.connector.state = .kConnecting) (hchannel : r.connector.channel = some sockfd)
    (hregistered : r.connector.Registered sockfd .connector) :
    ∃ c news handed,
      r.handleEvent revents soError selfConnect = .ok (⟨c, r.events ++ news⟩, handed) ∧
      Records r.connector c news := by
  unfold handleEvent
  by_cases herror : revents &&& (POLLERR ||| POLLNVAL) ≠ 0
  · have hfailed : r.handleError = .ok ⟨(r.connector.detached sockfd).retry sockfd,
        r.events ++ [ConnectorEvent.socket sockfd .removed, .socket sockfd .closed]⟩ := by
      unfold handleError
      rw [require_of_true hstate, removeAndResetChannel_of_registered hchannel hregistered]
      change Except.ok (RecordedConnector.retry _ sockfd) = _
      rw [retry_eq, List.append_assoc]
      rfl
    rw [if_pos herror, hfailed]
    refine ⟨_, _, none, ?_, .retry hstate hchannel⟩
    change (if revents &&& POLLOUT ≠ 0 then handleWrite _ _ _ else _) = _
    split
    · -- The write handler finds `kDisconnected` and does nothing.
      unfold handleWrite
      rw [if_neg (by simp), require_of_true Connector.retry_state]
      rfl
    · rfl
  · rw [if_neg herror]
    change ∃ c news handed, (if revents &&& POLLOUT ≠ 0 then _ else _) = _ ∧ _
    split
    · exact handleWrite_records soError selfConnect hstate hchannel hregistered
    · refine ⟨r.connector, [], none, ?_, .nothing (.of_eq rfl rfl) rfl⟩
      rw [List.append_nil]
      rfl

end RecordedConnector

end Dalin.Net
