import Dalin.Base.Failure
import Dalin.Net.Channel

/-!
# The connector

A `Connector` makes outgoing connections: it calls `::connect`, waits in the
Poller for the socket to become writable, and tries again after a delay when an
attempt fails. This file embeds its member functions together with the part of
the loop they act on: the channels registered in the Poller, the retry timers,
the queue of pending functors, and the phase of the current iteration. The
results of the system calls are arguments.
-/

set_option autoImplicit false

namespace Dalin.Net

/-- The results of `::connect` that `Connector::connect` tells apart. -/
inductive Errno
  | zero
  | EINPROGRESS
  | EINTR
  | EISCONN
  | EAGAIN
  | EADDRINUSE
  | EADDRNOTAVAIL
  | ECONNREFUSED
  | ENETUNREACH
  | EACCES
  | EPERM
  | EAFNOSUPPORT
  | EALREADY
  | EBADF
  | EFAULT
  | ENOTSOCK
  | unexpected (errno : ℕ)
  deriving DecidableEq

/-- The branches of the `switch` in `Connector::connect`. -/
inductive ConnectBranch
  | connecting
  | retry
  | close
  deriving DecidableEq

/-- The branch that `Connector::connect` takes. -/
def Errno.branch : Errno → ConnectBranch
  | zero | EINPROGRESS | EINTR | EISCONN => .connecting
  | EAGAIN | EADDRINUSE | EADDRNOTAVAIL | ECONNREFUSED | ENETUNREACH => .retry
  | EACCES | EPERM | EAFNOSUPPORT | EALREADY | EBADF | EFAULT | ENOTSOCK => .close
  | unexpected _ => .close

/-- `Connector::States`. -/
inductive ConnectorState
  | kDisconnected
  | kConnecting
  | kConnected
  deriving DecidableEq

/-- The owner of a channel: the connector, or the `n`-th connection made of its sockets. -/
inductive ChannelOwner
  | connector
  | connection (n : ℕ)
  deriving DecidableEq

/-- An entry of `Poller::channels_`. -/
structure Registration where
  fd : ℕ
  owner : ChannelOwner
  /-- The channel wants some events, so that `poll` may report it. -/
  interested : Bool
  deriving DecidableEq

/-- A functor in the queue of the loop. -/
inductive QueuedFunctor
  | resetChannel
  | connectDestroyed (n : ℕ)
  deriving DecidableEq

/-- The phases of an iteration of `EventLoop::loop`. The channel of the timerfd is the first
one of the Poller, so the expired timers run before all other handlers. -/
inductive LoopPhase
  | polling
  /-- The expired retry timers still to run, and the active channels. -/
  | timers (expired : List ℕ) (active : List ChannelOwner)
  /-- The active channels still to be handled, the current one included. -/
  | channels (active : List ChannelOwner)
  /-- The functors of the batch still to run. -/
  | functors (batch : List QueuedFunctor)
  deriving DecidableEq

/-- The retry timers that the current iteration will still run. -/
def LoopPhase.expired : LoopPhase → List ℕ
  | timers expired _ => expired
  | _ => []

/-- A timer still to run is met before the channels. -/
theorem LoopPhase.exists_of_expired {phase : LoopPhase} (h : phase.expired ≠ []) :
    ∃ timer rest active, phase = .timers (timer :: rest) active := by
  cases phase with
  | timers expired active =>
    obtain ⟨timer, rest, rfl⟩ := List.exists_cons_of_ne_nil h
    exact ⟨timer, rest, active, rfl⟩
  | _ => exact absurd rfl h

/-- The channels that the current iteration will still handle. -/
def LoopPhase.active : LoopPhase → List ChannelOwner
  | timers _ active => active
  | channels active => active
  | _ => []

/-- The functors that the current iteration will still run. -/
def LoopPhase.batch : LoopPhase → List QueuedFunctor
  | functors batch => batch
  | _ => []

/-- A `Connector` and its loop. -/
structure Connector where
  /-- `connect_`. -/
  connects : Bool
  /-- `state_`. -/
  state : ConnectorState
  /-- The descriptor of `channel_`, if there is a channel. -/
  channel : Option ℕ
  /-- `retryDaleyMs_`. -/
  retryDelayMs : ℕ
  /-- `timerId_`, unset before the first retry. -/
  timerId : Option ℕ
  /-- `Poller::channels_`. -/
  channels : List Registration
  /-- The open sockets made by the connector. -/
  sockets : List ℕ
  /-- The retry timers in the timer queue. -/
  timers : List ℕ
  /-- The number of timers created. -/
  numTimers : ℕ
  /-- `EventLoop::pendingFunctors_`. -/
  pendingFunctors : List QueuedFunctor
  phase : LoopPhase
  /-- The number of calls of `::connect`. -/
  attempts : ℕ
  deriving DecidableEq

namespace Connector

/-- `Connector::kMaxRetryDelayMs`. -/
def kMaxRetryDelayMs : ℕ := 30 * 1000

/-- `Connector::kInitRetryDelayMs`. -/
def kInitRetryDelayMs : ℕ := 500

/-- `Connector::Connector`, in a loop that has not begun. -/
def new : Connector :=
  ⟨false, .kDisconnected, none, kInitRetryDelayMs, none, [], [], [], 0, [], .polling, 0⟩

/-! ### The loop -/

/-- A channel of this owner is registered for this descriptor. -/
def Registered (c : Connector) (fd : ℕ) (owner : ChannelOwner) : Prop :=
  ∃ r ∈ c.channels, r.fd = fd ∧ r.owner = owner

/-- No channel is registered for this descriptor. -/
def Unknown (c : Connector) (fd : ℕ) : Prop := ∀ r ∈ c.channels, r.fd ≠ fd

instance (c : Connector) (fd : ℕ) (owner : ChannelOwner) : Decidable (c.Registered fd owner) :=
  inferInstanceAs (Decidable (∃ r ∈ c.channels, _))

instance (c : Connector) (fd : ℕ) : Decidable (c.Unknown fd) :=
  inferInstanceAs (Decidable (∀ r ∈ c.channels, _))

/-- `Poller::updateChannel` for a channel that is not registered yet. -/
def register (c : Connector) (fd : ℕ) (owner : ChannelOwner) : Except Failure Connector := do
  require (c.Unknown fd) "channels_.find(channel->fd()) == channels_.end()"
  return { c with channels := ⟨fd, owner, true⟩ :: c.channels }

/-- `Channel::disableAll` on a registered channel. -/
def disableAll (c : Connector) (fd : ℕ) (owner : ChannelOwner) : Except Failure Connector := do
  require (c.Registered fd owner) "channels_[channel->fd()] == channel"
  return { c with channels := c.channels.map fun r =>
    if r.fd = fd then { r with interested := false } else r }

/-- `Poller::removeChannel`. -/
def removeChannel (c : Connector) (fd : ℕ) (owner : ChannelOwner) : Except Failure Connector := do
  require (c.Registered fd owner) "channels_[channel->fd()] == channel"
  return { c with channels := c.channels.filter fun r => r.fd ≠ fd }

/-- `EventLoop::queueInLoop`. -/
def queueInLoop (c : Connector) (f : QueuedFunctor) : Connector :=
  { c with pendingFunctors := c.pendingFunctors ++ [f] }

/-- `SocketsOps::close`. -/
def close (c : Connector) (fd : ℕ) : Connector := { c with sockets := c.sockets.erase fd }

/-- `EventLoop::runAfter`, with the handle of the new timer in `timerId_`. -/
def runAfter (c : Connector) : Connector :=
  { c with
    timerId := some c.numTimers
    timers := c.timers ++ [c.numTimers]
    numTimers := c.numTimers + 1 }

/-- `loop_->cancel(timerId_)`: a timer that has left the queue is not found. -/
def cancel (c : Connector) : Connector :=
  match c.timerId with
  | some timer => { c with timers := c.timers.erase timer }
  | none => c

/-! ### The member functions -/

/-- `Connector::setState`. -/
def setState (c : Connector) (s : ConnectorState) : Connector := { c with state := s }

/-- `retryDaleyMs_ = std::min(retryDaleyMs_ * 2, kMaxRetryDelayMs)`. -/
def doubleDelay (c : Connector) : Connector :=
  { c with retryDelayMs := min (c.retryDelayMs * 2) kMaxRetryDelayMs }

/-- `Connector::retry`. -/
def retry (c : Connector) (sockfd : ℕ) : Connector :=
  if c.connects then ((c.close sockfd).setState .kDisconnected).runAfter.doubleDelay
  else (c.close sockfd).setState .kDisconnected

/-- `Connector::connecting`. -/
def connecting (c : Connector) (sockfd : ℕ) : Except Failure Connector := do
  let c := c.setState .kConnecting
  require (c.channel = none) "!channel_"
  { c with channel := some sockfd }.register sockfd .connector

/-- `Connector::connect`, where the kernel makes `sockfd` and `::connect` sets `errno`. -/
def connect (c : Connector) (errno : Errno) (sockfd : ℕ) : Except Failure Connector :=
  let c := { c with sockets := sockfd :: c.sockets, attempts := c.attempts + 1 }
  match errno.branch with
  | .connecting => c.connecting sockfd
  | .retry => .ok (c.retry sockfd)
  | .close => .ok (c.close sockfd)

/-- `Connector::startInLoop`. -/
def startInLoop (c : Connector) (errno : Errno) (sockfd : ℕ) : Except Failure Connector := do
  require (c.state = .kDisconnected) "state_ == kDisconnected"
  if c.connects then c.connect errno sockfd else return c

/-- `Connector::start`, called in the loop thread. -/
def start (c : Connector) (errno : Errno) (sockfd : ℕ) : Except Failure Connector :=
  { c with connects := true }.startInLoop errno sockfd

/-- `Connector::restart`. -/
def restart (c : Connector) (errno : Errno) (sockfd : ℕ) : Except Failure Connector :=
  { c.setState .kDisconnected with
    retryDelayMs := kInitRetryDelayMs
    connects := true }.startInLoop errno sockfd

/-- `Connector::stop`. -/
def stop (c : Connector) : Connector := { c with connects := false }.cancel

/-- `Connector::removeAndResetChannel`. -/
def removeAndResetChannel (c : Connector) : Except Failure (Connector × ℕ) :=
  match c.channel with
  | none => .error (.nullPointer "channel_")
  | some sockfd => do
    let c ← c.disableAll sockfd .connector
    let c ← c.removeChannel sockfd .connector
    return (c.queueInLoop .resetChannel, sockfd)

/-- `Connector::resetChannel`. -/
def resetChannel (c : Connector) : Connector := { c with channel := none }

/-- `Connector::handleWrite`, where `soError` is the pending error of the socket. The socket
that goes to `newConnectionCallback_`, the last call, is part of the result. -/
def handleWrite (c : Connector) (soError : ℤ) (selfConnect : Bool) :
    Except Failure (Connector × Option ℕ) :=
  if c.state = .kConnecting then do
    let (c, sockfd) ← c.removeAndResetChannel
    if soError ≠ 0 then return (c.retry sockfd, none)
    else if selfConnect then return (c.retry sockfd, none)
    else
      let c := c.setState .kConnected
      if c.connects then return (c, some sockfd)
      else return (c.close sockfd, none)
  else do
    require (c.state = .kDisconnected) "state_ == kDisconnected"
    return (c, none)

/-- `Connector::handleError`. -/
def handleError (c : Connector) : Except Failure Connector := do
  require (c.state = .kConnecting) "state_ == kConnecting"
  let (c, sockfd) ← c.removeAndResetChannel
  return c.retry sockfd

/-- `Channel::handleEvent` for the channel of the connector, which has an error and a write
callback. -/
def handleEvent (c : Connector) (revents : BitVec 32) (soError : ℤ) (selfConnect : Bool) :
    Except Failure (Connector × Option ℕ) := do
  let c ← if revents &&& (POLLERR ||| POLLNVAL) ≠ 0 then c.handleError else .ok c
  if revents &&& POLLOUT ≠ 0 then c.handleWrite soError selfConnect else return (c, none)

/-! ### The iteration -/

/-- `poll` may report the channel of an owner that wants events. -/
def Reportable (c : Connector) (owner : ChannelOwner) : Prop :=
  ∃ r ∈ c.channels, r.owner = owner ∧ r.interested = true

instance (c : Connector) (owner : ChannelOwner) : Decidable (c.Reportable owner) :=
  inferInstanceAs (Decidable (∃ r ∈ c.channels, _))

/-- What `poll` may find: some timers of the queue, whatever the clocks say, and some of the
channels that want events, each once. -/
def MayFind (c : Connector) (expired : List ℕ) (active : List ChannelOwner) : Prop :=
  c.phase = .polling ∧ (expired.Nodup ∧ ∀ timer ∈ expired, timer ∈ c.timers) ∧
    active.Nodup ∧ ∀ owner ∈ active, c.Reportable owner

instance (c : Connector) (expired : List ℕ) (active : List ChannelOwner) :
    Decidable (c.MayFind expired active) := by
  unfold MayFind
  infer_instance

/-- `poll` returns, and `TimerQueue::getExpired` takes the expired timers out of the queue. -/
def poll (c : Connector) (expired : List ℕ) (active : List ChannelOwner) : Connector :=
  { c with
    timers := c.timers.filter fun timer => timer ∉ expired
    phase := .timers expired active }

/-- The next expired retry timer runs. -/
def runTimer (c : Connector) (errno : Errno) (sockfd : ℕ) : Except Failure Connector :=
  match c.phase with
  | .timers (_ :: rest) active =>
    { c with phase := .timers rest active }.startInLoop errno sockfd
  | _ => .ok c

/-- The handler of the timerfd is done. -/
def timersDone (c : Connector) : Connector := { c with phase := .channels c.phase.active }

/-- The handler of the current channel is done. -/
def handlerDone (c : Connector) : Connector :=
  { c with phase := .channels c.phase.active.tail }

/-- The handlers are done, and `doPendingFunctors` swaps the queue out. -/
def swap (c : Connector) : Connector :=
  { c with phase := .functors c.pendingFunctors, pendingFunctors := [] }

/-- The next functor of the batch is done. -/
def functorDone (c : Connector) : Connector :=
  { c with phase := .functors c.phase.batch.tail }

/-- The iteration is over. -/
def iterationDone (c : Connector) : Connector := { c with phase := .polling }

/-! ### What the functions do -/

/-- The retry timers that will still run: those of the queue and those that have expired. -/
def due (c : Connector) : List ℕ := c.phase.expired ++ c.timers

/-- The functors that will still run. -/
def queued (c : Connector) : List QueuedFunctor := c.phase.batch ++ c.pendingFunctors

/-- The connector after a call of `::connect`. -/
def attempted (c : Connector) (errno : Errno) (sockfd : ℕ) : Connector :=
  match errno.branch with
  | .connecting => { c with
      state := .kConnecting
      channel := some sockfd
      channels := ⟨sockfd, .connector, true⟩ :: c.channels
      sockets := sockfd :: c.sockets
      attempts := c.attempts + 1 }
  | .retry => { c with sockets := sockfd :: c.sockets, attempts := c.attempts + 1 }.retry sockfd
  | .close => { c with attempts := c.attempts + 1 }

/-- The connector after `removeAndResetChannel`. -/
def detached (c : Connector) (sockfd : ℕ) : Connector :=
  { c with
    channels := c.channels.filter fun r => r.fd ≠ sockfd
    pendingFunctors := c.pendingFunctors ++ [.resetChannel] }

variable {c c' : Connector} {errno : Errno} {sockfd : ℕ}

/-- A channel is registered if its descriptor is not known to the Poller. -/
theorem register_eq_ok {owner : ChannelOwner} :
    c.register sockfd owner = .ok c' ↔ c.Unknown sockfd ∧
      c' = { c with channels := ⟨sockfd, owner, true⟩ :: c.channels } := by
  unfold register
  rw [require_bind_eq_ok]
  exact and_congr_right fun _ => ⟨fun h => (Except.ok.inj h).symm, fun h => h ▸ rfl⟩

/-- A socket in progress gets a channel if the last channel is gone. -/
theorem connecting_eq_ok :
    c.connecting sockfd = .ok c' ↔ c.channel = none ∧ c.Unknown sockfd ∧
      c' = { c with
        state := .kConnecting
        channel := some sockfd
        channels := ⟨sockfd, .connector, true⟩ :: c.channels } := by
  unfold connecting
  rw [require_bind_eq_ok, register_eq_ok]
  rfl

/-- What `connect` needs and does. -/
theorem connect_eq_ok :
    c.connect errno sockfd = .ok c' ↔
      (errno.branch = .connecting → c.channel = none ∧ c.Unknown sockfd) ∧
        c' = c.attempted errno sockfd := by
  unfold connect attempted
  cases errno.branch with
  | connecting =>
    simp only [forall_const]
    rw [connecting_eq_ok, and_assoc]
    rfl
  | retry => simp [eq_comm]
  | close => simp [close, eq_comm]

/-- What `startInLoop` needs and does. -/
theorem startInLoop_eq_ok :
    c.startInLoop errno sockfd = .ok c' ↔ c.state = .kDisconnected ∧
      (c.connects = true → errno.branch = .connecting → c.channel = none ∧ c.Unknown sockfd) ∧
      c' = if c.connects then c.attempted errno sockfd else c := by
  unfold startInLoop
  rw [require_bind_eq_ok]
  refine and_congr_right fun _ => ?_
  cases hconnects : c.connects with
  | true =>
    simp only [if_true, forall_const]
    exact connect_eq_ok
  | false => simp [pure, Except.pure, eq_comm]

/-- The channels after `disableAll` on the one of this descriptor. -/
def disabled (channels : List Registration) (fd : ℕ) : List Registration :=
  channels.map fun r => if r.fd = fd then { r with interested := false } else r

/-- What `disableAll` needs and does. -/
theorem disableAll_eq_ok {owner : ChannelOwner} :
    c.disableAll sockfd owner = .ok c' ↔ c.Registered sockfd owner ∧
      c' = { c with channels := disabled c.channels sockfd } := by
  unfold disableAll
  rw [require_bind_eq_ok]
  exact and_congr_right fun _ => ⟨fun h => (Except.ok.inj h).symm, fun h => h ▸ rfl⟩

/-- What `removeChannel` needs and does. -/
theorem removeChannel_eq_ok {owner : ChannelOwner} :
    c.removeChannel sockfd owner = .ok c' ↔ c.Registered sockfd owner ∧
      c' = { c with channels := c.channels.filter fun r => r.fd ≠ sockfd } := by
  unfold removeChannel
  rw [require_bind_eq_ok]
  exact and_congr_right fun _ => ⟨fun h => (Except.ok.inj h).symm, fun h => h ▸ rfl⟩

/-- Disabling a channel changes the interest of its entry alone. -/
theorem mem_disabled {channels : List Registration} {fd : ℕ} {r' : Registration}
    (h : r' ∈ disabled channels fd) : ∃ r ∈ channels, r'.fd = r.fd ∧ r'.owner = r.owner ∧
      (r'.interested = true → r.interested = true ∧ r.fd ≠ fd) := by
  obtain ⟨r, hr, rfl⟩ := List.mem_map.mp h
  refine ⟨r, hr, ?_⟩
  split
  · exact ⟨rfl, rfl, fun hi => by cases hi⟩
  · rename_i hfd
    exact ⟨rfl, rfl, fun hi => ⟨hi, hfd⟩⟩

/-- Disabling a channel leaves all channels registered. -/
theorem Registered.disabled {fd : ℕ} {owner : ChannelOwner} (h : c.Registered fd owner)
    (sockfd : ℕ) : ∃ r ∈ disabled c.channels sockfd, r.fd = fd ∧ r.owner = owner := by
  obtain ⟨r, hr, hfd, howner⟩ := h
  refine ⟨_, List.mem_map_of_mem hr, ?_⟩
  split <;> exact ⟨hfd, howner⟩

/-- Once the events of a channel are disabled and it is removed, no trace of it is left. -/
theorem filter_disabled (channels : List Registration) (fd : ℕ) :
    (disabled channels fd).filter (fun r => r.fd ≠ fd) = channels.filter fun r => r.fd ≠ fd := by
  unfold disabled
  induction channels with
  | nil => rfl
  | cons r rest ih =>
    by_cases hr : r.fd = fd
    · simp only [List.map_cons, hr, if_true]
      rw [List.filter_cons_of_neg (by simp), List.filter_cons_of_neg (by simp [hr])]
      exact ih
    · simp only [List.map_cons, hr, if_false]
      rw [List.filter_cons_of_pos (by simpa using hr), List.filter_cons_of_pos (by simpa using hr)]
      exact congrArg _ ih

/-- A registered channel can be disabled and removed. -/
theorem disableAll_removeChannel {owner : ChannelOwner} (h : c.Registered sockfd owner) :
    (c.disableAll sockfd owner >>= fun c => c.removeChannel sockfd owner) =
      .ok { c with channels := c.channels.filter fun r => r.fd ≠ sockfd } := by
  refine bind_eq_ok.mpr ⟨_, disableAll_eq_ok.mpr ⟨h, rfl⟩, ?_⟩
  exact removeChannel_eq_ok.mpr ⟨h.disabled sockfd, by simp only [filter_disabled]⟩

/-- What `removeAndResetChannel` does. -/
theorem removeAndResetChannel_of_registered (hchannel : c.channel = some sockfd)
    (hregistered : c.Registered sockfd .connector) :
    c.removeAndResetChannel = .ok (c.detached sockfd, sockfd) := by
  obtain ⟨c₁, hdisabled, hremoved⟩ := bind_eq_ok.mp (disableAll_removeChannel hregistered)
  unfold removeAndResetChannel
  rw [hchannel]
  exact bind_eq_ok.mpr ⟨c₁, hdisabled, bind_eq_ok.mpr ⟨_, hremoved, rfl⟩⟩

/-- The events of the socket say that the attempt has succeeded. -/
def attemptSucceeds (revents : BitVec 32) (soError : ℤ) (selfConnect : Bool) : Bool :=
  (revents &&& (POLLERR ||| POLLNVAL) == 0) && (revents &&& POLLOUT != 0) && soError == 0 &&
    !selfConnect

/-- How `handleEvent` can end in the middle of an attempt: nothing happens or the attempt fails,
or else the socket is handed over, or it is closed because `stop` was called. -/
inductive Handled (c : Connector) (sockfd : ℕ) (success : Bool) : Connector × Option ℕ → Prop
  | untouched : success = false → Handled c sockfd success (c, none)
  | failed : success = false →
      Handled c sockfd success ((c.detached sockfd).retry sockfd, none)
  | connected : success = true → c.connects = true →
      Handled c sockfd success ((c.detached sockfd).setState .kConnected, some sockfd)
  | stopped : success = true → c.connects = false →
      Handled c sockfd success (((c.detached sockfd).setState .kConnected).close sockfd, none)

/-- A failed attempt leaves the connector disconnected. -/
@[simp] theorem retry_state : (c.retry sockfd).state = .kDisconnected := by
  unfold retry
  split <;> rfl

/-- `handleWrite` in the middle of an attempt. -/
theorem handleWrite_of_registered (soError : ℤ) (selfConnect : Bool)
    (hstate : c.state = .kConnecting) (hchannel : c.channel = some sockfd)
    (hregistered : c.Registered sockfd .connector) :
    ∃ result, c.handleWrite soError selfConnect = .ok result ∧
      Handled c sockfd (soError == 0 && !selfConnect) result := by
  unfold handleWrite
  rw [if_pos hstate, removeAndResetChannel_of_registered hchannel hregistered]
  change ∃ result, (if soError ≠ 0 then .ok _ else if selfConnect = true then .ok _ else
    if c.connects = true then .ok _ else .ok _) = Except.ok result ∧ _
  split
  · rename_i herror
    exact ⟨_, rfl, .failed (by simp [herror])⟩
  rename_i herror
  have hzero : soError = 0 := Decidable.not_not.mp herror
  split
  · rename_i hself
    exact ⟨_, rfl, .failed (by simp [hself])⟩
  rename_i hself
  have hsuccess : (soError == 0 && !selfConnect) = true := by simp [hzero, hself]
  split <;> rename_i hconnects
  · exact ⟨_, rfl, .connected hsuccess hconnects⟩
  · exact ⟨_, rfl, .stopped hsuccess (Bool.eq_false_iff.mpr hconnects)⟩

/-- `handleWrite` after a failed attempt. -/
theorem handleWrite_of_disconnected (soError : ℤ) (selfConnect : Bool)
    (hstate : c.state = .kDisconnected) : c.handleWrite soError selfConnect = .ok (c, none) := by
  unfold handleWrite
  rw [if_neg (by simp [hstate]), require_of_true hstate]
  rfl

/-- `handleEvent` in the middle of an attempt. -/
theorem handleEvent_of_registered (revents : BitVec 32) (soError : ℤ) (selfConnect : Bool)
    (hstate : c.state = .kConnecting) (hchannel : c.channel = some sockfd)
    (hregistered : c.Registered sockfd .connector) :
    ∃ result, c.handleEvent revents soError selfConnect = .ok result ∧
      Handled c sockfd (attemptSucceeds revents soError selfConnect) result := by
  unfold handleEvent attemptSucceeds
  by_cases herror : revents &&& (POLLERR ||| POLLNVAL) ≠ 0
  · have hfailed : c.handleError = .ok ((c.detached sockfd).retry sockfd) := by
      unfold handleError
      rw [require_of_true hstate, removeAndResetChannel_of_registered hchannel hregistered]
      rfl
    rw [if_pos herror, hfailed]
    have hsome : (revents &&& (POLLERR ||| POLLNVAL) == 0) = false := by simpa using herror
    rw [hsome]
    refine ⟨((c.detached sockfd).retry sockfd, none), ?_, .failed rfl⟩
    change (if revents &&& POLLOUT ≠ 0 then _ else _) = _
    split
    · exact handleWrite_of_disconnected soError selfConnect retry_state
    · rfl
  · rw [if_neg herror]
    change ∃ result, (if revents &&& POLLOUT ≠ 0 then _ else _) = _ ∧ _
    have hnone : (revents &&& (POLLERR ||| POLLNVAL) == 0) = true := by simpa using herror
    rw [hnone, Bool.true_and]
    split <;> rename_i hout
    · have hwrite : (revents &&& POLLOUT != 0) = true := by simpa using hout
      rw [hwrite, Bool.true_and]
      exact handleWrite_of_registered soError selfConnect hstate hchannel hregistered
    · have hwrite : (revents &&& POLLOUT != 0) = false := by simpa using hout
      rw [hwrite]
      exact ⟨_, rfl, .untouched rfl⟩

end Connector

end Dalin.Net
