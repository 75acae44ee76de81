import Dalin.Net.ClientRun

/-!
# The state of the connector and reuse of a client

`handleWrite` sets `state_` to `kConnected` before it looks at `connect_`, and
only `restart` resets it after a loss. So `state_` tells whether there is a
connection exactly if every socket that gets connected is wanted and every loss
is followed by a restart. In runs in which it does, `connect` may be called
whenever no attempt is in progress and no connection is up.
-/

set_option autoImplicit false

namespace Dalin.Net

open Transition

namespace TcpClient

variable {t u : TcpClient} {errno : Errno} {sockfd : ℕ}

/-- `state_` tells the truth: it is `kConnecting` exactly while a channel of the connector is
registered, and `kConnected` only while the last connection is up. -/
def Truthful (t : TcpClient) : Prop :=
  (t.connector.state = .kConnecting ↔ ∃ fd, t.connector.Registered fd .connector) ∧
    (t.connector.state = .kConnected → ∃ n, t.connection = some n ∧ n + 1 = t.nextConnId)

/-- A step that would leave `state_` at `kConnected` without a connection is not taken: a socket
that gets connected finds `connect_` set, and a loss finds `retry_` and `connect_` set. -/
def ResetsState (t : TcpClient) : ClientStep → Prop
  | .handleConnector revents soError selfConnect =>
    Connector.attemptSucceeds revents soError selfConnect = true → t.connector.connects = true
  | .handleClose _ _ _ => t.retry = true ∧ t.connects = true
  | _ => True

/-- The first part of the truth holds in every run. -/
theorem Settled.connecting_iff (h : t.Settled) :
    t.connector.state = .kConnecting ↔ ∃ fd, t.connector.Registered fd .connector := by
  constructor
  · intro hstate
    obtain ⟨fd, _, hregistered⟩ := h.coherent.connecting hstate
    exact ⟨fd, hregistered⟩
  · rintro ⟨fd, r, hr, _, howner⟩
    exact (h.coherent.registered r hr howner).1

/-- The state is truthful if the connector is not connected. -/
theorem Settled.truthful_of_ne (h : t.Settled) (hstate : t.connector.state ≠ .kConnected) :
    t.Truthful :=
  ⟨h.connecting_iff, fun hconnected => absurd hconnected hstate⟩

/-- The truth is about `state_`, `connection_` and `nextConnId_`. -/
theorem Settled.truthful_of_same (h : u.Settled) (htruth : t.Truthful)
    (hstate : u.connector.state = t.connector.state) (hconnection : u.connection = t.connection)
    (hnext : u.nextConnId = t.nextConnId) : u.Truthful := by
  refine ⟨h.connecting_iff, ?_⟩
  rw [hstate, hconnection, hnext]
  exact htruth.2

/-- `startInLoop` never ends in `kConnected`. -/
theorem startInLoop_state {c c' : Connector} (hok : c.startInLoop errno sockfd = .ok c') :
    c'.state ≠ .kConnected := by
  obtain ⟨hstate, _, rfl⟩ := Connector.startInLoop_eq_ok.mp hok
  split
  · unfold Connector.attempted
    cases errno.branch with
    | connecting => simp
    | retry => simp
    | close => simp [hstate]
  · simp [hstate]

/-- The handler of the connector leaves a truthful state exactly if a connected socket is wanted. -/
theorem Settled.truthful_handleConnector {revents : BitVec 32} {soError : ℤ} {selfConnect : Bool}
    (h : t.Settled)
    (hphase : t.connector.phase = .channels (.connector :: t.connector.phase.active.tail))
    (hok : t.handleConnector revents soError selfConnect = .ok u) :
    u.Truthful ↔ t.ResetsState (.handleConnector revents soError selfConnect) := by
  have hsettled := h.handleConnector hphase hok
  obtain ⟨fd, ⟨c, handed⟩, hstate, hchannel, hregistered, hevent, hhandled⟩ :=
    h.coherent.exists_handled (by rw [hphase]; exact List.mem_cons_self) revents soError
      selfConnect
  obtain ⟨result, hevent', hrest⟩ := bind_eq_ok.mp hok
  cases hevent.symm.trans hevent'
  have hnone := h.connection_eq_none (by simp [hstate])
  cases hhandled with
  | untouched hfails =>
    cases hrest
    refine ⟨fun _ hsuccess => ?_, fun _ => hsettled.truthful_of_ne ?_⟩
    · cases hfails.symm.trans hsuccess
    · change t.connector.state ≠ .kConnected
      simp [hstate]
  | failed hfails =>
    cases hrest
    refine ⟨fun _ hsuccess => ?_, fun _ => hsettled.truthful_of_ne ?_⟩
    · cases hfails.symm.trans hsuccess
    · change ((t.connector.detached fd).retry fd).state ≠ .kConnected
      simp
  | connected _ hconnects =>
    obtain ⟨_, rfl⟩ := newConnection_eq_ok.mp hrest
    exact ⟨fun _ _ => hconnects, fun _ => ⟨hsettled.connecting_iff, fun _ => ⟨_, rfl, rfl⟩⟩⟩
  | stopped hsuccess hstopped =>
    cases hrest
    constructor
    · intro htruth
      obtain ⟨n, hn, _⟩ := htruth.2 rfl
      cases hnone.symm.trans hn
    · intro hwanted
      cases hstopped.symm.trans (hwanted hsuccess)

/-- A loss leaves a truthful state exactly if the connector is restarted. -/
theorem Settled.truthful_handleClose {n : ℕ} {active : List ChannelOwner} (h : t.Settled)
    (hphase : t.connector.phase = .channels active) (hfresh : sockfd ∉ t.connector.sockets)
    (hok : t.handleClose n errno sockfd = .ok u) :
    u.Truthful ↔ t.ResetsState (.handleClose n errno sockfd) := by
  have hsettled := h.handleClose hphase hfresh hok
  obtain ⟨_, _, hcurrent, hrest⟩ := handleClose_eq_ok.mp hok
  split at hrest
  · rename_i hboth
    obtain ⟨c, hrestart, hu⟩ := bind_eq_ok.mp hrest
    cases hu
    exact ⟨fun _ => Bool.and_eq_true_iff.mp hboth,
      fun _ => hsettled.truthful_of_ne (startInLoop_state hrestart)⟩
  · rename_i hnot
    cases hrest
    constructor
    · intro htruth
      obtain ⟨m, hm, _⟩ := htruth.2 (h.linked (by simp [hcurrent]))
      cases hm
    · exact fun hboth => absurd (Bool.and_eq_true_iff.mpr hboth) hnot

/-- A step keeps the state truthful exactly if it meets the condition. -/
theorem Settled.truthful_step {a : ClientStep} (h : t.Settled) (htruth : t.Truthful)
    (henabled : t.enabled a) (hexec : t.exec a = .ok u) : u.Truthful ↔ t.ResetsState a := by
  have hsettled := h.step henabled hexec
  cases a with
  | handleConnector revents soError selfConnect => exact h.truthful_handleConnector henabled hexec
  | handleClose n errno sockfd => exact h.truthful_handleClose henabled.1 henabled.2.2 hexec
  | connect errno sockfd =>
    obtain ⟨c, hok, hu⟩ := bind_eq_ok.mp hexec
    cases hu
    exact iff_of_true (hsettled.truthful_of_ne (startInLoop_state hok)) trivial
  | runTimer errno sockfd =>
    obtain ⟨c, hok, hu⟩ := bind_eq_ok.mp hexec
    cases hu
    refine iff_of_true ?_ trivial
    unfold Connector.runTimer at hok
    split at hok
    · exact hsettled.truthful_of_ne (startInLoop_state hok)
    · cases hok
      exact htruth
  | disconnect =>
    cases hexec
    obtain ⟨hconnector, hnext, hconnection, _⟩ := t.disconnect_same
    exact iff_of_true
      (hsettled.truthful_of_same htruth (by rw [hconnector]) hconnection hnext) trivial
  | stop =>
    cases hexec
    obtain ⟨timers, _, heq⟩ := Connector.cancel_eq { t.connector with connects := false }
    have hstate : t.connector.stop.state = t.connector.state := by
      unfold Connector.stop
      rw [heq]
    exact iff_of_true (hsettled.truthful_of_same htruth hstate rfl rfl) trivial
  | connectDestroyed n =>
    obtain ⟨v, hok, hu⟩ := bind_eq_ok.mp hexec
    obtain ⟨_, _, rfl⟩ := connectDestroyed_eq_ok.mp hok
    cases hu
    exact iff_of_true (hsettled.truthful_of_same htruth rfl rfl rfl) trivial
  | enableRetry | poll | timersDone | connectionHandled | swap | resetChannel | iterationDone
  | release =>
    cases hexec
    exact iff_of_true (hsettled.truthful_of_same htruth rfl rfl rfl) trivial

/-- No attempt is in progress and no connection is up; and, if `::connect` will report progress,
the channel of a failed attempt is gone. -/
def MayConnect (t : TcpClient) (errno : Errno) : Prop :=
  t.connection = none ∧ (∀ fd, ¬ t.connector.Registered fd .connector) ∧
    (errno.branch = .connecting → t.connector.channel = none)

/-- If `state_` tells the truth, `connect` starts a new attempt exactly if it may. -/
theorem Settled.connect_iff (h : t.Settled) (htruth : t.Truthful)
    (hfresh : sockfd ∉ t.connector.sockets) :
    (∃ u, t.exec (.connect errno sockfd) = .ok u ∧
      u.connector.attempts = t.connector.attempts + 1) ↔ t.MayConnect errno := by
  constructor
  · rintro ⟨u, hexec, _⟩
    obtain ⟨c, hok, _⟩ := bind_eq_ok.mp hexec
    obtain ⟨hstate, hneeds, _⟩ := Connector.startInLoop_eq_ok.mp hok
    have hdisconnected : t.connector.state = .kDisconnected := hstate
    refine ⟨h.connection_eq_none (by simp [hdisconnected]), fun fd hregistered => ?_,
      fun hbranch => (hneeds rfl hbranch).1⟩
    cases hdisconnected.symm.trans (h.connecting_iff.mpr ⟨fd, hregistered⟩)
  · rintro ⟨hnone, hidle, hchannel⟩
    have hstate : t.connector.state = .kDisconnected := by
      cases hstate : t.connector.state with
      | kDisconnected => rfl
      | kConnecting =>
        obtain ⟨fd, hregistered⟩ := htruth.1.mp hstate
        exact absurd hregistered (hidle fd)
      | kConnected =>
        obtain ⟨n, hn, _⟩ := htruth.2 hstate
        cases hnone.symm.trans hn
    obtain ⟨c, hok⟩ : ∃ c, t.connector.start errno sockfd = .ok c :=
      ⟨_, Connector.startInLoop_eq_ok.mpr
        ⟨hstate, fun _ hbranch => ⟨hchannel hbranch, h.coherent.unknown hfresh⟩, rfl⟩⟩
    have hattempts := Connector.attempts_startInLoop
      (c := { t.connector with connects := true }) rfl hok
    exact ⟨_, bind_eq_ok.mpr ⟨c, hok, rfl⟩, hattempts⟩

/-- **The state of the connector.** In a run of a client `state_` always tells the truth exactly
if every socket that gets connected is wanted and every loss is followed by a restart. At the end
of such a run, `connect` starts a new attempt exactly if no attempt is in progress, no connection
is up, and no channel is left that a new attempt would meet. -/
theorem state_tells_truth {as : List ClientStep} (hrun : clientSystem.Run .new as t) :
    (clientSystem.Always Truthful .new as ↔ clientSystem.Throughout ResetsState .new as) ∧
      (clientSystem.Throughout ResetsState .new as →
        ∀ errno, ∀ sockfd ∉ t.connector.sockets,
          (∃ u, t.exec (.connect errno sockfd) = .ok u ∧
            u.connector.attempts = t.connector.attempts + 1) ↔ t.MayConnect errno) := by
  have hinit : Settled .new := .of_init rfl
  have hiff : clientSystem.Always Truthful .new as ↔
      clientSystem.Throughout ResetsState .new as :=
    hrun.always_iff_throughout hinit (hinit.truthful_of_ne (by simp [new, Connector.new]))
      Settled.step Settled.truthful_step
  refine ⟨hiff, fun hthroughout errno sockfd hfresh => ?_⟩
  have hsettled : t.Settled := hrun.invariant hinit Settled.step
  exact hsettled.connect_iff (hiff.mpr hthroughout as t List.prefix_rfl hrun) hfresh

instance (t : TcpClient) (a : ClientStep) : Decidable (t.ResetsState a) := by
  unfold ResetsState
  apply @ClientStep.casesOn _ a <;> intros <;> infer_instance

instance (t : TcpClient) (a : ClientStep) :
    Decidable ((clientSystem.restrict ResetsState).enabled t a) :=
  inferInstanceAs (Decidable (t.enabled a ∧ t.ResetsState a))

/-- A connection is made, lost, and followed by an attempt that fails after a call of `stop`. -/
def stopDuringReconnect : List ClientStep :=
  [.enableRetry, .connect .EINPROGRESS 5,
    .poll [] [.connector], .timersDone, .handleConnector POLLOUT 0 false, .swap, .resetChannel,
    .iterationDone,
    .poll [] [.connection 1], .timersDone, .handleClose 1 .EINPROGRESS 6, .stop,
    .connectionHandled 1, .swap, .connectDestroyed 1, .iterationDone,
    .poll [] [.connector], .timersDone, .handleConnector POLLERR 111 false, .swap, .resetChannel,
    .iterationDone]

/-- After the attempt has failed, `connect` starts a new one. -/
theorem state_tells_truth_stopDuringReconnect :
    ∃ t, clientSystem.Run .new stopDuringReconnect t ∧
      clientSystem.Always Truthful .new stopDuringReconnect ∧
      ∃ u, t.exec (.connect .EINPROGRESS 7) = .ok u ∧ u.connector.attempts = 3 := by
  have hcheck : ((clientSystem.restrict ResetsState).replay .new stopDuringReconnect).any
      (fun t => decide (t.connection = none ∧ t.connector.channels = [] ∧
        t.connector.channel = none ∧ t.connector.sockets = [5] ∧
        t.connector.attempts = 2)) = true := by decide +kernel
  obtain ⟨t, hrestricted, ht⟩ := System.exists_run_of_replay hcheck
  obtain ⟨hnone, hchannels, hchannel, hsockets, hattempts⟩ := of_decide_eq_true ht
  obtain ⟨hrun, hthroughout⟩ := hrestricted.throughout_of_restrict
  obtain ⟨hiff, hconnect⟩ := state_tells_truth hrun
  have hmay : t.MayConnect .EINPROGRESS := by
    refine ⟨hnone, fun fd hregistered => ?_, fun _ => hchannel⟩
    obtain ⟨r, hr, _⟩ := hregistered
    rw [hchannels] at hr
    cases hr
  obtain ⟨u, hexec, hu⟩ := (hconnect hthroughout .EINPROGRESS 7 (by simp [hsockets])).mpr hmay
  exact ⟨t, hrun, hiff.mpr hthroughout, u, hexec, by rw [hu, hattempts]⟩

/-- A connection is made and lost, without `enableRetry`. -/
def lossWithoutRetry : List ClientStep :=
  [.connect .EINPROGRESS 5,
    .poll [] [.connector], .timersDone, .handleConnector POLLOUT 0 false, .swap, .resetChannel,
    .iterationDone,
    .poll [] [.connection 1], .timersDone, .handleClose 1 .EINPROGRESS 6, .connectionHandled 1,
    .swap, .connectDestroyed 1, .iterationDone]

/-- The user calls `stop` during an attempt, which then succeeds. -/
def stopBeforeSuccess : List ClientStep :=
  [.connect .EINPROGRESS 5, .stop,
    .poll [] [.connector], .timersDone, .handleConnector POLLOUT 0 false, .swap, .resetChannel,
    .iterationDone]

/-- Between two iterations, `state_` is `kConnected` without a connection, and `connect` fails the
assertion of `startInLoop`. -/
def Stuck (t : TcpClient) : Prop :=
  t.connector.state = .kConnected ∧ t.connection = none ∧ t.connector.phase = .polling ∧
    t.enabled (.connect .EINPROGRESS 7) ∧
    t.connector.start .EINPROGRESS 7 = .error (.assertion "state_ == kDisconnected")

instance (t : TcpClient) : Decidable t.Stuck := by
  unfold Stuck
  infer_instance

/-- A loss without a restart, and a success after `stop`, leave a client that cannot be reused. -/
theorem state_lies : (∃ t, clientSystem.Run .new lossWithoutRetry t ∧ t.Stuck) ∧
    ∃ t, clientSystem.Run .new stopBeforeSuccess t ∧ t.Stuck := by
  constructor
  · have hcheck : (clientSystem.replay .new lossWithoutRetry).any
        (fun t => decide t.Stuck) = true := by decide +kernel
    obtain ⟨t, hrun, ht⟩ := System.exists_run_of_replay hcheck
    exact ⟨t, hrun, of_decide_eq_true ht⟩
  · have hcheck : (clientSystem.replay .new stopBeforeSuccess).any
        (fun t => decide t.Stuck) = true := by decide +kernel
    obtain ⟨t, hrun, ht⟩ := System.exists_run_of_replay hcheck
    exact ⟨t, hrun, of_decide_eq_true ht⟩

end TcpClient

end Dalin.Net
