import Dalin.Net.ClientRun
import Dalin.Net.ConnectorAttempts

/-!
# Reconnection of a client

When `connect` is called once, the attempts and connections of a client follow
one another: an attempt begins only when the last one has failed or its
connection is lost, and the channel of the last attempt is gone by then. So no
assertion on the way fails, a connection is made only while `connection_` is
empty, and each loss starts one attempt if `retry_` and `connect_` are set.
-/

set_option autoImplicit false

namespace Dalin.Net

open Transition

namespace TcpClient

variable {t u : TcpClient} {errno : Errno} {sockfd : ℕ}

/-- `connect` is called once. -/
def ConnectsOnce (t : TcpClient) : ClientStep → Prop
  | .connect _ _ => t.connectCalls = 0
  | _ => True

/-- What every run with one call of `connect` keeps. -/
structure InTurn (t : TcpClient) : Prop where
  settled : t.Settled
  single : t.connector.Single
  before : t.connectCalls = 0 → t.connector.state = .kDisconnected ∧ t.connector.due = [] ∧
    t.connector.channel = none
  /-- A connection whose handler may still be called finds no channel in the connector. -/
  active : ∀ n, .connection n ∈ t.connector.phase.active → (t.conn n).closed = false →
    t.connector.channel = none

/-- The initial state is in turn. -/
theorem InTurn.of_init (h : clientSystem.init t) : t.InTurn := by
  refine ⟨.of_init h, ?_, ?_, ?_⟩ <;> cases h
  · exact .of_due_nil rfl
  · exact fun _ => ⟨rfl, rfl, rfl⟩
  · intro n hn
    cases hn

/-- Without a connection, no handler of a connection may close it. -/
theorem Settled.no_active (h : t.Settled) (hnone : t.connection = none) {n : ℕ}
    (hn : .connection n ∈ t.connector.phase.active) : (t.conn n).closed ≠ false := by
  intro hclosed
  cases hnone.symm.trans ((h.ledger.active n hn).2 hclosed)

/-- The state after a step without a connection is in turn. -/
theorem InTurn.of_none (h : t.Settled) (hsingle : t.connector.Single)
    (hbefore : t.connectCalls ≠ 0) (hnone : t.connection = none) : t.InTurn :=
  ⟨h, hsingle, fun hzero => absurd hzero hbefore,
    fun _ hn hclosed => absurd hclosed (h.no_active hnone hn)⟩

/-- A step after which the timers are fewer, and `state_` and `channel_` the same. -/
theorem InTurn.of_same (h : t.InTurn) (hsettled : u.Settled)
    (hdue : u.connector.due.length ≤ t.connector.due.length)
    (hstate : u.connector.state = t.connector.state)
    (hchannel : u.connector.channel = t.connector.channel)
    (hcalls : u.connectCalls = t.connectCalls)
    (hactive : ∀ n, .connection n ∈ u.connector.phase.active → (u.conn n).closed = false →
      .connection n ∈ t.connector.phase.active ∧ (t.conn n).closed = false) : u.InTurn := by
  have hnil : t.connector.due = [] → u.connector.due = [] := by
    intro hnil
    rw [hnil] at hdue
    exact List.length_eq_zero_iff.mp (Nat.le_zero.mp hdue)
  refine ⟨hsettled, ⟨hdue.trans h.single.one, fun hne => ?_⟩, fun hzero => ?_,
    fun n hn hclosed => ?_⟩
  · rw [hstate]
    exact h.single.waiting fun h' => hne (hnil h')
  · obtain ⟨hdisconnected, hnone, hchannel'⟩ := h.before (hcalls.symm.trans hzero)
    exact ⟨hstate.trans hdisconnected, hnil hnone, hchannel.trans hchannel'⟩
  · obtain ⟨hn, hclosed⟩ := hactive n hn hclosed
    exact hchannel.trans (h.active n hn hclosed)

/-- With a connection no retry timer will run. -/
theorem InTurn.due_eq_nil (h : t.InTurn) (hstate : t.connector.state ≠ .kDisconnected) :
    t.connector.due = [] := by
  by_contra hne
  exact hstate (h.single.waiting hne)

/-- The call of `connect`. -/
theorem InTurn.connect (h : t.InTurn) (hfresh : sockfd ∉ t.connector.sockets)
    (hzero : t.connectCalls = 0) :
    ∃ u, t.exec (.connect errno sockfd) = .ok u ∧ u.InTurn := by
  obtain ⟨hstate, hdue, hchannel⟩ := h.before hzero
  have hcoherent : Connector.Coherent { t.connector with connects := true } :=
    h.settled.coherent.of_same Iff.rfl rfl rfl (fun _ _ => id) rfl rfl
  obtain ⟨c, hok, _, hsingle⟩ := Connector.startInLoop_of_idle errno hcoherent
    (.of_due_nil hdue) hfresh hstate (fun _ => hdue) fun _ => hchannel
  have hexec : t.exec (.connect errno sockfd) = .ok
      { t with connector := c, connects := true, connectCalls := t.connectCalls + 1 } :=
    bind_eq_ok.mpr ⟨c, hok, rfl⟩
  exact ⟨_, hexec, .of_none (h.settled.connect hfresh hexec) hsingle (Nat.succ_ne_zero _)
    (h.settled.connection_eq_none (by simp [hstate]))⟩

/-- A retry timer runs. -/
theorem InTurn.runTimer (h : t.InTurn) (hfresh : sockfd ∉ t.connector.sockets)
    (hexpired : t.connector.phase.expired ≠ []) :
    ∃ u, t.exec (.runTimer errno sockfd) = .ok u ∧ u.InTurn := by
  obtain ⟨hstate, _, timer, active, hphase, _⟩ := h.single.of_expired h.settled.coherent hexpired
  obtain ⟨c, hok, _, hsingle⟩ := Connector.runTimer_of_expired errno
    h.settled.coherent h.single hfresh hexpired
  have hexec : t.exec (.runTimer errno sockfd) = .ok { t with connector := c } :=
    bind_eq_ok.mpr ⟨c, hok, rfl⟩
  have hcalls : t.connectCalls ≠ 0 := by
    intro hzero
    have hdue := (h.before hzero).2.1
    unfold Connector.due at hdue
    exact hexpired (List.append_eq_nil_iff.mp hdue).1
  have hsettled := h.settled.step (a := .runTimer errno sockfd) ⟨hexpired, hfresh⟩ hexec
  exact ⟨_, hexec, .of_none hsettled hsingle hcalls
    (h.settled.connection_eq_none (by simp [hstate]))⟩

/-- The channel of the connector is handled: a connection is made only of a removed channel. -/
theorem InTurn.handleConnector {revents : BitVec 32} {soError : ℤ} {selfConnect : Bool}
    (h : t.InTurn)
    (hphase : t.connector.phase = .channels (.connector :: t.connector.phase.active.tail)) :
    ∃ u, t.exec (.handleConnector revents soError selfConnect) = .ok u ∧ u.InTurn := by
  obtain ⟨fd, ⟨c, handed⟩, hstate, hchannel, hregistered, hevent, hhandled⟩ :=
    h.settled.coherent.exists_handled (by rw [hphase]; exact List.mem_cons_self) revents soError
      selfConnect
  have hsingle := h.single.handled hstate (by rw [hphase]; rfl) hhandled
  have hnone := h.settled.connection_eq_none (by simp [hstate])
  have hcalls : t.connectCalls ≠ 0 := by
    intro hzero
    cases hstate.symm.trans (h.before hzero).1
  cases hhandled with
  | untouched | failed | stopped =>
    have hexec : t.exec (.handleConnector revents soError selfConnect) = .ok _ :=
      bind_eq_ok.mpr ⟨_, hevent, rfl⟩
    exact ⟨_, hexec, .of_none (h.settled.handleConnector hphase hexec) hsingle hcalls hnone⟩
  | connected =>
    have hremoved : ∀ r ∈ t.connector.channels.filter (fun r => r.fd ≠ fd), r.fd ≠ fd := by
      simp
    have hunknown : Connector.Unknown
        ((t.connector.detached fd).setState .kConnected).handlerDone fd := hremoved
    have hnew := (newConnection_eq_ok (t := { t with
      connector := ((t.connector.detached fd).setState .kConnected).handlerDone })).mpr
      ⟨hunknown, rfl⟩
    have hexec : t.exec (.handleConnector revents soError selfConnect) = .ok _ :=
      bind_eq_ok.mpr ⟨_, hevent, hnew⟩
    have hsettled := h.settled.handleConnector hphase hexec
    refine ⟨_, hexec, hsettled, hsingle.of_sublist (List.Sublist.refl _) rfl,
      fun hzero => absurd hzero hcalls, fun n hn hclosed => ?_⟩
    -- the new connection is not active yet, and all others are closed
    have hlast := (hsettled.ledger.active n hn).2 hclosed
    have hlt := (h.settled.ledger.active n (List.mem_of_mem_tail hn)).1
    exact absurd hlt (by rw [← Option.some.inj hlast]; exact Nat.lt_irrefl _)

/-- The handler of a connection calls `handleClose`, and the client restarts the connector. -/
theorem InTurn.handleClose {n : ℕ} (h : t.InTurn)
    (hphase : t.connector.phase = .channels (.connection n :: t.connector.phase.active.tail))
    (hclosed : (t.conn n).closed = false) (hfresh : sockfd ∉ t.connector.sockets) :
    ∃ u, t.exec (.handleClose n errno sockfd) = .ok u ∧ u.InTurn := by
  have hactive : .connection n ∈ t.connector.phase.active := by
    rw [hphase]
    exact List.mem_cons_self
  have hcurrent := (h.settled.ledger.active n hactive).2 hclosed
  obtain ⟨_, _, hregistered⟩ := h.settled.ledger.current n hcurrent
  have hopen : (t.conn n).state = .kConnected ∨ (t.conn n).state = .kDisconnecting := by
    obtain ⟨r, hr, _, howner⟩ := hregistered
    exact (h.settled.ledger.registered r hr n howner).2.1
  have hstate : t.connector.state = .kConnected := h.settled.linked (by simp [hcurrent])
  have hdue := h.due_eq_nil (by simp [hstate])
  have hcalls : t.connectCalls ≠ 0 := by
    intro hzero
    cases hstate.symm.trans (h.before hzero).1
  have hchannel := h.active n hactive hclosed
  obtain ⟨u, hrest, hsingle, hnone, hcalls'⟩ : ∃ u,
      (if t.retry && t.connects then do
        let connector ← (t.lost n).connector.restart errno sockfd
        return { t.lost n with connector }
      else return t.lost n : Except Failure TcpClient) = .ok u ∧ u.connector.Single ∧
      u.connection = none ∧ u.connectCalls = t.connectCalls := by
    split
    · have hrestarted := (h.settled.restarted hphase hcurrent).coherent
      obtain ⟨c, hok, _, hsingle⟩ := Connector.startInLoop_of_idle errno hrestarted
        (.of_due_nil hdue) hfresh rfl (fun _ => hdue) fun _ => hchannel
      exact ⟨_, bind_eq_ok.mpr ⟨c, hok, rfl⟩, hsingle, rfl, rfl⟩
    · exact ⟨_, rfl, .of_due_nil hdue, rfl, rfl⟩
  have hexec : t.exec (.handleClose n errno sockfd) = .ok u :=
    handleClose_eq_ok.mpr ⟨hopen, hregistered, hcurrent, hrest⟩
  exact ⟨u, hexec, .of_none (h.settled.handleClose hphase hfresh hexec) hsingle
    (by rwa [hcalls']) hnone⟩

/-- The functor of a lost connection. -/
theorem InTurn.connectDestroyed {n : ℕ} (h : t.InTurn)
    (hphase : t.connector.phase = .functors (.connectDestroyed n :: t.connector.phase.batch.tail)) :
    ∃ u, t.exec (.connectDestroyed n) = .ok u ∧ u.InTurn := by
  have hqueued : .connectDestroyed n ∈ t.connector.queued := by
    unfold Connector.queued
    rw [hphase]
    exact List.mem_append_left _ List.mem_cons_self
  obtain ⟨_, hregistered⟩ := h.settled.ledger.queued n hqueued
  have hopen : (t.conn n).state = .kConnected ∨ (t.conn n).state = .kDisconnecting := by
    obtain ⟨r, hr, _, howner⟩ := hregistered
    exact (h.settled.ledger.registered r hr n howner).2.1
  have hok := connectDestroyed_eq_ok.mpr ⟨hopen, hregistered, rfl⟩
  have hexec : t.exec (.connectDestroyed n) = .ok _ := bind_eq_ok.mpr ⟨_, hok, rfl⟩
  refine ⟨_, hexec, h.of_same (h.settled.connectDestroyed hphase hexec) ?_ rfl rfl rfl ?_⟩
  · unfold Connector.due
    rw [hphase]
    exact Nat.le_refl _
  · intro m hm
    cases hm

/-- Every step of a client succeeds and keeps it in turn. -/
theorem InTurn.step {a : ClientStep} (h : t.InTurn) (henabled : t.enabled a)
    (honce : t.ConnectsOnce a) : ∃ u, t.exec a = .ok u ∧ u.InTurn := by
  have hkeeps : ∀ {u : TcpClient}, t.exec a = .ok u → u.Settled := h.settled.step henabled
  cases a with
  | connect errno sockfd => exact h.connect henabled honce
  | disconnect =>
    obtain ⟨hconnector, _, _, hcalls, hclosed⟩ := t.disconnect_same
    refine ⟨_, rfl, h.of_same (hkeeps rfl) ?_ ?_ ?_ hcalls fun m hn hm => ?_⟩
    · rw [hconnector]
    · rw [hconnector]
    · rw [hconnector]
    · rw [hconnector] at hn
      exact ⟨hn, (hclosed m).symm.trans hm⟩
  | stop =>
    obtain ⟨timers, hsublist, heq⟩ := Connector.cancel_eq { t.connector with connects := false }
    have hstop : t.connector.stop = { t.connector with connects := false, timers := timers } := heq
    have hkept := hkeeps rfl
    unfold TcpClient.stop at hkept
    rw [hstop] at hkept
    refine ⟨_, rfl, ?_⟩
    unfold TcpClient.stop
    rw [hstop]
    exact h.of_same hkept (hsublist.append_left _).length_le rfl rfl rfl fun _ hn hclosed =>
      ⟨hn, hclosed⟩
  | enableRetry =>
    exact ⟨_, rfl, h.of_same (hkeeps rfl) (Nat.le_refl _) rfl rfl rfl fun _ hn hclosed =>
      ⟨hn, hclosed⟩⟩
  | poll expired active =>
    refine ⟨_, rfl, hkeeps rfl, h.single.poll henabled, fun hzero => ?_, fun n hn hclosed => ?_⟩
    · obtain ⟨hstate, hdue, hchannel⟩ := h.before hzero
      have hle := Connector.due_poll_length_le henabled
      rw [hdue] at hle
      exact ⟨hstate, List.length_eq_zero_iff.mp (Nat.le_zero.mp hle), hchannel⟩
    · have hphase := henabled.1
      have hcurrent := ((hkeeps rfl).ledger.active n hn).2 hclosed
      have hstate := h.settled.linked (by simp [show t.connection = some n from hcurrent])
      exact h.settled.coherent.channel_eq_none (by simp [hstate])
        (h.settled.coherent.not_queued (by simp [hphase, LoopPhase.batch]) (by simp [hphase]))
  | runTimer errno sockfd => exact h.runTimer henabled.2 henabled.1
  | timersDone =>
    have hphase : t.connector.phase = .timers [] t.connector.phase.active := henabled
    refine ⟨_, rfl, h.of_same (hkeeps rfl) ?_ rfl rfl rfl fun _ hn hclosed => ⟨hn, hclosed⟩⟩
    unfold Connector.due
    rw [hphase]
    exact Nat.le_refl _
  | handleConnector revents soError selfConnect => exact h.handleConnector henabled
  | handleClose n errno sockfd => exact h.handleClose henabled.1 henabled.2.1 henabled.2.2
  | connectionHandled n =>
    have hphase : t.connector.phase = .channels (.connection n :: _) := henabled
    refine ⟨_, rfl, h.of_same (hkeeps rfl) ?_ rfl rfl rfl fun _ hn hclosed =>
      ⟨List.mem_of_mem_tail hn, hclosed⟩⟩
    unfold Connector.due
    rw [hphase]
    exact Nat.le_refl _
  | swap =>
    have hphase : t.connector.phase = .channels [] := henabled
    refine ⟨_, rfl, h.of_same (hkeeps rfl) ?_ rfl rfl rfl fun _ hn => by cases hn⟩
    unfold Connector.due
    rw [hphase]
    exact Nat.le_refl _
  | resetChannel =>
    have hphase : t.connector.phase = .functors (.resetChannel :: _) := henabled
    have hdue : t.connector.due = t.connector.timers := by
      unfold Connector.due
      rw [hphase]
      rfl
    refine ⟨_, rfl, hkeeps rfl, h.single.of_sublist ?_ rfl, fun hzero => ?_,
      fun _ hn => by cases hn⟩
    · rw [hdue]
      exact List.Sublist.refl _
    · obtain ⟨hstate, hnone, _⟩ := h.before hzero
      have htimers : t.connector.timers = [] := hdue.symm.trans hnone
      exact ⟨hstate, htimers, rfl⟩
  | connectDestroyed n => exact h.connectDestroyed henabled
  | iterationDone =>
    have hphase : t.connector.phase = .functors [] := henabled
    refine ⟨_, rfl, h.of_same (hkeeps rfl) ?_ rfl rfl rfl fun _ hn => by cases hn⟩
    unfold Connector.due
    rw [hphase]
    exact Nat.le_refl _
  | release n =>
    refine ⟨_, rfl, h.of_same (hkeeps rfl) (Nat.le_refl _) rfl rfl rfl fun m hn hclosed => ⟨hn, ?_⟩⟩
    exact (field_update ClientConnection.closed (by rfl) m).symm.trans hclosed

/-- A loss calls `::connect` once if `retry_` and `connect_` are set, and not at all otherwise. -/
theorem attempts_handleClose {n : ℕ} (hok : t.handleClose n errno sockfd = .ok u) :
    u.connector.attempts =
      t.connector.attempts + if t.retry = true ∧ t.connects = true then 1 else 0 := by
  obtain ⟨_, _, _, hrest⟩ := handleClose_eq_ok.mp hok
  split at hrest
  · rename_i hboth
    obtain ⟨c, hrestart, hu⟩ := bind_eq_ok.mp hrest
    cases hu
    rw [if_pos (Bool.and_eq_true_iff.mp hboth)]
    have hattempts : c.attempts = _ + 1 := Connector.attempts_startInLoop rfl hrestart
    exact hattempts
  · rename_i hnot
    cases hrest
    rw [if_neg fun hboth => hnot (Bool.and_eq_true_iff.mpr hboth)]
    rfl

/-- Only the handler of the connector makes a connection. -/
theorem nextConnId_of_exec {a : ClientStep} (hexec : t.exec a = .ok u)
    (hnot : ∀ revents soError selfConnect, a ≠ .handleConnector revents soError selfConnect) :
    u.nextConnId = t.nextConnId := by
  cases a with
  | handleConnector revents soError selfConnect => exact absurd rfl (hnot _ _ _)
  | connect errno sockfd | runTimer errno sockfd =>
    obtain ⟨c, _, hu⟩ := bind_eq_ok.mp hexec
    cases hu
    rfl
  | disconnect =>
    cases hexec
    exact t.disconnect_same.2.1
  | handleClose n errno sockfd =>
    obtain ⟨_, _, _, hrest⟩ := handleClose_eq_ok.mp hexec
    split at hrest
    · obtain ⟨c, _, hu⟩ := bind_eq_ok.mp hrest
      cases hu
      rfl
    · cases hrest
      rfl
  | connectDestroyed n =>
    obtain ⟨v, hok, hu⟩ := bind_eq_ok.mp hexec
    obtain ⟨_, _, rfl⟩ := connectDestroyed_eq_ok.mp hok
    cases hu
    rfl
  | stop | enableRetry | poll | timersDone | connectionHandled | swap | resetChannel
  | iterationDone | release =>
    cases hexec
    rfl

/-- A connection is made only while `connection_` is empty. -/
theorem Settled.connection_empty {a : ClientStep} (h : t.Settled) (henabled : t.enabled a)
    (hexec : t.exec a = .ok u) (hnew : u.nextConnId ≠ t.nextConnId) : t.connection = none := by
  by_contra hne
  refine hnew (nextConnId_of_exec hexec ?_)
  rintro revents soError selfConnect rfl
  have hphase : t.connector.phase = .channels (.connector :: _) := henabled
  have hstate := h.coherent.active (by rw [hphase]; exact List.mem_cons_self)
  exact hne (h.connection_eq_none (by simp [hstate]))

/-- **Reconnection protocol.** In every run of a client in which `connect` is called once, no
assertion fails: not that of `removeConnection`, nor that of the Poller when the connection
registers its socket, nor that on the empty `channel_`, nor those on `state_`. `newConnection` is
called only while `connection_` is empty, and a loss starts one attempt if `retry_` and `connect_`
are set, and none otherwise. -/
theorem reconnects_in_turn (h : (clientSystem.restrict ConnectsOnce).Reachable t) :
    (clientSystem.restrict ConnectsOnce).Safe t ∧
      (∀ a u, t.enabled a → t.exec a = .ok u → u.nextConnId ≠ t.nextConnId →
        t.connection = none) ∧
      ∀ n errno sockfd u, t.exec (.handleClose n errno sockfd) = .ok u →
        u.connector.attempts =
          t.connector.attempts + if t.retry = true ∧ t.connects = true then 1 else 0 := by
  obtain ⟨hturn, hsafe⟩ := h.invariant_safe (I := InTurn) .of_init
    fun hturn henabled => hturn.step henabled.1 henabled.2
  exact ⟨hsafe, fun a u henabled hexec => hturn.settled.connection_empty henabled hexec,
    fun n errno sockfd u hexec => attempts_handleClose hexec⟩

instance (t : TcpClient) (a : ClientStep) : Decidable (t.ConnectsOnce a) := by
  unfold ConnectsOnce
  apply @ClientStep.casesOn _ a <;> intros <;> infer_instance

instance (t : TcpClient) (a : ClientStep) :
    Decidable ((clientSystem.restrict ConnectsOnce).enabled t a) :=
  inferInstanceAs (Decidable (t.enabled a ∧ t.ConnectsOnce a))

/-- The first attempt fails; the second one makes a connection, which is lost in a later
iteration, so that the client reconnects; the third attempt makes another connection. -/
def lossAndReconnection : List ClientStep :=
  [.enableRetry, .connect .EINPROGRESS 5,
    .poll [] [.connector], .timersDone, .handleConnector POLLERR 111 false, .swap, .resetChannel,
    .iterationDone,
    .poll [0] [], .runTimer .EINPROGRESS 5, .timersDone, .swap, .iterationDone,
    .poll [] [.connector], .timersDone, .handleConnector POLLOUT 0 false, .swap, .resetChannel,
    .iterationDone,
    .poll [] [.connection 1], .timersDone, .handleClose 1 .EINPROGRESS 6, .connectionHandled 1,
    .swap, .connectDestroyed 1, .iterationDone, .release 1,
    .poll [] [.connector], .timersDone, .handleConnector POLLOUT 0 false]

/-- After three attempts the second connection is the current one. -/
theorem reconnects_in_turn_lossAndReconnection :
    ∃ t, (clientSystem.restrict ConnectsOnce).Reachable t ∧ t.connection = some 2 ∧
      t.connector.attempts = 3 ∧ (clientSystem.restrict ConnectsOnce).Safe t := by
  have hcheck : ((clientSystem.restrict ConnectsOnce).replay .new lossAndReconnection).any
      (fun t => decide (t.connection = some 2 ∧ t.connector.attempts = 3)) = true := by
    decide +kernel
  obtain ⟨t, hrun, ht⟩ := System.exists_run_of_replay hcheck
  obtain ⟨hconnection, hattempts⟩ := of_decide_eq_true ht
  have hreach : (clientSystem.restrict ConnectsOnce).Reachable t := ⟨_, _, rfl, hrun⟩
  exact ⟨t, hreach, hconnection, hattempts, (reconnects_in_turn hreach).1⟩

end TcpClient

end Dalin.Net
