import Dalin.Net.ChannelTracking

/-!
# Steps that delete no channel

This file follows the relation of `ChannelTracking` through the functions of the
servers, clients and connections: those that send and close, those that end an
attempt or a connection, the poll, and the constructors.
-/

set_option autoImplicit false

namespace Dalin.Net

open Transition

namespace LoopObjects

variable {w u v : LoopObjects} {i j k s c : ℕ}

/-! ### Changes of the owners -/

/-- A change of a server that keeps `listenning_` and does not delete it. -/
theorem Tracked.modifyServer (h : w.Tracked) (s : ℕ) {f : ServerObject → ServerObject}
    (halive : (f (w.servers s)).alive = (w.servers s).alive)
    (hlistenning : (f (w.servers s)).listenning = (w.servers s).listenning) :
    Kept w (w.modifyServer s f) := by
  refine (same_modifyServer w s hlistenning fun hno => halive.trans hno).kept h
    fun {name} hname => ?_
  cases name with
  | acceptor s' =>
    change (Function.update w.servers s (f (w.servers s)) s').alive = true
    rw [update_field w.servers s f ServerObject.alive halive]
    exact hname
  | attempt i k => exact hname
  | connection c => exact hname

/-- A change of a connection that stays up, or stays down, and is not deleted. -/
theorem Tracked.modifyConnection (h : w.Tracked) (c : ℕ)
    {f : ConnectionObject → ConnectionObject}
    (halive : (f (w.connections c)).alive = (w.connections c).alive)
    (hf : (f (w.connections c)).state = (w.connections c).state ∨
      ((w.connections c).state = .kConnected ∧ (f (w.connections c)).state = .kDisconnecting)) :
    Kept w (w.modifyConnection c f) := by
  refine (same_modifyConnection w c hf).kept h fun {name} hname => ?_
  cases name with
  | acceptor s => exact hname
  | attempt i k => exact hname
  | connection c' =>
    change (Function.update w.connections c (f (w.connections c)) c').alive = true
    rw [update_field w.connections c f ConnectionObject.alive halive]
    exact hname

/-- A change of the clients. -/
theorem Tracked.clients (h : w.Tracked) (clients : ℕ → ClientObject) (numClients : ℕ) :
    Kept w { w with clients, numClients } :=
  (same_clients w clients numClients).kept h fun {name} hname => by cases name <;> exact hname

/-- A change of one client. -/
theorem Tracked.modifyClient (h : w.Tracked) (j : ℕ) (f : ClientObject → ClientObject) :
    Kept w (w.modifyClient j f) :=
  h.clients _ _

/-- Queueing `connectDestroyed`. -/
theorem Tracked.queueInLoop (h : w.Tracked) (c : ℕ) :
    Kept w (w.queueInLoop (.connectDestroyed c)) :=
  (same_queueInLoop w c).kept h fun {name} hname => by cases name <;> exact hname

/-- A move of functors. -/
theorem Tracked.of_resets (h : w.Tracked) {phase : ObjectPhase}
    {pendingFunctors : List ObjectFunctor}
    (hresets : ∀ i, resets { w with phase, pendingFunctors } i = w.resets i) :
    Kept w { w with phase, pendingFunctors } :=
  (same_of_resets hresets).kept h fun {name} hname => by cases name <;> exact hname

/-- `shutdown` keeps a connection up. -/
theorem Tracked.shutdown (h : w.Tracked) (c : ℕ) : Kept w (w.shutdown c) := by
  refine h.modifyConnection c ?_ ?_
  · split <;> rfl
  · by_cases hstate : (w.connections c).state = .kConnected
    · rw [if_pos hstate]
      exact Or.inr ⟨hstate, rfl⟩
    · rw [if_neg hstate]
      exact Or.inl rfl

/-- `Connector::stop` changes `connect_` alone. -/
theorem Tracked.stopConnector (h : w.Tracked) (i : ℕ) : Kept w (w.stopConnector i) :=
  h.modifyConnector i rfl rfl rfl id

/-! ### Connections -/

/-- `send` registers nothing. -/
theorem Tracked.send (h : w.Tracked) (hok : w.send c = .ok u) : Kept w u := by
  unfold LoopObjects.send at hok
  split at hok
  · rename_i hstate
    split at hok
    · cases hok
      exact h.kept
    · exact h.setInterest_connection (Or.inl hstate) hok
  · cases hok
    exact h.kept

/-- `handleWrite` registers nothing: a channel that is writing is registered. -/
theorem Tracked.handleWritten (h : w.Tracked) (hok : w.handleWritten c = .ok u) : Kept w u := by
  unfold LoopObjects.handleWritten at hok
  split at hok
  · rename_i hwriting
    refine h.setInterest_connection ?_ hok
    by_contra hno
    unfold Channel.isWriting at hwriting
    rw [h.disabled c hno] at hwriting
    cases hwriting
  · cases hok
    exact h.kept

/-- `removeConnection` of a server. -/
theorem Tracked.removeServerConnection (h : w.Tracked)
    (hok : w.removeServerConnection s c = .ok u) : Kept w u := by
  obtain ⟨_, hok⟩ := access_bind_eq_ok.mp hok
  obtain ⟨_, hok⟩ := require_bind_eq_ok.mp hok
  cases hok
  have herased := h.modifyServer s (f := fun server =>
    { server with connections := server.connections.filter (· ≠ c) }) rfl rfl
  exact herased.trans (herased.tracked.queueInLoop c)

/-- `removeConnection` of a client, which may begin an attempt. -/
theorem Tracked.removeClientConnection (h : w.Tracked) {errno : Errno} {sockfd : ℕ}
    (hok : w.removeClientConnection j c errno sockfd = .ok u) : Kept w u := by
  obtain ⟨_, hok⟩ := access_bind_eq_ok.mp hok
  obtain ⟨_, hok⟩ := require_bind_eq_ok.mp hok
  have hreset := h.modifyClient j fun client => { client with connection := none }
  have hqueued := hreset.trans (hreset.tracked.queueInLoop c)
  dsimp only at hok
  split at hok
  · exact hqueued.trans (hqueued.tracked.restartConnector hok)
  · cases hok
    exact hqueued

/-- `handleClose` with any `closeCallback_`. -/
theorem Tracked.handleClose (h : w.Tracked) {errno : Errno} {sockfd : ℕ}
    (hok : w.handleClose c errno sockfd = .ok u) : Kept w u := by
  obtain ⟨hup, hok⟩ := require_bind_eq_ok.mp hok
  obtain ⟨v, hdisable, hok⟩ := bind_eq_ok.mp hok
  have hdisabled := h.setInterest_connection (hup.imp_right Or.inl) hdisable
  split at hok
  · exact hdisabled.trans (hdisabled.tracked.removeServerConnection hok)
  · exact hdisabled.trans (hdisabled.tracked.removeClientConnection hok)
  · cases hok
    exact hdisabled.trans (hdisabled.tracked.queueInLoop c)

/-- `connectDestroyed` keeps the channel registered while its callback runs. -/
theorem Tracked.connectDestroyed (h : w.Tracked) (hnone : w.destroying = none)
    (hok : w.connectDestroyed c = .ok u) : Kept w u := by
  obtain ⟨halive, hok⟩ := access_bind_eq_ok.mp hok
  obtain ⟨hup, hok⟩ := require_bind_eq_ok.mp hok
  obtain ⟨v, hdisable, hreturn⟩ := bind_eq_ok.mp hok
  obtain ⟨poller, hpoller, rfl⟩ := setInterest_eq_ok hdisable
  have hc : w.Wanted (.connection c) := hup.imp_right Or.inl
  have hevents : ∀ name ≠ .connection c,
      (poller.channel name).events = (w.poller.channel name).events := by
    intro name hne
    rw [Poller.setInterest_events hpoller, if_neg hne]
    rfl
  have hself : u.connections c = { w.connections c with state := .kDisconnected } := by
    rw [← Except.ok.inj hreturn]
    exact Function.update_self ..
  have hother : ∀ c' ≠ c, u.connections c' = w.connections c' := by
    intro c' hne
    rw [← Except.ok.inj hreturn]
    exact Function.update_of_ne hne ..
  have hsame : SameConnectors w u := by
    rw [← Except.ok.inj hreturn]
    exact sameConnectors_of_eq rfl rfl rfl rfl
      (funext fun i => funext fun k => hevents _ (by simp))
  have hrest : u.servers = w.servers ∧ u.numServers = w.numServers ∧
      u.numConnections = w.numConnections ∧ u.connectors = w.connectors ∧ u.poller = poller ∧
      u.destroying = some c := by
    rw [← Except.ok.inj hreturn]
    exact ⟨rfl, rfl, rfl, rfl, rfl, rfl⟩
  obtain ⟨hservers, hnumServers, hnumConnections, hconnectors, hpoll, hdestroying⟩ := hrest
  have hwanted : ∀ name, u.Wanted name ↔ w.Wanted name := by
    intro name
    cases name with
    | acceptor s => simp only [Wanted, hservers]
    | attempt i k => exact hsame.wanted i k
    | connection c' =>
      by_cases hne : c' = c
      · rw [hne]
        exact ⟨fun _ => hc, fun _ => Or.inr (Or.inr hdestroying)⟩
      · simp [Wanted, hother c' hne, hdestroying, hnone, Ne.symm hne]
  refine ⟨⟨?_, fun {name} hname => ?_, ?_, fun c' hc' => ?_, fun c' hc' => ?_,
    fun i => hsame.connector (h.connector i)⟩, fun {name} hname => ?_,
    fun {name} hname => Or.inl ((hwanted name).mp hname)⟩
  · rw [hpoll]
    refine (Poller.Holds.setInterest h.holds hpoller).congr fun name => ?_
    rw [hwanted]
    refine ⟨fun hor => ?_, Or.inr⟩
    rcases hor with rfl | hold
    · exact hc
    · exact hold
  · have hborn := h.born ((hwanted name).mp hname)
    cases name with
    | acceptor s => simpa [Born, hnumServers] using hborn
    | attempt i k => simpa [Born, hconnectors] using hborn
    | connection c' => simpa [Born, hnumConnections] using hborn
  · rw [hservers, hnumServers]
    exact h.unborn
  · have hold : ¬w.Wanted (.connection c') := fun hold => hc' ((hwanted _).mpr hold)
    rw [hpoll, hevents _ fun heq => hold (by rw [heq]; exact hc)]
    exact h.disabled c' hold
  · rw [hdestroying] at hc'
    rw [← Option.some.inj hc', hself]
  · cases name with
    | acceptor s => simpa [Live, hservers] using hname
    | attempt i k => simpa [Live, hconnectors] using hname
    | connection c' =>
      by_cases hne : c' = c
      · rw [hne]
        simp [Live, hself, halive]
      · simpa [Live, hother c' hne] using hname

/-- The end of `connectDestroyed` removes the channel. -/
theorem Tracked.callbackDone (h : w.Tracked) (hc : w.destroying = some c)
    (hok : w.callbackDone c = .ok u) : Kept w u := by
  obtain ⟨_, hok⟩ := access_bind_eq_ok.mp hok
  obtain ⟨v, hremove, hreturn⟩ := bind_eq_ok.mp hok
  obtain ⟨poller, hpoller, rfl⟩ := removeChannel_eq_ok hremove
  cases hreturn
  have hevents := Poller.removeChannel_events hpoller
  have hdown := h.destroying c hc
  have hsame : SameConnectors w { w with poller, destroying := none } :=
    sameConnectors_of_eq rfl rfl rfl rfl (funext fun i => funext fun k => hevents _)
  have hwanted : ∀ name, Wanted { w with poller, destroying := none } name ↔
      name ≠ .connection c ∧ w.Wanted name := by
    intro name
    cases name with
    | acceptor s => simp [Wanted]
    | attempt i k =>
      rw [hsame.wanted]
      simp
    | connection c' =>
      by_cases hne : c' = c
      · simp [Wanted, hne, hdown]
      · simp [Wanted, hne, hc, Ne.symm hne]
  refine ⟨⟨?_, fun {name} hname => h.born ((hwanted name).mp hname).2, h.unborn,
    fun c' hc' => ?_, fun c' hc' => (by cases hc'), fun i => hsame.connector (h.connector i)⟩,
    fun {name} hname => by cases name <;> exact hname,
    fun {name} hname => Or.inl ((hwanted name).mp hname).2⟩
  · exact (h.holds.removeChannel hpoller).congr fun name => (hwanted name).symm
  · change (poller.channel _).events = _
    rw [hevents]
    by_cases hne : c' = c
    · rw [hne]
      exact beq_iff_eq.mp (Poller.removeChannel_eq_ok hpoller).2.1
    · exact h.disabled c' fun hw => hc' ((hwanted _).mpr ⟨by simp [hne], hw⟩)

/-! ### Handlers -/

/-- `newConnection` of a server. -/
theorem Tracked.newServerConnection (h : w.Tracked) {sockfd : ℕ}
    (hok : w.newServerConnection s sockfd = .ok u) : Kept w u := by
  have hentered := h.modifyServer s (f := fun server =>
    { server with connections := server.connections ++ [w.numConnections] }) rfl rfl
  exact hentered.trans (hentered.tracked.establish hok)

/-- `newConnection` of a client. -/
theorem Tracked.newClientConnection (h : w.Tracked) {sockfd : ℕ}
    (hok : w.newClientConnection j sockfd = .ok u) : Kept w u := by
  have hentered := h.modifyClient j fun client =>
    { client with connection := some w.numConnections }
  exact hentered.trans (hentered.tracked.establish hok)

/-- `handleWrite` of a connector ends the attempt and may make a connection. -/
theorem Tracked.handleConnectorWrite (h : w.Tracked) {soError : ℤ} {selfConnect : Bool}
    (hok : w.handleConnectorWrite i soError selfConnect = .ok u) : Kept w u := by
  unfold LoopObjects.handleConnectorWrite at hok
  split at hok
  · rename_i hconnecting
    obtain ⟨v, hremoved, hok⟩ := bind_eq_ok.mp hok
    have hfailed := h.removeAndResetChannel .kDisconnected hconnecting (by simp) hremoved
    have hconnected := h.removeAndResetChannel .kConnected hconnecting (by simp) hremoved
    split at hok
    · cases hok
      exact hfailed
    split at hok
    · cases hok
      exact hfailed
    dsimp only at hok
    split at hok
    · unfold newConnectionCallback at hok
      split at hok
      · exact hconnected.trans (hconnected.tracked.newClientConnection hok)
      · cases hok
        exact hconnected
    · cases hok
      exact hconnected
  · obtain ⟨_, hok⟩ := require_bind_eq_ok.mp hok
    cases hok
    exact h.kept

/-- `handleError` of a connector ends the attempt. -/
theorem Tracked.handleConnectorError (h : w.Tracked)
    (hok : w.handleConnectorError i = .ok u) : Kept w u := by
  obtain ⟨hconnecting, hok⟩ := require_bind_eq_ok.mp hok
  obtain ⟨v, hremoved, hreturn⟩ := bind_eq_ok.mp hok
  cases hreturn
  exact h.removeAndResetChannel _ hconnecting (by simp) hremoved

/-- A handler runs only if its channel exists. -/
theorem handle_eq_ok {name : ChannelName} {handler : Except Failure LoopObjects}
    (hok : w.handle name handler = .ok u) : w.Live name ∧ handler = .ok u := by
  unfold handle at hok
  split at hok
  · rename_i hlive
    exact ⟨hlive, hok⟩
  · cases hok

/-- `poll` changes `revents_` alone. -/
theorem Tracked.poll (h : w.Tracked) {revents : List (BitVec 16)} (hphase : w.phase = .polling)
    (hreport : w.poller.MayReport revents) (hok : w.poll revents = .ok u) : Kept w u := by
  obtain ⟨⟨poller, active⟩, hfill, hreturn⟩ := bind_eq_ok.mp hok
  cases hreturn
  obtain ⟨htables, _⟩ := Poller.fillFrom_active hfill
  have hevents : ∀ name, (poller.channel name).events = (w.poller.channel name).events := by
    intro name
    rw [htables.channel]
    rfl
  have hresets : ∀ i, resets { w with poller, phase := .handlers active } i = w.resets i := by
    intro i
    unfold resets
    rw [hphase]
    rfl
  have hsame : SameConnectors w { w with poller, phase := .handlers active } :=
    ⟨rfl, fun _ h => h, fun _ => rfl, fun _ => rfl, fun _ h => h, hresets, fun _ _ => hevents _⟩
  have hwanted : ∀ name, Wanted { w with poller, phase := .handlers active } name ↔
      w.Wanted name := by
    intro name
    cases name with
    | acceptor s => exact Iff.rfl
    | attempt i k => exact hsame.wanted i k
    | connection c => exact Iff.rfl
  refine ⟨⟨?_, fun {name} hname => h.born ((hwanted name).mp hname), h.unborn, fun c hc => ?_,
    h.destroying, fun i => hsame.connector (h.connector i)⟩,
    fun {name} hname => by cases name <;> exact hname,
    fun {name} hname => Or.inl ((hwanted name).mp hname)⟩
  · refine ((h.holds.report hreport.length_eq).of_tables ?_ htables.channels fun name => ?_).congr
      fun name => (hwanted name).symm
    · rw [htables.pollfds]
    · rw [htables.channel]
  · change (poller.channel _).events = _
    rw [hevents]
    exact h.disabled c hc

/-! ### New objects -/

/-- `TcpServer::TcpServer` makes a channel and does not register it. -/
theorem Tracked.newServer (h : w.Tracked) (sockfd : ℕ) : Kept w (w.newServer sockfd) := by
  have hnew : ¬w.Wanted (.acceptor w.numServers) := fun hw =>
    absurd (h.born hw) (Nat.lt_irrefl _)
  have hevents : ∀ name ≠ .acceptor w.numServers,
      ((w.newServer sockfd).poller.channel name).events = (w.poller.channel name).events := by
    intro name hne
    have hpoller : (w.newServer sockfd).poller =
        w.poller.modify (.acceptor w.numServers) fun _ => Channel.new sockfd := rfl
    rw [hpoller, Poller.modify_channel_of_ne _ hne]
  have hself : (w.newServer sockfd).servers w.numServers = ⟨true, false, []⟩ :=
    Function.update_self ..
  have hother : ∀ s ≠ w.numServers, (w.newServer sockfd).servers s = w.servers s :=
    fun s hne => Function.update_of_ne hne ..
  have hsame : SameConnectors w (w.newServer sockfd) :=
    sameConnectors_of_eq rfl rfl rfl rfl (funext fun i => funext fun k => hevents _ (by simp))
  have hwanted : ∀ name, (w.newServer sockfd).Wanted name ↔ w.Wanted name := by
    intro name
    cases name with
    | acceptor s =>
      by_cases hne : s = w.numServers
      · rw [hne]
        exact iff_of_false (by simp [Wanted, hself]) hnew
      · simp only [Wanted, hother s hne]
    | attempt i k => exact hsame.wanted i k
    | connection c => exact Iff.rfl
  refine ⟨⟨?_, fun {name} hname => ?_, fun s hs => ?_, fun c hc => ?_, h.destroying,
    fun i => hsame.connector (h.connector i)⟩, fun {name} hname => ?_,
    fun {name} hname => Or.inl ((hwanted name).mp hname)⟩
  · exact (h.holds.new (Int.natCast_nonneg sockfd) hnew).congr fun name => (hwanted name).symm
  · have hborn := h.born ((hwanted name).mp hname)
    cases name with
    | acceptor s => exact Nat.lt_succ_of_lt hborn
    | attempt i k => exact hborn
    | connection c => exact hborn
  · have hs' : w.numServers + 1 ≤ s := hs
    rw [hother s (by omega)]
    exact h.unborn s (by omega)
  · rw [hevents _ (by simp)]
    exact h.disabled c hc
  · cases name with
    | acceptor s =>
      by_cases hne : s = w.numServers
      · simp [Live, hne, hself]
      · simpa [Live, hother s hne] using hname
    | attempt i k => exact hname
    | connection c => exact hname

/-- `Connector::Connector` makes no channel. -/
theorem Tracked.newConnector (h : w.Tracked) (client : Option ℕ) :
    Kept w (w.newConnector client) := by
  obtain ⟨hdead, hmade, hchannel⟩ := (h.connector w.numConnectors).unborn le_rfl
  have hself : (w.newConnector client).connectors w.numConnectors =
      ⟨true, false, .kDisconnected, none, 0, client⟩ := Function.update_self ..
  have hother : ∀ i ≠ w.numConnectors, (w.newConnector client).connectors i = w.connectors i :=
    fun i hne => Function.update_of_ne hne ..
  have hwanted : ∀ name, (w.newConnector client).Wanted name ↔ w.Wanted name := by
    intro name
    cases name <;> exact Iff.rfl
  have hresets : ∀ i, (w.newConnector client).resets i = w.resets i := fun _ => rfl
  refine ⟨⟨h.holds.congr fun name => (hwanted name).symm, fun {name} hname => ?_, h.unborn,
    h.disabled, h.destroying, fun i => ?_⟩, fun {name} hname => ?_,
    fun {name} hname => Or.inl ((hwanted name).mp hname)⟩
  · have hborn := h.born ((hwanted name).mp hname)
    cases name with
    | acceptor s => exact hborn
    | attempt i k =>
      by_cases hne : i = w.numConnectors
      · simp only [Born, hne, hmade] at hborn
        omega
      · simpa [Born, hother i hne] using hborn
    | connection c => exact hborn
  · have hconnector := h.connector i
    refine ⟨fun hi => ?_, hconnector.resets_le, ?_, fun hstate => ?_⟩
    · have hi' : w.numConnectors + 1 ≤ i := hi
      rw [hother i (by omega)]
      exact hconnector.unborn (by omega)
    · rw [hresets, hconnector.resets_pos]
      by_cases hne : i = w.numConnectors
      · simp [Detached, hne, hself, hchannel]
      · simp only [Detached, hother i hne, hwanted]
    · by_cases hne : i = w.numConnectors
      · rw [hne, hself] at hstate
        cases hstate
      · rw [hother i hne] at hstate ⊢
        exact hconnector.connecting hstate
  · cases name with
    | acceptor s => exact hname
    | attempt i k =>
      by_cases hne : i = w.numConnectors
      · rw [hne] at hname
        cases hdead.symm.trans hname.1
      · simpa [Live, hother i hne] using hname
    | connection c => exact hname

/-- `TcpClient::TcpClient` makes a connector. -/
theorem Tracked.newClient (h : w.Tracked) : Kept w w.newClient := by
  have hconnector := h.newConnector (some w.numClients)
  exact hconnector.trans (hconnector.tracked.clients _ _)

end LoopObjects

end Dalin.Net
