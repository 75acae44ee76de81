import Dalin.Net.ChannelKeeping

/-!
# Deleted channels

A channel that is deleted while it is registered leaves a dangling pointer in
`channels_`. `~TcpServer`, `~TcpClient` and `~Connector` remove no channel, and a
connection removes its own only in `connectDestroyed`. This file follows the
registered channels through the deletions, and tells exactly which deletions
leave no such pointer.
-/

set_option autoImplicit false

namespace Dalin.Net

open Transition

namespace LoopObjects

variable {w u v : LoopObjects} {i j k s c : ℕ}

/-! ### Deletions -/

/-- Every registered channel exists. -/
def AllLive (w : LoopObjects) : Prop := ∀ {name}, w.Wanted name → w.Live name

/-- A function that deletes nothing leaves no dangling pointer. -/
theorem Kept.allLive (h : Kept w u) (hlive : w.AllLive) : u.AllLive := by
  intro name hname
  rcases h.wanted hname with hold | hnew
  · exact h.live (hlive hold)
  · exact hnew

/-- A change that deletes some channels, all of one owner, leaves a dangling pointer exactly if one
of them is registered. -/
theorem Same.allLive_iff (hsame : Same w u) (hlive : w.AllLive) {gone : ChannelName → Prop}
    (hgone : ∀ name, u.Live name ↔ w.Live name ∧ ¬gone name) :
    u.AllLive ↔ ∀ name, gone name → w.Live name → ¬w.Wanted name := by
  constructor
  · intro hall name hname _ hw
    exact ((hgone name).mp (hall ((hsame.wanted name).mpr hw))).2 hname
  · intro hnot name hname
    have hw := (hsame.wanted name).mp hname
    exact (hgone name).mpr ⟨hlive hw, fun hg => hnot name hg (hlive hw) hw⟩

/-- The connector has no channel, or `removeAndResetChannel` has disabled and removed it. -/
def Idle (w : LoopObjects) (i : ℕ) : Prop :=
  ∀ k ∈ (w.connectors i).channel, (w.poller.channel (.attempt i k)).isNoneEvent = true

/-- Which deletions leave no dangling pointer: a server must not listen, a connector must not be in
the middle of an attempt, alone or in a client, and a connection must never have been established
or have come to the end of `connectDestroyed`. -/
def Leaves (w : LoopObjects) : ObjectStep → Prop
  | .deleteServer s => (w.servers s).listenning = false
  | .deleteConnector i => w.Idle i
  | .deleteClient j => w.Idle (w.clients j).connector
  | .deleteConnection c => (w.connections c).state ≠ .kConnected ∧
      (w.connections c).state ≠ .kDisconnecting ∧ w.destroying ≠ some c
  | _ => True

/-- `~TcpServer` removes no channel. -/
theorem Tracked.deleteServer (h : w.Tracked) (s : ℕ) :
    (w.deleteServer s).Tracked ∧ (w.AllLive → ((w.deleteServer s).AllLive ↔
      (w.servers s).listenning = false)) := by
  have hsame : Same w (w.deleteServer s) := same_modifyServer w s rfl fun _ => rfl
  refine ⟨hsame.tracked h, fun hlive => ?_⟩
  have hgone : ∀ name, (w.deleteServer s).Live name ↔
      w.Live name ∧ ¬name = .acceptor s := by
    intro name
    cases name with
    | acceptor s' =>
      by_cases hne : s' = s
      · simp [Live, LoopObjects.deleteServer, LoopObjects.modifyServer, hne]
      · simp [Live, LoopObjects.deleteServer, LoopObjects.modifyServer, hne]
    | attempt i k => simp [Live, LoopObjects.deleteServer, LoopObjects.modifyServer]
    | connection c => simp [Live, LoopObjects.deleteServer, LoopObjects.modifyServer]
  rw [hsame.allLive_iff hlive hgone, ← Bool.not_eq_true]
  constructor
  · intro hnot hlistenning
    have hw : w.Wanted (.acceptor s) := hlistenning
    exact hnot _ rfl (hlive hw) hw
  · rintro hno name rfl _
    exact hno

/-- The end of a connection removes no channel. -/
theorem Tracked.deleteConnection (h : w.Tracked) (c : ℕ) :
    (w.modifyConnection c fun conn => { conn with alive := false }).Tracked ∧
      (w.AllLive → ((w.modifyConnection c fun conn => { conn with alive := false }).AllLive ↔
        (w.connections c).state ≠ .kConnected ∧ (w.connections c).state ≠ .kDisconnecting ∧
          w.destroying ≠ some c)) := by
  have hsame : Same w (w.modifyConnection c fun conn => { conn with alive := false }) :=
    same_modifyConnection w c (Or.inl rfl)
  refine ⟨hsame.tracked h, fun hlive => ?_⟩
  have hgone : ∀ name, (w.modifyConnection c fun conn => { conn with alive := false }).Live name ↔
      w.Live name ∧ ¬name = .connection c := by
    intro name
    cases name with
    | acceptor s => simp [Live, LoopObjects.modifyConnection]
    | attempt i k => simp [Live, LoopObjects.modifyConnection]
    | connection c' =>
      by_cases hne : c' = c
      · simp [Live, LoopObjects.modifyConnection, hne]
      · simp [Live, LoopObjects.modifyConnection, hne]
  rw [hsame.allLive_iff hlive hgone]
  have hwanted : w.Wanted (.connection c) ↔ (w.connections c).state = .kConnected ∨
      (w.connections c).state = .kDisconnecting ∨ w.destroying = some c := Iff.rfl
  rw [ne_eq, ne_eq, ne_eq, ← not_or, ← not_or, ← hwanted]
  constructor
  · exact fun hnot hw => hnot _ rfl (hlive hw) hw
  · rintro hno name rfl _
    exact hno

/-- `~Connector` removes no channel. -/
theorem Tracked.deleteConnector (h : w.Tracked) (i : ℕ) :
    (w.deleteConnector i).Tracked ∧ (w.AllLive → ((w.deleteConnector i).AllLive ↔ w.Idle i)) := by
  have hsame : Same w (w.deleteConnector i) :=
    same_modifyConnector w i (fun _ => rfl) rfl rfl id
  refine ⟨hsame.tracked h, fun hlive => ?_⟩
  have hgone : ∀ name, (w.deleteConnector i).Live name ↔
      w.Live name ∧ ¬∃ k, name = .attempt i k := by
    intro name
    cases name with
    | acceptor s => simp [Live, LoopObjects.deleteConnector, LoopObjects.modifyConnector]
    | attempt i' k =>
      by_cases hne : i' = i
      · simp [Live, LoopObjects.deleteConnector, LoopObjects.modifyConnector, hne]
      · simp [Live, LoopObjects.deleteConnector, LoopObjects.modifyConnector, hne]
    | connection c => simp [Live, LoopObjects.deleteConnector, LoopObjects.modifyConnector]
  rw [hsame.allLive_iff hlive hgone]
  constructor
  · intro hnot k hk
    by_contra hevents
    have hw : w.Wanted (.attempt i k) := fun hnone => hevents (beq_iff_eq.mpr hnone)
    exact hnot _ ⟨k, rfl⟩ (hlive hw) hw
  · rintro hidle _ ⟨k, rfl⟩ ⟨_, hk⟩ hw
    exact hw (beq_iff_eq.mp (hidle k hk))

/-- `~TcpClient` deletes its connector and removes no channel. -/
theorem Tracked.deleteClient (h : w.Tracked) (j : ℕ) :
    (w.deleteClient j).Tracked ∧
      (w.AllLive → ((w.deleteClient j).AllLive ↔ w.Idle (w.clients j).connector)) := by
  unfold LoopObjects.deleteClient
  cases hconnection : (w.clients j).connection with
  | some c =>
    have hkept := h.modifyConnection c (f := fun conn => { conn with closeTarget := .detail }) rfl
      (Or.inl rfl)
    have hkept := hkept.trans (hkept.tracked.modifyClient j fun client =>
      { client with alive := false, connection := none })
    obtain ⟨htracked, hiff⟩ := hkept.tracked.deleteConnector (w.clients j).connector
    exact ⟨htracked, fun hlive => hiff (hkept.allLive hlive)⟩
  | none =>
    have hkept := h.stopConnector (w.clients j).connector
    have hkept := hkept.trans (hkept.tracked.modifyClient j fun client =>
      { client with alive := false, connection := none })
    obtain ⟨htracked, hiff⟩ := hkept.tracked.deleteConnector (w.clients j).connector
    refine ⟨htracked, fun hlive => (hiff (hkept.allLive hlive)).trans ?_⟩
    unfold Idle
    have hchannel : ((w.stopConnector (w.clients j).connector).connectors
        (w.clients j).connector).channel =
          (w.connectors (w.clients j).connector).channel := by
      simp [LoopObjects.stopConnector, LoopObjects.modifyConnector]
    exact forall_congr' fun k => by rw [← hchannel]; rfl

/-- `resetChannel` runs after `removeAndResetChannel`, so that it deletes no registered channel. -/
theorem Tracked.resetChannel (h : w.Tracked) {rest : List ObjectFunctor}
    (hphase : w.phase = .functors (.resetChannel i :: rest)) :
    (LoopObjects.resetChannel { w with phase := .functors rest } i).Tracked ∧
      (w.AllLive → (LoopObjects.resetChannel { w with phase := .functors rest } i).AllLive) := by
  generalize hu : LoopObjects.resetChannel { w with phase := .functors rest } i = u
  have hself : u.connectors i = { w.connectors i with channel := none } := by
    rw [← hu]
    exact Function.update_self ..
  have hother : ∀ i' ≠ i, u.connectors i' = w.connectors i' := by
    intro i' hne
    rw [← hu]
    exact Function.update_of_ne hne ..
  have hresets : ∀ i', w.resets i' = u.resets i' + if i' = i then 1 else 0 := by
    intro i'
    rw [← hu]
    unfold resets
    rw [hphase]
    change ((ObjectFunctor.resetChannel i :: rest) ++ w.pendingFunctors).count _ =
      (rest ++ w.pendingFunctors).count _ + _
    rw [List.cons_append, List.count_cons]
    by_cases hne : i' = i
    · simp [hne]
    · simp [hne, Ne.symm hne]
  have hrest : u.servers = w.servers ∧ u.connections = w.connections ∧
      u.destroying = w.destroying ∧ u.numServers = w.numServers ∧
      u.numConnections = w.numConnections ∧ u.numConnectors = w.numConnectors ∧
      u.poller = w.poller := by
    rw [← hu]
    exact ⟨rfl, rfl, rfl, rfl, rfl, rfl, rfl⟩
  obtain ⟨hservers, hconnections, hdestroying, hnumServers, hnumConnections, hnumConnectors,
    hpoll⟩ := hrest
  have hwanted : ∀ name, u.Wanted name ↔ w.Wanted name := by
    intro name
    cases name with
    | acceptor s => simp only [Wanted, hservers]
    | attempt i' k => simp only [Wanted, hpoll]
    | connection c => simp only [Wanted, hconnections, hdestroying]
  have hmade : ∀ i', (u.connectors i').made = (w.connectors i').made := by
    intro i'
    by_cases hne : i' = i
    · rw [hne, hself]
    · rw [hother i' hne]
  have hone : w.resets i = 1 := by
    have hle := (h.connector i).resets_le
    have heq := hresets i
    rw [if_pos rfl] at heq
    omega
  obtain ⟨k, hk, hnot⟩ := (h.connector i).resets_pos.mp (by omega)
  refine ⟨⟨?_, fun {name} hname => ?_, ?_, fun c hc => ?_, fun c hc => ?_, fun i' => ?_⟩,
    fun hlive name hname => ?_⟩
  · rw [hpoll]
    exact h.holds.congr fun name => (hwanted name).symm
  · have hborn := h.born ((hwanted name).mp hname)
    cases name with
    | acceptor s => simpa [Born, hnumServers] using hborn
    | attempt i' k' => simpa [Born, hmade] using hborn
    | connection c => simpa [Born, hnumConnections] using hborn
  · rw [hservers, hnumServers]
    exact h.unborn
  · rw [hpoll]
    exact h.disabled c fun hw => hc ((hwanted _).mpr hw)
  · rw [hconnections]
    exact h.destroying c (hdestroying ▸ hc)
  · have hconnector := h.connector i'
    have heq := hresets i'
    by_cases hne : i' = i
    · subst hne
      rw [if_pos rfl] at heq
      refine ⟨fun hge => ?_, by omega, ⟨fun hpos => by omega, ?_⟩, fun hstate => ?_⟩
      · cases hk.symm.trans (hconnector.unborn (hnumConnectors ▸ hge)).2.2
      · rintro ⟨k', hk', _⟩
        rw [hself] at hk'
        cases hk'
      · rw [hself] at hstate
        obtain ⟨k', hk', hw⟩ := hconnector.connecting hstate
        rw [hk] at hk'
        exact absurd (Option.some.inj hk' ▸ hw) hnot
    · rw [if_neg hne, Nat.add_zero] at heq
      refine ⟨?_, ?_, ?_, ?_⟩
      · rw [hnumConnectors, hother i' hne]
        exact hconnector.unborn
      · rw [← heq]
        exact hconnector.resets_le
      · rw [← heq, hconnector.resets_pos]
        simp only [Detached, hother i' hne, hwanted]
      · rw [hother i' hne]
        simp only [hwanted]
        exact hconnector.connecting
  · have hold := (hwanted name).mp hname
    have hold' := hlive hold
    cases name with
    | acceptor s => simpa [Live, hservers] using hold'
    | attempt i' k' =>
      by_cases hne : i' = i
      · rw [hne] at hold hold'
        have hsome : some k = some k' := hk.symm.trans hold'.2
        exact absurd (Option.some.inj hsome ▸ hold) hnot
      · simpa [Live, hother i' hne] using hold'
    | connection c => simpa [Live, hconnections] using hold'

/-! ### Runs -/

/-- Without objects there are no registered channels. -/
theorem not_wanted_empty (name : ChannelName) : ¬empty.Wanted name := by
  cases name <;> simp [Wanted, empty, Channel.new, Channel.kNoneEvent]

/-- The relation holds at the beginning. -/
theorem tracked_empty : empty.Tracked := by
  refine ⟨⟨fun _ => Int.le_refl 0, fun {fd name} hlookup => ?_, fun name => ?_, ?_⟩,
    fun {name} hname => absurd hname (not_wanted_empty name), fun _ _ => rfl, fun _ _ => rfl,
    fun c hc => (by cases hc), fun i => ⟨fun _ => ⟨rfl, rfl, rfl⟩, Nat.zero_le 1, ?_, fun h => ?_⟩⟩
  · cases hlookup
  · exact iff_of_false (fun hreg => by cases hreg) (not_wanted_empty name)
  · exact List.Perm.refl _
  · refine iff_of_false (Nat.lt_irrefl 0) ?_
    rintro ⟨k, hk, _⟩
    cases hk
  · cases h

/-- A functor that runs keeps the relation and leaves no dangling pointer. -/
theorem Tracked.runFunctor (h : w.Tracked) (hbatch : w.phase.batch ≠ [])
    (hdestroying : w.destroying = none) (hok : w.runFunctor = .ok u) :
    u.Tracked ∧ (w.AllLive → u.AllLive) := by
  cases hphase : w.phase with
  | polling | handlers active =>
    rw [hphase] at hbatch
    exact absurd rfl hbatch
  | functors batch =>
    cases batch with
    | nil =>
      rw [hphase] at hbatch
      exact absurd rfl hbatch
    | cons f rest =>
      cases f with
      | resetChannel i =>
        simp only [LoopObjects.runFunctor, hphase] at hok
        obtain ⟨_, hreturn⟩ := access_bind_eq_ok.mp hok
        cases hreturn
        exact h.resetChannel hphase
      | connectDestroyed c =>
        simp only [LoopObjects.runFunctor, hphase] at hok
        have htaken : Kept w { w with phase := .functors rest } := by
          refine h.of_resets fun i => ?_
          unfold resets
          rw [hphase]
          change (rest ++ w.pendingFunctors).count _ =
            ((ObjectFunctor.connectDestroyed c :: rest) ++ w.pendingFunctors).count _
          rw [List.cons_append, List.count_cons_of_ne (by simp)]
        have hkept := htaken.trans (htaken.tracked.connectDestroyed hdestroying hok)
        exact ⟨hkept.tracked, hkept.allLive⟩

/-- What a step does: it keeps the relation, and leaves no dangling pointer exactly if it meets
`Leaves`. -/
theorem Tracked.step (h : w.Tracked) {a : ObjectStep} (henabled : w.enabled a)
    (hok : w.exec a = .ok u) : u.Tracked ∧ (w.AllLive → (u.AllLive ↔ w.Leaves a)) := by
  have hkeeps : Kept w u → w.Leaves a → u.Tracked ∧ (w.AllLive → (u.AllLive ↔ w.Leaves a)) :=
    fun hkept hleaves => ⟨hkept.tracked, fun hlive => iff_of_true (hkept.allLive hlive) hleaves⟩
  cases a with
  | newServer sockfd =>
    cases hok
    exact hkeeps (h.newServer sockfd) trivial
  | startServer s =>
    change w.startServer s = .ok u at hok
    unfold startServer at hok
    split at hok
    · cases hok
      exact hkeeps h.kept trivial
    · exact hkeeps (h.listen henabled hok) trivial
  | deleteServer s =>
    cases hok
    exact h.deleteServer s
  | newConnector =>
    cases hok
    exact hkeeps (h.newConnector none) trivial
  | startConnector i errno sockfd => exact hkeeps (h.startConnector hok) trivial
  | restartConnector i errno sockfd => exact hkeeps (h.restartConnector hok) trivial
  | stopConnector i =>
    cases hok
    exact hkeeps (h.stopConnector i) trivial
  | deleteConnector i =>
    cases hok
    exact h.deleteConnector i
  | newClient =>
    cases hok
    exact hkeeps h.newClient trivial
  | connectClient j errno sockfd =>
    have hset := h.modifyClient j fun client => { client with connects := true }
    exact hkeeps (hset.trans (hset.tracked.startConnector hok)) trivial
  | disconnectClient j =>
    cases hok
    have hset := h.modifyClient j fun client => { client with connects := false }
    refine hkeeps ?_ trivial
    unfold disconnectClient
    dsimp only
    split
    · exact hset.trans (hset.tracked.shutdown _)
    · exact hset
  | stopClient j =>
    cases hok
    have hset := h.modifyClient j fun client => { client with connects := false }
    exact hkeeps (hset.trans (hset.tracked.stopConnector _)) trivial
  | enableRetry j =>
    cases hok
    exact hkeeps (h.modifyClient j _) trivial
  | deleteClient j =>
    cases hok
    exact h.deleteClient j
  | shutdown c =>
    cases hok
    exact hkeeps (h.shutdown c) trivial
  | send c => exact hkeeps (h.send hok) trivial
  | deleteConnection c =>
    cases hok
    exact h.deleteConnection c
  | runTimer i errno sockfd => exact hkeeps (h.startInLoop hok) trivial
  | poll revents => exact hkeeps (h.poll henabled.1 henabled.2 hok) trivial
  | accept s sockfd => exact hkeeps (h.newServerConnection (handle_eq_ok hok).2) trivial
  | handleConnectorWrite i k soError selfConnect =>
    exact hkeeps (h.handleConnectorWrite (handle_eq_ok hok).2) trivial
  | handleConnectorError i k =>
    exact hkeeps (h.handleConnectorError (handle_eq_ok hok).2) trivial
  | handleWritten c => exact hkeeps (h.handleWritten (handle_eq_ok hok).2) trivial
  | handleClose c errno sockfd => exact hkeeps (h.handleClose (handle_eq_ok hok).2) trivial
  | handlerDone =>
    cases hok
    refine hkeeps (h.of_resets fun i => ?_) trivial
    unfold resets
    cases hphase : w.phase with
    | handlers active => rfl
    | polling | functors batch =>
      have hcurrent : w.phase.active.head? ≠ none := henabled
      rw [hphase] at hcurrent
      exact absurd rfl hcurrent
  | swap =>
    cases hok
    refine hkeeps (h.of_resets fun i => ?_) trivial
    have hphase : w.phase = .handlers [] := henabled
    unfold resets
    rw [hphase]
    change (w.pendingFunctors ++ []).count _ = ([] ++ w.pendingFunctors).count _
    rw [List.append_nil, List.nil_append]
  | runFunctor =>
    obtain ⟨htracked, hlive⟩ := h.runFunctor henabled.1 henabled.2 hok
    exact ⟨htracked, fun hall => iff_of_true (hlive hall) trivial⟩
  | callbackDone c => exact hkeeps (h.callbackDone henabled hok) trivial
  | iterationDone =>
    cases hok
    refine hkeeps (h.of_resets fun i => ?_) trivial
    unfold resets
    rw [henabled.1]
    rfl

/-- No channel object died while it was registered: `channels_` refers to objects that exist, each
entry of `pollfds_` belongs to one of them, and so does every pointer that `fillActiveChannels`
can return. -/
structure NoneDangling (w : LoopObjects) : Prop where
  channels : ∀ fd name, w.poller.channels.lookup fd = some name → w.Live name
  pollfds : ∀ pfd ∈ w.poller.pollfds, ∃ name,
    w.poller.channels.lookup (decodeFd pfd.fd) = some name ∧ w.Live name
  active : ∀ revents poller active,
    (w.poller.report revents).fillActiveChannels = .ok (poller, active) →
      ∀ name ∈ active, w.Live name

/-- The tables refer to the registered channels and no others. -/
theorem Tracked.noneDangling_iff (h : w.Tracked) : w.NoneDangling ↔ w.AllLive := by
  constructor
  · intro hnone name hname
    exact hnone.channels _ _ ((h.holds.registered name).mpr hname)
  · intro hlive
    have hlookup : ∀ fd name, w.poller.channels.lookup fd = some name → w.Live name :=
      fun fd name hlookup => hlive (h.holds.of_lookup hlookup)
    refine ⟨hlookup, fun pfd hpfd => ?_, fun revents poller active hfill name hname => ?_⟩
    · obtain ⟨name, hname, hw⟩ := h.holds.of_entry hpfd
      exact ⟨name, hname, hlive hw⟩
    · obtain ⟨fd, hfd⟩ := (Poller.fillFrom_active hfill).2 name hname
      exact hlookup fd name hfd

/-- **Deletion.** In a run of one loop thread with any servers, clients and connectors, no channel
dies while it is registered exactly if every deletion meets `Leaves`. -/
theorem none_dangling_iff_leaves {steps : List ObjectStep} (hrun : objectSystem.Run empty steps w) :
    objectSystem.Always NoneDangling empty steps ↔ objectSystem.Throughout Leaves empty steps := by
  have hlive : empty.AllLive := fun {name} hname => absurd hname (not_wanted_empty name)
  refine hrun.always_iff_throughout (I := Tracked) tracked_empty
    (tracked_empty.noneDangling_iff.mpr hlive)
    (fun h henabled hok => (h.step henabled hok).1) fun {t a u} h hnone henabled hok => ?_
  obtain ⟨htracked, hiff⟩ := h.step henabled hok
  rw [htracked.noneDangling_iff]
  exact hiff (h.noneDangling_iff.mp hnone)

instance (w : LoopObjects) (i : ℕ) : Decidable (w.Idle i) :=
  inferInstanceAs (Decidable (∀ k ∈ (w.connectors i).channel, _))

instance (w : LoopObjects) (a : ObjectStep) : Decidable (w.Leaves a) := by
  unfold Leaves
  apply @ObjectStep.casesOn _ a <;> intros <;> infer_instance

instance (w : LoopObjects) (a : ObjectStep) :
    Decidable ((objectSystem.restrict Leaves).enabled w a) :=
  inferInstanceAs (Decidable (w.enabled a ∧ w.Leaves a))

/-- A server accepts a connection, which is closed and ends. Then a client connects and is deleted
after the attempt has succeeded. -/
def serverThenClient : List ObjectStep :=
  [.newServer 3, .startServer 0, .poll [1], .accept 0 7, .handlerDone, .swap, .iterationDone,
    .poll [0, 1], .handleClose 0 .zero 0, .handlerDone, .swap, .runFunctor, .callbackDone 0,
    .iterationDone, .deleteConnection 0, .newClient, .connectClient 0 .EINPROGRESS 8,
    .poll [0, 4], .handleConnectorWrite 0 0 0 false, .handlerDone, .swap, .runFunctor,
    .iterationDone, .deleteClient 0]

/-- In this run no channel dies while it is registered. -/
theorem none_dangling_iff_leaves_serverThenClient :
    ∃ w, objectSystem.Run empty serverThenClient w ∧ (w.clients 0).alive = false ∧
      objectSystem.Always NoneDangling empty serverThenClient := by
  have hcheck : ((objectSystem.restrict Leaves).replay empty serverThenClient).any
      (fun w => decide ((w.clients 0).alive = false)) = true := by
    decide +kernel
  obtain ⟨w, hrun, hw⟩ := System.exists_run_of_replay hcheck
  obtain ⟨hrun, hleaves⟩ := hrun.throughout_of_restrict
  exact ⟨w, hrun, of_decide_eq_true hw, (none_dangling_iff_leaves hrun).mpr hleaves⟩

/-- A server is deleted while it listens. -/
def deletedListening : List ObjectStep := [.newServer 3, .startServer 0, .deleteServer 0]

/-- The channel of its acceptor is still in `channels_`. -/
theorem dangling_deletedListening :
    ∃ w, objectSystem.Run empty deletedListening w ∧
      w.poller.channels.lookup 3 = some (.acceptor 0) ∧ (w.servers 0).alive = false ∧
      ¬objectSystem.Always NoneDangling empty deletedListening := by
  have hcheck : (objectSystem.replay empty deletedListening).any (fun w =>
      decide (w.poller.channels.lookup 3 = some (.acceptor 0) ∧ (w.servers 0).alive = false)) =
      true := by
    decide +kernel
  obtain ⟨w, hrun, hw⟩ := System.exists_run_of_replay hcheck
  obtain ⟨hlookup, hdead⟩ := of_decide_eq_true hw
  refine ⟨w, hrun, hlookup, hdead, fun halways => ?_⟩
  have hlive := (halways _ w List.prefix_rfl hrun).channels 3 _ hlookup
  exact absurd (hdead.symm.trans hlive) (by simp)

end LoopObjects

end Dalin.Net
