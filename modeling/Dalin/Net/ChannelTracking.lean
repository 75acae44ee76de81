import Dalin.Net.LoopObjects
import Dalin.Net.PollerHeld

/-!
# Which channels of a loop are registered

The state of its owner tells whether a channel is registered: the acceptor's is
once it listens, the connector's while it wants events, and the connection's from
its construction to the end of `connectDestroyed`. This file shows that every
function of the owners keeps this relation, and that those that make or remove
channels register no channel object that does not exist.
-/

set_option autoImplicit false

namespace Dalin.Net

open Transition

namespace LoopObjects

variable {w u v : LoopObjects} {i j k s c : ℕ}

/-- The state of its owner says that a channel is registered. -/
def Wanted (w : LoopObjects) : ChannelName → Prop
  | .acceptor s => (w.servers s).listenning = true
  | .attempt i k => (w.poller.channel (.attempt i k)).events ≠ Channel.kNoneEvent
  | .connection c => (w.connections c).state = .kConnected ∨
      (w.connections c).state = .kDisconnecting ∨ w.destroying = some c

/-- The owner has made this channel. -/
def Born (w : LoopObjects) : ChannelName → Prop
  | .acceptor s => s < w.numServers
  | .attempt i k => k < (w.connectors i).made
  | .connection c => c < w.numConnections

/-- How often `resetChannel` of a connector is queued. -/
def resets (w : LoopObjects) (i : ℕ) : ℕ :=
  (w.phase.batch ++ w.pendingFunctors).count (.resetChannel i)

/-- The channel of a connector exists and is no longer registered. -/
def Detached (w : LoopObjects) (i : ℕ) : Prop :=
  ∃ k, (w.connectors i).channel = some k ∧ ¬w.Wanted (.attempt i k)

/-- What every run keeps of a connector: `resetChannel` is queued once after
`removeAndResetChannel`, and not otherwise. -/
structure ConnectorOk (w : LoopObjects) (i : ℕ) : Prop where
  unborn : w.numConnectors ≤ i → (w.connectors i).alive = false ∧ (w.connectors i).made = 0 ∧
    (w.connectors i).channel = none
  resets_le : w.resets i ≤ 1
  resets_pos : 0 < w.resets i ↔ w.Detached i
  connecting : (w.connectors i).state = .kConnecting →
    ∃ k, (w.connectors i).channel = some k ∧ w.Wanted (.attempt i k)

/-- What every run keeps. -/
structure Tracked (w : LoopObjects) : Prop where
  /-- The Poller holds the channels that the states of their owners tell. -/
  holds : w.poller.Holds w.Wanted
  born : ∀ {name}, w.Wanted name → w.Born name
  unborn : ∀ s, w.numServers ≤ s → (w.servers s).alive = false
  disabled : ∀ c, ¬w.Wanted (.connection c) →
    (w.poller.channel (.connection c)).events = Channel.kNoneEvent
  destroying : ∀ c, w.destroying = some c → (w.connections c).state = .kDisconnected
  connector : ∀ i, w.ConnectorOk i

/-- What a function does that deletes no channel: it keeps the relation above, and the channels
that it registers exist. -/
structure Kept (w u : LoopObjects) : Prop where
  tracked : u.Tracked
  live : ∀ {name}, w.Live name → u.Live name
  wanted : ∀ {name}, u.Wanted name → w.Wanted name ∨ u.Live name

/-- One function after another. -/
theorem Kept.trans (h : Kept w u) (h' : Kept u v) : Kept w v where
  tracked := h'.tracked
  live hname := h'.live (h.live hname)
  wanted hname := by
    rcases h'.wanted hname with hold | hlive
    · exact (h.wanted hold).imp_right h'.live
    · exact Or.inr hlive

/-- A function that does nothing. -/
theorem Tracked.kept (h : w.Tracked) : Kept w w := ⟨h, id, Or.inl⟩

/-- The connectors do not change, nor do their channels and functors. -/
structure SameConnectors (w u : LoopObjects) : Prop where
  numConnectors : u.numConnectors = w.numConnectors
  alive : ∀ i, (w.connectors i).alive = false → (u.connectors i).alive = false
  made : ∀ i, (u.connectors i).made = (w.connectors i).made
  channel : ∀ i, (u.connectors i).channel = (w.connectors i).channel
  state : ∀ i, (u.connectors i).state = .kConnecting → (w.connectors i).state = .kConnecting
  resets : ∀ i, u.resets i = w.resets i
  events : ∀ i k, (u.poller.channel (.attempt i k)).events =
    (w.poller.channel (.attempt i k)).events

/-- The attempts of such connectors are registered as before. -/
theorem SameConnectors.wanted (h : SameConnectors w u) (i k : ℕ) :
    u.Wanted (.attempt i k) ↔ w.Wanted (.attempt i k) := by
  simp only [Wanted, h.events]

/-- Such connectors are as before. -/
theorem SameConnectors.connector (hsame : SameConnectors w u) (h : w.ConnectorOk i) :
    u.ConnectorOk i := by
  refine ⟨fun hi => ?_, ?_, ?_, fun hstate => ?_⟩
  · obtain ⟨halive, hmade⟩ := h.unborn (hsame.numConnectors ▸ hi)
    rw [hsame.made, hsame.channel]
    exact ⟨hsame.alive i halive, hmade⟩
  · rw [hsame.resets]
    exact h.resets_le
  · rw [hsame.resets, h.resets_pos]
    simp only [Detached, hsame.channel, hsame.wanted]
  · simp only [hsame.channel, hsame.wanted]
    exact h.connecting (hsame.state i hstate)

/-- Connectors that do not change at all, nor the functors. -/
theorem sameConnectors_of_eq (hconnectors : u.connectors = w.connectors)
    (hnumConnectors : u.numConnectors = w.numConnectors) (hphase : u.phase = w.phase)
    (hpending : u.pendingFunctors = w.pendingFunctors)
    (hevents : (fun i k => (u.poller.channel (.attempt i k)).events) =
      fun i k => (w.poller.channel (.attempt i k)).events) : SameConnectors w u := by
  refine ⟨hnumConnectors, fun i h => ?_, fun i => ?_, fun i => ?_, fun i h => ?_, fun i => ?_,
    fun i k => congrFun (congrFun hevents i) k⟩
  · rw [hconnectors]
    exact h
  · rw [hconnectors]
  · rw [hconnectors]
  · rw [← hconnectors]
    exact h
  · unfold resets
    rw [hphase, hpending]

/-- Changes that no channel depends on. -/
structure Same (w u : LoopObjects) : Prop extends SameConnectors w u where
  poller : u.poller = w.poller
  listenning : ∀ s, (u.servers s).listenning = (w.servers s).listenning
  unborn : ∀ s, (w.servers s).alive = false → (u.servers s).alive = false
  numServers : u.numServers = w.numServers
  numConnections : u.numConnections = w.numConnections
  connections : ∀ c, u.Wanted (.connection c) ↔ w.Wanted (.connection c)
  destroying : u.destroying = w.destroying
  disconnected : ∀ c, (w.connections c).state = .kDisconnected →
    (u.connections c).state = .kDisconnected

/-- Such changes do not change which channels are registered. -/
theorem Same.wanted (h : Same w u) (name : ChannelName) : u.Wanted name ↔ w.Wanted name := by
  cases name with
  | acceptor s => simp only [Wanted, h.listenning]
  | attempt i k => exact h.toSameConnectors.wanted i k
  | connection c => exact h.connections c

/-- Such changes keep the relation. -/
theorem Same.tracked (hsame : Same w u) (h : w.Tracked) : u.Tracked := by
  refine ⟨?_, fun {name} hname => ?_, fun s hs => ?_, fun c hc => ?_, fun c hc => ?_,
    fun i => hsame.connector (h.connector i)⟩
  · rw [hsame.poller]
    exact h.holds.congr fun name => (hsame.wanted name).symm
  · have hborn := h.born ((hsame.wanted name).mp hname)
    cases name with
    | acceptor s => exact Nat.lt_of_lt_of_eq hborn hsame.numServers.symm
    | attempt i k => exact Nat.lt_of_lt_of_eq hborn (hsame.made i).symm
    | connection c => exact Nat.lt_of_lt_of_eq hborn hsame.numConnections.symm
  · exact hsame.unborn s (h.unborn s (hsame.numServers ▸ hs))
  · rw [hsame.poller]
    exact h.disabled c fun hw => hc ((hsame.wanted _).mpr hw)
  · exact hsame.disconnected c (h.destroying c (hsame.destroying ▸ hc))

/-- Such changes register nothing. -/
theorem Same.kept (hsame : Same w u) (h : w.Tracked) (hlive : ∀ {name}, w.Live name → u.Live name) :
    Kept w u :=
  ⟨hsame.tracked h, hlive, fun hname => Or.inl ((hsame.wanted _).mp hname)⟩

/-! ### Changes of single objects -/

/-- A field that a change of one object keeps. -/
theorem update_field {α β : Type} (objects : ℕ → α) (i : ℕ) (f : α → α) (field : α → β)
    (hf : field (f (objects i)) = field (objects i)) (i' : ℕ) :
    field (Function.update objects i (f (objects i)) i') = field (objects i') := by
  by_cases hne : i' = i
  · rw [hne, Function.update_self, hf]
  · rw [Function.update_of_ne hne]

/-- A change of a server that keeps `listenning_`. -/
theorem same_modifyServer (w : LoopObjects) (s : ℕ) {f : ServerObject → ServerObject}
    (hf : (f (w.servers s)).listenning = (w.servers s).listenning)
    (halive : (w.servers s).alive = false → (f (w.servers s)).alive = false) :
    Same w (w.modifyServer s f) := by
  refine ⟨sameConnectors_of_eq rfl rfl rfl rfl rfl, rfl, update_field w.servers s f _ hf,
    fun s' h => ?_, rfl, rfl, fun _ => Iff.rfl, rfl, fun _ h => h⟩
  change (Function.update w.servers s (f (w.servers s)) s').alive = false
  by_cases hne : s' = s
  · rw [hne] at h ⊢
    rw [Function.update_self]
    exact halive h
  · rw [Function.update_of_ne hne]
    exact h

/-- A change of the clients. -/
theorem same_clients (w : LoopObjects) (clients : ℕ → ClientObject) (numClients : ℕ) :
    Same w { w with clients, numClients } :=
  ⟨sameConnectors_of_eq rfl rfl rfl rfl rfl, rfl, fun _ => rfl, fun _ h => h, rfl, rfl,
    fun _ => Iff.rfl, rfl, fun _ h => h⟩

/-- A change of a connector that keeps `channel_` and does not set `kConnecting`. -/
theorem same_modifyConnector (w : LoopObjects) (i : ℕ) {f : ConnectorObject → ConnectorObject}
    (halive : (w.connectors i).alive = false → (f (w.connectors i)).alive = false)
    (hmade : (f (w.connectors i)).made = (w.connectors i).made)
    (hchannel : (f (w.connectors i)).channel = (w.connectors i).channel)
    (hstate : (f (w.connectors i)).state = .kConnecting →
      (w.connectors i).state = .kConnecting) :
    Same w (w.modifyConnector i f) := by
  have hself : (w.modifyConnector i f).connectors i = f (w.connectors i) :=
    Function.update_self ..
  have hother : ∀ i' ≠ i, (w.modifyConnector i f).connectors i' = w.connectors i' :=
    fun i' hne => Function.update_of_ne hne ..
  refine ⟨⟨rfl, fun i' h => ?_, update_field w.connectors i f _ hmade,
    update_field w.connectors i f _ hchannel, fun i' h => ?_, fun _ => rfl, fun _ _ => rfl⟩, rfl,
    fun _ => rfl, fun _ h => h, rfl, rfl, fun _ => Iff.rfl, rfl, fun _ h => h⟩
  · by_cases hne : i' = i
    · rw [hne] at h ⊢
      rw [hself]
      exact halive h
    · rw [hother i' hne]
      exact h
  · by_cases hne : i' = i
    · rw [hne] at h ⊢
      rw [hself] at h
      exact hstate h
    · rw [hother i' hne] at h
      exact h

/-- A change of a connection that stays up, or stays down. -/
theorem same_modifyConnection (w : LoopObjects) (c : ℕ)
    {f : ConnectionObject → ConnectionObject}
    (hf : (f (w.connections c)).state = (w.connections c).state ∨
      ((w.connections c).state = .kConnected ∧ (f (w.connections c)).state = .kDisconnecting)) :
    Same w (w.modifyConnection c f) := by
  have hother : ∀ c' ≠ c, (w.modifyConnection c f).connections c' = w.connections c' :=
    fun c' hne => Function.update_of_ne hne ..
  have hself : (w.modifyConnection c f).connections c = f (w.connections c) :=
    Function.update_self ..
  have hdestroying : (w.modifyConnection c f).destroying = w.destroying := rfl
  refine ⟨sameConnectors_of_eq rfl rfl rfl rfl rfl, rfl, fun _ => rfl, fun _ h => h, rfl, rfl,
    fun c' => ?_, rfl, fun c' hc' => ?_⟩
  · by_cases hne : c' = c
    · rcases hf with hstate | ⟨hstate, hstate'⟩
      · simp only [Wanted, hne, hself, hdestroying, hstate]
      · simp [Wanted, hne, hself, hstate, hstate']
    · simp only [Wanted, hother c' hne, hdestroying]
  · by_cases hne : c' = c
    · rw [hne] at hc' ⊢
      rw [hself]
      rcases hf with hstate | ⟨hstate, _⟩
      · rw [hstate]
        exact hc'
      · cases hstate.symm.trans hc'
    · rw [hother c' hne]
      exact hc'

/-- A move of functors that keeps the number of each `resetChannel`. -/
theorem same_of_resets {phase : ObjectPhase} {pendingFunctors : List ObjectFunctor}
    (h : ∀ i, resets { w with phase, pendingFunctors } i = w.resets i) :
    Same w { w with phase, pendingFunctors } :=
  ⟨⟨rfl, fun _ h => h, fun _ => rfl, fun _ => rfl, fun _ h => h, h, fun _ _ => rfl⟩, rfl,
    fun _ => rfl, fun _ h => h, rfl, rfl, fun _ => Iff.rfl, rfl, fun _ h => h⟩

/-- Queueing `connectDestroyed`. -/
theorem same_queueInLoop (w : LoopObjects) (c : ℕ) :
    Same w (w.queueInLoop (.connectDestroyed c)) := by
  refine same_of_resets fun i => ?_
  unfold resets
  change (w.phase.batch ++ (w.pendingFunctors ++ [_])).count _ = _
  rw [← List.append_assoc, List.count_append]
  rfl

/-! ### Registration -/

/-- What an interest call needs and does. -/
theorem setInterest_eq_ok {name : ChannelName} {interest : Interest}
    (h : w.setInterest name interest = .ok u) :
    ∃ poller, w.poller.setInterest name interest = .ok poller ∧ u = { w with poller } := by
  obtain ⟨poller, hpoller, hreturn⟩ := bind_eq_ok.mp h
  exact ⟨poller, hpoller, (Except.ok.inj hreturn).symm⟩

/-- What a removal needs and does. -/
theorem removeChannel_eq_ok {name : ChannelName} (h : w.removeChannel name = .ok u) :
    ∃ poller, w.poller.removeChannel name = .ok poller ∧ u = { w with poller } := by
  obtain ⟨poller, hpoller, hreturn⟩ := bind_eq_ok.mp h
  exact ⟨poller, hpoller, (Except.ok.inj hreturn).symm⟩

/-- A change of the Poller that no attempt notices. -/
theorem sameConnectors_poller {poller : Poller ChannelName}
    (hevents : ∀ i k, (poller.channel (.attempt i k)).events =
      (w.poller.channel (.attempt i k)).events) : SameConnectors w { w with poller } :=
  sameConnectors_of_eq rfl rfl rfl rfl (funext fun i => funext fun k => hevents i k)

/-- Writing starts and stops while a connection is registered. -/
theorem Tracked.setInterest_connection (h : w.Tracked) {interest : Interest}
    (hc : w.Wanted (.connection c)) (hok : w.setInterest (.connection c) interest = .ok u) :
    Kept w u := by
  obtain ⟨poller, hpoller, rfl⟩ := setInterest_eq_ok hok
  have hevents : ∀ name ≠ .connection c,
      (poller.channel name).events = (w.poller.channel name).events := by
    intro name hne
    rw [Poller.setInterest_events hpoller, if_neg hne]
  have hsame : SameConnectors w { w with poller } :=
    sameConnectors_poller fun i k => hevents _ (by simp)
  have hwanted : ∀ name, Wanted { w with poller } name ↔ w.Wanted name := by
    intro name
    cases name with
    | acceptor s => exact Iff.rfl
    | attempt i k => exact hsame.wanted i k
    | connection c' => exact Iff.rfl
  refine ⟨⟨?_, fun {name} hname => h.born ((hwanted name).mp hname), h.unborn, fun c' hc' => ?_,
    h.destroying, fun i => hsame.connector (h.connector i)⟩, id,
    fun {name} hname => Or.inl ((hwanted name).mp hname)⟩
  · refine (h.holds.setInterest hpoller).congr fun name => ?_
    rw [hwanted]
    refine ⟨fun hor => ?_, Or.inr⟩
    rcases hor with rfl | hold
    · exact hc
    · exact hold
  · have hne : ChannelName.connection c' ≠ .connection c := by
      rintro heq
      cases heq
      exact hc' hc
    rw [hevents _ hne]
    exact h.disabled c' hc'

/-- A new channel object that is registered at once. -/
theorem Tracked.register (h : w.Tracked) {name : ChannelName} {fd : ℕ} {interest : Interest}
    {poller : Poller ChannelName} (hname : ¬w.Wanted name)
    (hok : (w.poller.modify name fun _ => Channel.new fd).setInterest name interest =
      .ok poller) :
    poller.Holds (fun name' => name' = name ∨ w.Wanted name') ∧
      (∀ name' ≠ name, (poller.channel name').events = (w.poller.channel name').events) ∧
      (poller.channel name).events = interest.apply 0 := by
  have hfd : (0 : ℤ) ≤ fd := Int.natCast_nonneg fd
  refine ⟨(h.holds.new hfd hname).setInterest hok, fun name' hne => ?_, ?_⟩
  · rw [Poller.setInterest_events hok, if_neg hne, Poller.modify_channel_of_ne _ hne]
  · rw [Poller.setInterest_events hok, if_pos rfl, Poller.modify_channel_self]
    rfl

/-- A function that registers one channel, which exists, and is as before otherwise. -/
theorem Tracked.kept_of_register (h : w.Tracked) (name : ChannelName)
    (hholds : u.poller.Holds fun name' => name' = name ∨ w.Wanted name')
    (hevents : ∀ name' ≠ name,
      (u.poller.channel name').events = (w.poller.channel name').events)
    (hwanted : ∀ name', u.Wanted name' ↔ name' = name ∨ w.Wanted name')
    (hborn : ∀ name', name' = name ∨ w.Born name' → u.Born name')
    (hlive : ∀ name', name' = name ∨ w.Live name' → u.Live name')
    (hunborn : ∀ s, u.numServers ≤ s → (u.servers s).alive = false)
    (hdestroying : ∀ c, u.destroying = some c →
      w.destroying = some c ∧ (u.connections c).state = (w.connections c).state)
    (hconnector : ∀ i, u.ConnectorOk i) : Kept w u := by
  refine ⟨⟨hholds.congr fun name' => (hwanted name').symm, fun {name'} hname => ?_, hunborn,
    fun c hc => ?_, fun c hc => ?_, hconnector⟩, fun {name'} hname => hlive name' (Or.inr hname),
    fun {name'} hname => ?_⟩
  · exact hborn name' (((hwanted name').mp hname).imp_right h.born)
  · have hold : ¬w.Wanted (.connection c) := fun hold => hc ((hwanted _).mpr (Or.inr hold))
    rw [hevents _ fun heq => hc ((hwanted _).mpr (Or.inl heq))]
    exact h.disabled c hold
  · obtain ⟨hold, hstate⟩ := hdestroying c hc
    rw [hstate]
    exact h.destroying c hold
  · rcases (hwanted name').mp hname with heq | hold
    · exact Or.inr (hlive name' (Or.inl heq))
    · exact Or.inl hold

/-- `TcpConnection` and `connectEstablished` make a connection and register its channel. -/
theorem Tracked.establish (h : w.Tracked) {sockfd : ℕ} {closeTarget : CloseTarget}
    (hok : w.establish sockfd closeTarget = .ok u) : Kept w u := by
  obtain ⟨poller, hpoller, hu⟩ := setInterest_eq_ok hok
  have hnew : ¬w.Wanted (.connection w.numConnections) := fun hw =>
    absurd (h.born hw) (Nat.lt_irrefl _)
  obtain ⟨hholds, hevents, _⟩ := h.register hnew hpoller
  have hself : u.connections w.numConnections = ⟨true, .kConnected, closeTarget⟩ := by
    rw [hu]
    exact Function.update_self ..
  have hother : ∀ c ≠ w.numConnections, u.connections c = w.connections c := by
    intro c hne
    rw [hu]
    exact Function.update_of_ne hne ..
  have hdestroying : u.destroying = w.destroying := by rw [hu]; rfl
  have hnum : u.numConnections = w.numConnections + 1 := by rw [hu]; rfl
  have hsame : SameConnectors w u := by
    rw [hu]
    exact sameConnectors_of_eq rfl rfl rfl rfl
      (funext fun i => funext fun k => hevents _ (by simp))
  have hservers : u.servers = w.servers ∧ u.numServers = w.numServers ∧
      u.connectors = w.connectors := by
    rw [hu]
    exact ⟨rfl, rfl, rfl⟩
  obtain ⟨hservers, hnumServers, hconnectors⟩ := hservers
  refine h.kept_of_register (.connection w.numConnections) (by rw [hu]; exact hholds)
    (by rw [hu]; exact hevents) (fun name' => ?_) (fun name' hname => ?_)
    (fun name' hname => ?_) (by rw [hservers, hnumServers]; exact h.unborn) (fun c hc => ?_)
    fun i => hsame.connector (h.connector i)
  · cases name' with
    | acceptor s => simp [Wanted, hservers]
    | attempt i k => simp [hsame.wanted]
    | connection c =>
      by_cases hne : c = w.numConnections
      · simp [Wanted, hne, hself]
      · simp [Wanted, hother c hne, hdestroying, hne]
  · cases name' with
    | acceptor s => simpa [Born, hnumServers] using hname
    | attempt i k => simpa [Born, hconnectors] using hname
    | connection c =>
      simp only [Born, ChannelName.connection.injEq] at hname ⊢
      omega
  · cases name' with
    | acceptor s => simpa [Live, hservers] using hname
    | attempt i k => simpa [Live, hconnectors] using hname
    | connection c =>
      by_cases hne : c = w.numConnections
      · simp [Live, hne, hself]
      · simpa [Live, hother c hne, hne] using hname
  · rw [hdestroying] at hc
    have hne : c ≠ w.numConnections := by
      rintro rfl
      exact hnew (Or.inr (Or.inr hc))
    exact ⟨hc, by rw [hother c hne]⟩

/-- `listen` registers the channel of an acceptor. -/
theorem Tracked.listen (h : w.Tracked) (hlive : (w.servers s).alive = true)
    (hok : w.listen s = .ok u) : Kept w u := by
  have hborn : s < w.numServers := by
    by_contra hge
    cases hlive.symm.trans (h.unborn s (by omega))
  obtain ⟨poller, hpoller, hu⟩ := setInterest_eq_ok hok
  have hevents : ∀ name ≠ .acceptor s,
      (poller.channel name).events = (w.poller.channel name).events := by
    intro name hne
    rw [Poller.setInterest_events hpoller, if_neg hne]
    rfl
  have hholds : poller.Holds fun name => name = .acceptor s ∨ w.Wanted name :=
    Poller.Holds.setInterest h.holds hpoller
  have hself : u.servers s = { w.servers s with listenning := true } := by
    rw [hu]
    exact Function.update_self ..
  have hother : ∀ s' ≠ s, u.servers s' = w.servers s' := by
    intro s' hne
    rw [hu]
    exact Function.update_of_ne hne ..
  have hsame : SameConnectors w u := by
    rw [hu]
    exact sameConnectors_of_eq rfl rfl rfl rfl
      (funext fun i => funext fun k => hevents _ (by simp))
  have hrest : u.connections = w.connections ∧ u.destroying = w.destroying ∧
      u.connectors = w.connectors ∧ u.numServers = w.numServers ∧
      u.numConnections = w.numConnections := by
    rw [hu]
    exact ⟨rfl, rfl, rfl, rfl, rfl⟩
  obtain ⟨hconnections, hdestroying, hconnectors, hnumServers, hnumConnections⟩ := hrest
  refine h.kept_of_register (.acceptor s) (by rw [hu]; exact hholds)
    (by rw [hu]; exact hevents) (fun name' => ?_) (fun name' hname => ?_)
    (fun name' hname => ?_) (fun s' hs' => ?_) (fun c hc => ?_)
    fun i => hsame.connector (h.connector i)
  · cases name' with
    | acceptor s' =>
      by_cases hne : s' = s
      · simp [Wanted, hne, hself]
      · simp [Wanted, hother s' hne, hne]
    | attempt i k => simp [hsame.wanted]
    | connection c => simp [Wanted, hconnections, hdestroying]
  · cases name' with
    | acceptor s' =>
      simp only [Born, ChannelName.acceptor.injEq, hnumServers] at hname ⊢
      omega
    | attempt i k => simpa [Born, hconnectors] using hname
    | connection c => simpa [Born, hnumConnections] using hname
  · cases name' with
    | acceptor s' =>
      by_cases hne : s' = s
      · simp [Live, hne, hself, hlive]
      · simpa [Live, hother s' hne, hne] using hname
    | attempt i k => simpa [Live, hconnectors] using hname
    | connection c => simpa [Live, hconnections] using hname
  · rw [hnumServers] at hs'
    rw [hother s' (by omega)]
    exact h.unborn s' hs'
  · exact ⟨hdestroying ▸ hc, by rw [hconnections]⟩

/-! ### Attempts -/

/-- `connecting` makes a channel for the attempt and registers it. -/
theorem Tracked.connecting (h : w.Tracked) (halive : (w.connectors i).alive = true) {sockfd : ℕ}
    (hok : w.connecting i sockfd = .ok u) : Kept w u := by
  obtain ⟨hchannel, hok⟩ := require_bind_eq_ok.mp hok
  obtain ⟨poller, hpoller, hu⟩ := setInterest_eq_ok hok
  have hnew : ¬w.Wanted (.attempt i (w.connectors i).made) := fun hw =>
    absurd (h.born hw) (Nat.lt_irrefl _)
  obtain ⟨hholds, hevents, hwrite⟩ := h.register hnew hpoller
  have hself : u.connectors i = { w.connectors i with
      state := .kConnecting
      channel := some (w.connectors i).made
      made := (w.connectors i).made + 1 } := by
    rw [hu]
    exact Function.update_self ..
  have hother : ∀ i' ≠ i, u.connectors i' = w.connectors i' := by
    intro i' hne
    rw [hu]
    exact Function.update_of_ne hne ..
  have hrest : u.servers = w.servers ∧ u.connections = w.connections ∧
      u.destroying = w.destroying ∧ u.numServers = w.numServers ∧
      u.numConnections = w.numConnections ∧ u.numConnectors = w.numConnectors ∧
      u.poller = poller ∧ u.resets = w.resets := by
    rw [hu]
    exact ⟨rfl, rfl, rfl, rfl, rfl, rfl, rfl, rfl⟩
  obtain ⟨hservers, hconnections, hdestroying, hnumServers, hnumConnections, hnumConnectors,
    hpoll, hresets⟩ := hrest
  have hwanted : ∀ name', u.Wanted name' ↔
      name' = .attempt i (w.connectors i).made ∨ w.Wanted name' := by
    intro name'
    cases name' with
    | acceptor s => simp [Wanted, hservers]
    | attempt i' k' =>
      by_cases hne : ChannelName.attempt i' k' = .attempt i (w.connectors i).made
      · rw [hne]
        simp only [Wanted, hpoll, hwrite, true_or, iff_true]
        decide
      · simp only [Wanted, hpoll, hevents _ hne, hne, false_or]
    | connection c => simp [Wanted, hconnections, hdestroying]
  refine h.kept_of_register (.attempt i (w.connectors i).made)
    (by rw [hpoll]; exact hholds) (by rw [hpoll]; exact hevents) hwanted
    (fun name' hname => ?_) (fun name' hname => ?_)
    (by rw [hservers, hnumServers]; exact h.unborn) (fun c hc => ?_) fun i' => ?_
  · cases name' with
    | acceptor s => simpa [Born, hnumServers] using hname
    | attempt i' k' =>
      by_cases hne : i' = i
      · simp only [Born, ChannelName.attempt.injEq, hne, hself, true_and] at hname ⊢
        omega
      · simpa [Born, hother i' hne, hne] using hname
    | connection c => simpa [Born, hnumConnections] using hname
  · cases name' with
    | acceptor s => simpa [Live, hservers] using hname
    | attempt i' k' =>
      by_cases hne : i' = i
      · rw [hne] at hname ⊢
        simp only [Live, ChannelName.attempt.injEq, true_and, hchannel] at hname
        simp only [Live, hself]
        rcases hname with rfl | ⟨_, hno⟩
        · exact ⟨halive, rfl⟩
        · cases hno
      · simpa [Live, hother i' hne, hne] using hname
    | connection c => simpa [Live, hconnections] using hname
  · exact ⟨hdestroying ▸ hc, by rw [hconnections]⟩
  · have hconnector := h.connector i'
    by_cases hne : i' = i
    · subst hne
      have hzero : ¬0 < w.resets i' := fun hpos => by
        obtain ⟨k, hk, _⟩ := hconnector.resets_pos.mp hpos
        cases hchannel.symm.trans hk
      refine ⟨fun hge => ?_, ?_, ?_, fun _ => ?_⟩
      · cases halive.symm.trans (hconnector.unborn (hnumConnectors ▸ hge)).1
      · rw [hresets]
        exact hconnector.resets_le
      · rw [hresets]
        refine ⟨fun hpos => absurd hpos hzero, ?_⟩
        rintro ⟨k, hk, hnot⟩
        rw [hself] at hk
        rw [← Option.some.inj hk] at hnot
        exact absurd ((hwanted _).mpr (Or.inl rfl)) hnot
      · exact ⟨_, by rw [hself], (hwanted _).mpr (Or.inl rfl)⟩
    · have hsame : ∀ k, u.Wanted (.attempt i' k) ↔ w.Wanted (.attempt i' k) := fun k => by
        rw [hwanted]
        simp [hne]
      refine ⟨?_, ?_, ?_, ?_⟩
      · rw [hnumConnectors, hother i' hne]
        exact hconnector.unborn
      · rw [hresets]
        exact hconnector.resets_le
      · rw [hresets, hconnector.resets_pos]
        simp only [Detached, hother i' hne, hsame]
      · rw [hother i' hne]
        simp only [hsame]
        exact hconnector.connecting

/-- An operation past an access succeeds exactly if the object exists and the rest succeeds. -/
theorem access_bind_eq_ok {α : Type} {alive : Bool} {pointer : String}
    {f : Unit → Except Failure α} {a : α} :
    (access alive pointer >>= f) = .ok a ↔ alive = true ∧ f () = .ok a := by
  unfold access
  cases alive with
  | true => simp only [if_true, true_and]; rfl
  | false => simp [bind, Except.bind]

/-- A change of a connector that keeps `channel_`, and does not set `kConnecting`, nor delete
it. -/
theorem Tracked.modifyConnector (h : w.Tracked) (i : ℕ) {f : ConnectorObject → ConnectorObject}
    (halive : (f (w.connectors i)).alive = (w.connectors i).alive)
    (hmade : (f (w.connectors i)).made = (w.connectors i).made)
    (hchannel : (f (w.connectors i)).channel = (w.connectors i).channel)
    (hstate : (f (w.connectors i)).state = .kConnecting →
      (w.connectors i).state = .kConnecting) : Kept w (w.modifyConnector i f) := by
  refine (same_modifyConnector w i (fun hno => halive.trans hno) hmade hchannel hstate).kept h
    fun {name} hname => ?_
  cases name with
  | acceptor s => exact hname
  | connection c => exact hname
  | attempt i' k =>
    by_cases hne : i' = i
    · subst hne
      simp only [Live, LoopObjects.modifyConnector, Function.update_self, halive, hchannel]
      exact hname
    · simp only [Live, LoopObjects.modifyConnector, Function.update_of_ne hne]
      exact hname

/-- `connect` begins an attempt or leaves no channel. -/
theorem Tracked.connect (h : w.Tracked) (halive : (w.connectors i).alive = true) {errno : Errno}
    {sockfd : ℕ} (hok : w.connect i errno sockfd = .ok u) : Kept w u := by
  unfold LoopObjects.connect at hok
  split at hok
  · exact h.connecting halive hok
  · cases hok
    exact h.modifyConnector i rfl rfl rfl fun hno => by cases hno
  · cases hok
    exact h.kept

/-- `startInLoop` begins an attempt or does nothing. -/
theorem Tracked.startInLoop (h : w.Tracked) {errno : Errno} {sockfd : ℕ}
    (hok : w.startInLoop i errno sockfd = .ok u) : Kept w u := by
  obtain ⟨halive, hok⟩ := access_bind_eq_ok.mp hok
  obtain ⟨_, hok⟩ := require_bind_eq_ok.mp hok
  split at hok
  · exact h.connect halive hok
  · cases hok
    exact h.kept

/-- `start` sets `connect_` and begins an attempt. -/
theorem Tracked.startConnector (h : w.Tracked) {errno : Errno} {sockfd : ℕ}
    (hok : w.startConnector i errno sockfd = .ok u) : Kept w u := by
  have hset := h.modifyConnector i (f := fun connector => { connector with connects := true })
    rfl rfl rfl id
  exact hset.trans (hset.tracked.startInLoop hok)

/-- `restart` resets the connector and begins an attempt. -/
theorem Tracked.restartConnector (h : w.Tracked) {errno : Errno} {sockfd : ℕ}
    (hok : w.restartConnector i errno sockfd = .ok u) : Kept w u := by
  have hset := h.modifyConnector i
    (f := fun connector => { connector with state := .kDisconnected, connects := true })
    rfl rfl rfl fun hno => by cases hno
  exact hset.trans (hset.tracked.startInLoop hok)

/-- `removeAndResetChannel` in the middle of an attempt, which then ends in another state,
removes the channel and queues `resetChannel`. -/
theorem Tracked.removeAndResetChannel (h : w.Tracked) (state : ConnectorState)
    (hconnecting : (w.connectors i).state = .kConnecting) (hstate : state ≠ .kConnecting)
    (hok : w.removeAndResetChannel i = .ok v) : Kept w (v.setState i state) := by
  obtain ⟨k, hchannel, hwant⟩ := (h.connector i).connecting hconnecting
  unfold LoopObjects.removeAndResetChannel at hok
  rw [hchannel] at hok
  obtain ⟨v₁, hdisable, hok⟩ := bind_eq_ok.mp hok
  obtain ⟨v₂, hremove, hreturn⟩ := bind_eq_ok.mp hok
  obtain ⟨p₁, hp₁, rfl⟩ := setInterest_eq_ok hdisable
  obtain ⟨p₂, hp₂, rfl⟩ := removeChannel_eq_ok hremove
  generalize hu : v.setState i state = u
  have hevents : ∀ name ≠ .attempt i k,
      (p₂.channel name).events = (w.poller.channel name).events := by
    intro name hne
    rw [Poller.removeChannel_events hp₂, Poller.setInterest_events hp₁, if_neg hne]
  have hnone : (p₂.channel (.attempt i k)).events = Channel.kNoneEvent := by
    rw [Poller.removeChannel_events hp₂, Poller.setInterest_events hp₁, if_pos rfl]
    rfl
  have hself : u.connectors i = { w.connectors i with state := state } := by
    rw [← hu, ← Except.ok.inj hreturn]
    exact Function.update_self ..
  have hother : ∀ i' ≠ i, u.connectors i' = w.connectors i' := by
    intro i' hne
    rw [← hu, ← Except.ok.inj hreturn]
    exact Function.update_of_ne hne ..
  have hrest : u.servers = w.servers ∧ u.connections = w.connections ∧
      u.destroying = w.destroying ∧ u.numServers = w.numServers ∧
      u.numConnections = w.numConnections ∧ u.numConnectors = w.numConnectors ∧
      u.poller = p₂ ∧ u.phase = w.phase ∧
      u.pendingFunctors = w.pendingFunctors ++ [.resetChannel i] := by
    rw [← hu, ← Except.ok.inj hreturn]
    exact ⟨rfl, rfl, rfl, rfl, rfl, rfl, rfl, rfl, rfl⟩
  obtain ⟨hservers, hconnections, hdestroying, hnumServers, hnumConnections, hnumConnectors,
    hpoll, hphase, hpending⟩ := hrest
  have hresets : ∀ i', u.resets i' = w.resets i' + if i' = i then 1 else 0 := by
    intro i'
    unfold resets
    rw [hphase, hpending, ← List.append_assoc, List.count_append]
    by_cases hne : i' = i
    · simp [hne]
    · simp [hne, Ne.symm hne]
  have hwanted : ∀ name, u.Wanted name ↔ name ≠ .attempt i k ∧ w.Wanted name := by
    intro name
    cases name with
    | acceptor s => simp [Wanted, hservers]
    | attempt i' k' =>
      by_cases hne : ChannelName.attempt i' k' = .attempt i k
      · simp only [Wanted, hpoll, hne, hnone, ne_eq, not_true_eq_false, false_and]
      · simp only [Wanted, hpoll, hevents _ hne, ne_eq, hne, not_false_eq_true, true_and]
    | connection c => simp [Wanted, hconnections, hdestroying]
  refine ⟨⟨?_, fun {name} hname => ?_, ?_, fun c hc => ?_, fun c hc => ?_, fun i' => ?_⟩,
    fun {name} hname => ?_, fun {name} hname => Or.inl ((hwanted name).mp hname).2⟩
  · rw [hpoll]
    refine ((h.holds.setInterest hp₁).removeChannel hp₂).congr fun name => ?_
    rw [hwanted]
    exact ⟨fun hand => ⟨hand.1, hand.2.resolve_left hand.1⟩, fun hand => ⟨hand.1, Or.inr hand.2⟩⟩
  · have hborn := h.born ((hwanted name).mp hname).2
    cases name with
    | acceptor s => simpa [Born, hnumServers] using hborn
    | attempt i' k' =>
      by_cases hne : i' = i
      · rw [hne] at hborn ⊢
        simpa [Born, hself] using hborn
      · simpa [Born, hother i' hne] using hborn
    | connection c => simpa [Born, hnumConnections] using hborn
  · rw [hservers, hnumServers]
    exact h.unborn
  · rw [hpoll, hevents _ (by simp)]
    exact h.disabled c fun hw => hc ((hwanted _).mpr ⟨by simp, hw⟩)
  · rw [hconnections]
    exact h.destroying c (hdestroying ▸ hc)
  · have hconnector := h.connector i'
    by_cases hne : i' = i
    · subst hne
      have hzero : ¬0 < w.resets i' := fun hpos => by
        obtain ⟨k', hk', hnot⟩ := hconnector.resets_pos.mp hpos
        rw [hchannel] at hk'
        exact hnot (Option.some.inj hk' ▸ hwant)
      refine ⟨?_, ?_, ?_, fun hno => ?_⟩
      · rw [hnumConnectors, hself]
        exact hconnector.unborn
      · rw [hresets, if_pos rfl]
        omega
      · rw [hresets, if_pos rfl]
        refine ⟨fun _ => ⟨k, ?_, ?_⟩, fun _ => by omega⟩
        · rw [hself]
          exact hchannel
        · rw [hwanted]
          exact fun hand => hand.1 rfl
      · rw [hself] at hno
        exact absurd hno hstate
    · have hsame : ∀ k', u.Wanted (.attempt i' k') ↔ w.Wanted (.attempt i' k') := fun k' => by
        rw [hwanted]
        simp [hne]
      refine ⟨?_, ?_, ?_, ?_⟩
      · rw [hnumConnectors, hother i' hne]
        exact hconnector.unborn
      · rw [hresets, if_neg hne]
        exact hconnector.resets_le
      · rw [hresets, if_neg hne, Nat.add_zero, hconnector.resets_pos]
        simp only [Detached, hother i' hne, hsame]
      · rw [hother i' hne]
        simp only [hsame]
        exact hconnector.connecting
  · cases name with
    | acceptor s => simpa [Live, hservers] using hname
    | attempt i' k' =>
      by_cases hne : i' = i
      · rw [hne] at hname ⊢
        simpa [Live, hself] using hname
      · simpa [Live, hother i' hne] using hname
    | connection c => simpa [Live, hconnections] using hname

end LoopObjects

end Dalin.Net
