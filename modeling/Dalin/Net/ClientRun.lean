import Dalin.Net.ConnectorRun
import Dalin.Net.TcpClient

/-!
# Runs of a client

The sockets of a client pass from the connector to a connection within one
handler, and the channels of both are removed from the Poller before their
sockets are closed. This file states what links the connections with the Poller
and the queue, and shows that every step of a client keeps it, whatever the user
calls and whenever.
-/

set_option autoImplicit false

namespace Dalin.Net

open Transition

/-- A field that an assignment keeps is the same for all connections. -/
theorem field_update {β : Type} (field : ClientConnection → β) {conn : ℕ → ClientConnection}
    {n : ℕ} {x : ClientConnection} (hx : field x = field (conn n)) (m : ℕ) :
    field (Function.update conn n x m) = field (conn m) := by
  by_cases heq : m = n
  · rw [heq, Function.update_self]
    exact hx
  · rw [Function.update_of_ne heq]

/-- What links the connections of a client with its loop. -/
structure Ledger (c : Connector) (conn : ℕ → ClientConnection) (nextConnId : ℕ)
    (connection : Option ℕ) : Prop where
  created : ∀ n, (conn n).alive = true → n < nextConnId
  opened : ∀ n, (conn n).alive = true → (conn n).fd ∈ c.sockets
  distinct : ∀ m n, (conn m).alive = true → (conn n).alive = true →
    (conn m).fd = (conn n).fd → m = n
  /-- No other channel is registered for the socket of a connection. -/
  owner : ∀ n, (conn n).alive = true → ∀ r ∈ c.channels, r.fd = (conn n).fd →
    r.owner = .connection n
  registered : ∀ r ∈ c.channels, ∀ n, r.owner = .connection n →
    ((conn n).alive = true ∧ r.fd = (conn n).fd) ∧
      ((conn n).state = .kConnected ∨ (conn n).state = .kDisconnecting) ∧
      (r.interested = true → connection = some n)
  current : ∀ n, connection = some n → n + 1 = nextConnId ∧ (conn n).closed = false ∧
    c.Registered (conn n).fd (.connection n)
  queued : ∀ n, .connectDestroyed n ∈ c.queued → (conn n).closed = true ∧
    c.Registered (conn n).fd (.connection n)
  once : ∀ n, c.queued.count (.connectDestroyed n) ≤ 1
  active : ∀ n, .connection n ∈ c.phase.active → n < nextConnId ∧
    ((conn n).closed = false → connection = some n)

namespace Ledger

variable {c c' : Connector} {conn : ℕ → ClientConnection} {nextConnId : ℕ}
  {connection : Option ℕ} {errno : Errno} {sockfd : ℕ}

/-- A connection that is registered exists. -/
theorem alive (h : Ledger c conn nextConnId connection) {n fd : ℕ}
    (hregistered : c.Registered fd (.connection n)) :
    (conn n).alive = true ∧ fd = (conn n).fd := by
  obtain ⟨r, hr, rfl, howner⟩ := hregistered
  exact (h.registered r hr n howner).1

/-- The connector changes, but not the channels and functors of the connections. -/
theorem of_connector (h : Ledger c conn nextConnId connection)
    (hothers : ∀ r : Registration, ∀ n, r.owner = .connection n →
      (r ∈ c'.channels ↔ r ∈ c.channels))
    (hopened : ∀ n, (conn n).alive = true → (conn n).fd ∈ c'.sockets)
    (hnew : ∀ r ∈ c'.channels, r.owner = .connector → ∀ n, (conn n).alive = true →
      r.fd ≠ (conn n).fd)
    (hqueued : ∀ n, c'.queued.count (.connectDestroyed n) ≤ c.queued.count (.connectDestroyed n))
    (hactive : ∀ n, .connection n ∈ c'.phase.active → n < nextConnId ∧
      ((conn n).closed = false → connection = some n)) :
    Ledger c' conn nextConnId connection := by
  have hregistered : ∀ fd n, c.Registered fd (.connection n) →
      c'.Registered fd (.connection n) := by
    rintro fd n ⟨r, hr, hfd, howner⟩
    exact ⟨r, (hothers r n howner).mpr hr, hfd, howner⟩
  constructor
  · exact h.created
  · exact hopened
  · exact h.distinct
  · intro n hn r hr hfd
    cases howner : r.owner with
    | connector => exact absurd hfd (hnew r hr howner n hn)
    | connection m =>
      rw [← howner]
      exact h.owner n hn r ((hothers r m howner).mp hr) hfd
  · exact fun r hr n howner => h.registered r ((hothers r n howner).mp hr) n howner
  · intro n hn
    obtain ⟨hlast, hclosed, hreg⟩ := h.current n hn
    exact ⟨hlast, hclosed, hregistered _ n hreg⟩
  · intro n hn
    have hpos := (List.count_pos_iff.mpr hn).trans_le (hqueued n)
    obtain ⟨hclosed, hreg⟩ := h.queued n (List.count_pos_iff.mp hpos)
    exact ⟨hclosed, hregistered _ n hreg⟩
  · exact fun n => (hqueued n).trans (h.once n)
  · exact hactive

/-- Only the Poller, the open sockets, the queue and the active channels matter. -/
theorem of_same (h : Ledger c conn nextConnId connection) (hchannels : c'.channels = c.channels)
    (hsockets : c'.sockets = c.sockets)
    (hqueued : ∀ n, c'.queued.count (.connectDestroyed n) ≤ c.queued.count (.connectDestroyed n))
    (hactive : ∀ owner ∈ c'.phase.active, owner ∈ c.phase.active) :
    Ledger c' conn nextConnId connection := by
  refine h.of_connector (fun r n _ => by rw [hchannels]) (fun n hn => ?_)
    (fun r hr howner n hn hfd => ?_) hqueued fun n hn => h.active n (hactive _ hn)
  · rw [hsockets]
    exact h.opened n hn
  · rw [hchannels] at hr
    cases howner.symm.trans (h.owner n hn r hr hfd)

/-- Only `state_` of the connections changes, and registered ones stay open. -/
theorem of_state {conn' : ℕ → ClientConnection} (h : Ledger c conn nextConnId connection)
    (hfd : ∀ m, (conn' m).fd = (conn m).fd) (halive : ∀ m, (conn' m).alive = (conn m).alive)
    (hclosed : ∀ m, (conn' m).closed = (conn m).closed)
    (hstate : ∀ m, c.Registered (conn m).fd (.connection m) →
      (conn m).state = .kConnected ∨ (conn m).state = .kDisconnecting →
      (conn' m).state = .kConnected ∨ (conn' m).state = .kDisconnecting) :
    Ledger c conn' nextConnId connection := by
  constructor
  · intro m hm
    exact h.created m (halive m ▸ hm)
  · intro m hm
    rw [hfd m]
    exact h.opened m (halive m ▸ hm)
  · intro m k hm hk heq
    rw [hfd m, hfd k] at heq
    exact h.distinct m k (halive m ▸ hm) (halive k ▸ hk) heq
  · intro m hm r hr heq
    exact h.owner m (halive m ▸ hm) r hr (hfd m ▸ heq)
  · intro r hr m howner
    obtain ⟨hm, hopen, hinterested⟩ := h.registered r hr m howner
    rw [hfd m, halive m]
    exact ⟨hm, hstate m ⟨r, hr, hm.2, howner⟩ hopen, hinterested⟩
  · intro m hm
    rw [hfd m, hclosed m]
    exact h.current m hm
  · intro m hm
    rw [hfd m, hclosed m]
    exact h.queued m hm
  · exact h.once
  · intro m hm
    rw [hclosed m]
    exact h.active m hm

/-- A new socket is not that of a connection. -/
theorem fresh (h : Ledger c conn nextConnId connection) (hfresh : sockfd ∉ c.sockets) {n : ℕ}
    (hn : (conn n).alive = true) : sockfd ≠ (conn n).fd := by
  rintro rfl
  exact hfresh (h.opened n hn)

/-- The socket of an attempt is not that of a connection. -/
theorem fd_ne (h : Ledger c conn nextConnId connection)
    (hregistered : c.Registered sockfd .connector) {n : ℕ} (hn : (conn n).alive = true) :
    (conn n).fd ≠ sockfd := by
  intro hfd
  obtain ⟨r, hr, hrfd, howner⟩ := hregistered
  cases howner.symm.trans (h.owner n hn r hr (hrfd.trans hfd.symm))

/-- The connector calls `::connect` with a new socket. -/
theorem attempted (h : Ledger c conn nextConnId connection) (hfresh : sockfd ∉ c.sockets) :
    Ledger (c.attempted errno sockfd) conn nextConnId connection := by
  unfold Connector.attempted
  cases errno.branch with
  | connecting =>
    refine h.of_connector (fun r n howner => ?_) (fun n hn => ?_) (fun r hr howner n hn hfd => ?_)
      (fun _ => Nat.le_refl _) h.active
    · refine ⟨fun hr => ?_, List.mem_cons_of_mem _⟩
      rcases List.mem_cons.mp hr with rfl | hr
      · cases howner
      · exact hr
    · exact List.mem_cons_of_mem _ (h.opened n hn)
    · rcases List.mem_cons.mp hr with rfl | hr
      · exact h.fresh hfresh hn hfd
      · cases howner.symm.trans (h.owner n hn r hr hfd)
  | retry =>
    have hsockets : (sockfd :: c.sockets).erase sockfd = c.sockets :=
      List.erase_cons_head ..
    change Ledger (Connector.retry _ sockfd) conn nextConnId connection
    unfold Connector.retry
    split <;> exact h.of_same rfl hsockets (fun _ => Nat.le_refl _) fun _ => id
  | close => exact h.of_same rfl rfl (fun _ => Nat.le_refl _) fun _ => id

/-- The channel of the connector is removed, and its socket is closed or handed over. -/
theorem detached {rest : List ChannelOwner} (h : Ledger c conn nextConnId connection)
    (hregistered : c.Registered sockfd .connector)
    (hphase : c.phase = .channels (.connector :: rest))
    (hchannels : c'.channels = (c.detached sockfd).channels)
    (hsockets : ∀ fd ∈ c.sockets, fd ≠ sockfd → fd ∈ c'.sockets)
    (hpending : c'.pendingFunctors = (c.detached sockfd).pendingFunctors)
    (hphase' : c'.phase = c.phase) : Ledger c'.handlerDone conn nextConnId connection := by
  have hne := fun n => h.fd_ne (n := n) hregistered
  have hrest : c'.handlerDone.phase = .channels rest := by
    unfold Connector.handlerDone
    rw [hphase', hphase]
    rfl
  have hmem : ∀ r, r ∈ c'.channels ↔ r ∈ c.channels ∧ r.fd ≠ sockfd := by
    intro r
    rw [hchannels]
    simp [Connector.detached]
  refine h.of_connector (fun r n howner => ⟨fun hr => ((hmem r).mp hr).1, fun hr => ?_⟩)
    (fun n hn => hsockets _ (h.opened n hn) (hne n hn)) (fun r hr howner n hn hfd => ?_)
    (fun n => ?_) fun n hn => h.active n ?_
  · obtain ⟨⟨hn, hfd⟩, _⟩ := h.registered r hr n howner
    exact (hmem r).mpr ⟨hr, hfd ▸ hne n hn⟩
  · cases howner.symm.trans (h.owner n hn r ((hmem r).mp hr).1 hfd)
  · have hqueue : c'.handlerDone.pendingFunctors = c.pendingFunctors ++ [.resetChannel] := hpending
    unfold Connector.queued
    rw [hrest, hphase, hqueue]
    simp [LoopPhase.batch, List.count_append]
  · rw [hphase]
    rw [hrest] at hn
    exact List.mem_cons_of_mem _ hn

/-- Whatever the handler of the connector's channel does, the connections are not touched. -/
theorem handled {rest : List ChannelOwner} {handed : Option ℕ} {success : Bool}
    (h : Ledger c conn nextConnId connection) (hregistered : c.Registered sockfd .connector)
    (hphase : c.phase = .channels (.connector :: rest))
    (hhandled : Connector.Handled c sockfd success (c', handed)) :
    Ledger c'.handlerDone conn nextConnId connection := by
  have hclose : ∀ fd ∈ c.sockets, fd ≠ sockfd → fd ∈ c.sockets.erase sockfd :=
    fun fd hfd hne => (List.mem_erase_of_ne hne).mpr hfd
  cases hhandled with
  | untouched =>
    refine h.of_same rfl rfl (fun n => ?_) fun owner howner => ?_
    · unfold Connector.queued Connector.handlerDone
      rw [hphase]
      exact Nat.le_refl _
    · change owner ∈ c.phase.active.tail at howner
      exact List.mem_of_mem_tail howner
  | failed =>
    unfold Connector.retry
    split <;> exact h.detached hregistered hphase rfl hclose rfl rfl
  | connected => exact h.detached hregistered hphase rfl (fun _ hfd _ => hfd) rfl rfl
  | stopped => exact h.detached hregistered hphase rfl hclose rfl rfl

/-- `newConnection` makes a connection of the socket that was handed over. -/
theorem newConnection (h : Ledger c conn nextConnId none) (hunknown : c.Unknown sockfd)
    (hopen : sockfd ∈ c.sockets) (hne : ∀ n, (conn n).alive = true → (conn n).fd ≠ sockfd) :
    Ledger { c with channels := ⟨sockfd, .connection nextConnId, true⟩ :: c.channels }
      (Function.update conn nextConnId ⟨sockfd, .kConnected, false, true⟩) (nextConnId + 1)
      (some nextConnId) := by
  have hnew : (conn nextConnId).alive ≠ true := fun hn => Nat.lt_irrefl _ (h.created _ hn)
  have hold : ∀ n, (conn n).alive = true → Function.update conn nextConnId
      ⟨sockfd, .kConnected, false, true⟩ n = conn n := by
    intro n hn
    refine Function.update_of_ne ?_ _ _
    rintro rfl
    exact hnew hn
  have hcases : ∀ n, (Function.update conn nextConnId
      ⟨sockfd, .kConnected, false, true⟩ n).alive = true →
      n = nextConnId ∨ (conn n).alive = true := by
    intro n hn
    by_cases heq : n = nextConnId
    · exact Or.inl heq
    · rw [Function.update_of_ne heq] at hn
      exact Or.inr hn
  constructor
  · intro n hn
    rcases hcases n hn with rfl | hn
    · omega
    · have := h.created n hn
      omega
  · intro n hn
    rcases hcases n hn with rfl | hn
    · rw [Function.update_self]
      exact hopen
    · rw [hold n hn]
      exact h.opened n hn
  · intro m n hm hn hfd
    rcases hcases m hm with hm' | hm' <;> rcases hcases n hn with hn' | hn'
    · exact hm'.trans hn'.symm
    · rw [hm', Function.update_self, hold n hn'] at hfd
      exact absurd hfd.symm (hne n hn')
    · rw [hn', Function.update_self, hold m hm'] at hfd
      exact absurd hfd (hne m hm')
    · rw [hold m hm', hold n hn'] at hfd
      exact h.distinct m n hm' hn' hfd
  · intro n hn r hr hfd
    rcases hcases n hn with rfl | hn
    · rw [Function.update_self] at hfd
      rcases List.mem_cons.mp hr with rfl | hr
      · rfl
      · exact absurd hfd (hunknown r hr)
    · rw [hold n hn] at hfd
      rcases List.mem_cons.mp hr with rfl | hr
      · exact absurd hfd.symm (hne n hn)
      · exact h.owner n hn r hr hfd
  · intro r hr n howner
    rcases List.mem_cons.mp hr with rfl | hr
    · cases howner
      rw [Function.update_self]
      exact ⟨⟨rfl, rfl⟩, Or.inl rfl, fun _ => rfl⟩
    · obtain ⟨⟨hn, hfd⟩, hstate, hinterested⟩ := h.registered r hr n howner
      rw [hold n hn]
      exact ⟨⟨hn, hfd⟩, hstate, fun hi => by cases hinterested hi⟩
  · intro n hn
    cases hn
    rw [Function.update_self]
    exact ⟨rfl, rfl, _, List.mem_cons_self, rfl, rfl⟩
  · intro n hn
    obtain ⟨hclosed, r, hr, hfd, howner⟩ := h.queued n hn
    rw [hold n (h.registered r hr n howner).1.1]
    exact ⟨hclosed, r, List.mem_cons_of_mem _ hr, hfd, howner⟩
  · exact h.once
  · intro n hn
    obtain ⟨hlt, hcurrent⟩ := h.active n hn
    rw [Function.update_of_ne (by omega)]
    exact ⟨by omega, fun hclosed => by cases hcurrent hclosed⟩

/-- The connection is lost: its events are disabled and its functor is queued. -/
theorem closed {n : ℕ} (h : Ledger c conn nextConnId (some n)) :
    Ledger { c with
      channels := Connector.disabled c.channels (conn n).fd
      pendingFunctors := c.pendingFunctors ++ [.connectDestroyed n] }
      (Function.update conn n { conn n with closed := true }) nextConnId none := by
  obtain ⟨hlast, hopen, hreg⟩ := h.current n rfl
  have hsame : ∀ m, ((Function.update conn n { conn n with closed := true } m).fd = (conn m).fd ∧
      (Function.update conn n { conn n with closed := true } m).alive = (conn m).alive) ∧
      (Function.update conn n { conn n with closed := true } m).state = (conn m).state :=
    fun m => ⟨⟨field_update ClientConnection.fd (by rfl) m,
      field_update ClientConnection.alive (by rfl) m⟩,
      field_update ClientConnection.state (by rfl) m⟩
  constructor
  · intro m hm
    rw [(hsame m).1.2] at hm
    exact h.created m hm
  · intro m hm
    rw [(hsame m).1.2] at hm
    rw [(hsame m).1.1]
    exact h.opened m hm
  · intro m k hm hk hfd
    rw [(hsame m).1.2] at hm
    rw [(hsame k).1.2] at hk
    rw [(hsame m).1.1, (hsame k).1.1] at hfd
    exact h.distinct m k hm hk hfd
  · intro m hm r' hr' hfd
    obtain ⟨r, hr, hrfd, howner, _⟩ := Connector.mem_disabled hr'
    rw [(hsame m).1.2] at hm
    rw [(hsame m).1.1, hrfd] at hfd
    exact howner.trans (h.owner m hm r hr hfd)
  · intro r' hr' m howner'
    obtain ⟨r, hr, hrfd, howner, hinterested⟩ := Connector.mem_disabled hr'
    obtain ⟨⟨hm, hfd⟩, hstate, hcurrent⟩ := h.registered r hr m (howner.symm.trans howner')
    rw [(hsame m).1.1, (hsame m).1.2, (hsame m).2, hrfd]
    refine ⟨⟨hm, hfd⟩, hstate, fun hi => ?_⟩
    obtain ⟨hi, hne⟩ := hinterested hi
    cases hcurrent hi
    exact absurd hfd hne
  · intro m hm
    cases hm
  · intro m hm
    change _ ∈ c.phase.batch ++ (c.pendingFunctors ++ [.connectDestroyed n]) at hm
    rw [← List.append_assoc] at hm
    rcases List.mem_append.mp hm with hm | hm
    · obtain ⟨hclosed, hreg⟩ := h.queued m hm
      rw [(hsame m).1.1]
      refine ⟨?_, hreg.disabled _⟩
      by_cases heq : m = n
      · rw [heq, Function.update_self]
      · rw [Function.update_of_ne heq]
        exact hclosed
    · cases List.mem_singleton.mp hm
      rw [Function.update_self]
      exact ⟨rfl, hreg.disabled _⟩
  · intro m
    change (c.phase.batch ++ (c.pendingFunctors ++
      [QueuedFunctor.connectDestroyed n])).count _ ≤ 1
    rw [← List.append_assoc, List.count_append]
    change c.queued.count _ + _ ≤ 1
    by_cases heq : m = n
    · have hnone : QueuedFunctor.connectDestroyed m ∉ c.queued := by
        intro hm
        rw [heq] at hm
        cases hopen.symm.trans (h.queued n hm).1
      rw [List.count_eq_zero.mpr hnone, heq]
      simp
    · have := h.once m
      simpa [List.count_singleton, Ne.symm heq] using this
  · intro m hm
    obtain ⟨hlt, hcurrent⟩ := h.active m hm
    refine ⟨hlt, fun hclosed => ?_⟩
    by_cases heq : m = n
    · rw [heq, Function.update_self] at hclosed
      cases hclosed
    · rw [Function.update_of_ne heq] at hclosed
      exact absurd (Option.some.inj (hcurrent hclosed)).symm heq

/-- `connectDestroyed` removes the channel of its connection. -/
theorem destroyed {n : ℕ} {rest : List QueuedFunctor} (h : Ledger c conn nextConnId connection)
    (hphase : c.phase = .functors (.connectDestroyed n :: rest)) :
    Ledger { c with
      channels := c.channels.filter fun r => r.fd ≠ (conn n).fd
      phase := .functors rest }
      (Function.update conn n { conn n with state := .kDisconnected }) nextConnId connection := by
  have hqueue : c.queued = .connectDestroyed n :: (rest ++ c.pendingFunctors) := by
    unfold Connector.queued
    rw [hphase]
    rfl
  obtain ⟨hclosed, hreg⟩ := h.queued n (by rw [hqueue]; exact List.mem_cons_self)
  obtain ⟨hn, _⟩ := h.alive hreg
  have hmem : ∀ r, r ∈ c.channels.filter (fun r => r.fd ≠ (conn n).fd) ↔
      r ∈ c.channels ∧ r.fd ≠ (conn n).fd := by simp
  have hregistered : ∀ m, m ≠ n → c.Registered (conn m).fd (.connection m) →
      ∃ r ∈ c.channels.filter (fun r => r.fd ≠ (conn n).fd),
        r.fd = (conn m).fd ∧ r.owner = .connection m := by
    rintro m hne ⟨r, hr, hfd, howner⟩
    obtain ⟨⟨hm, _⟩, _⟩ := h.registered r hr m howner
    refine ⟨r, (hmem r).mpr ⟨hr, fun heq => hne ?_⟩, hfd, howner⟩
    exact h.distinct m n hm hn (hfd.symm.trans heq)
  have honce := h.once n
  rw [hqueue, List.count_cons_self] at honce
  have hremoved : Ledger { c with
      channels := c.channels.filter fun r => r.fd ≠ (conn n).fd
      phase := .functors rest } conn nextConnId connection := by
    constructor
    · exact h.created
    · exact h.opened
    · exact h.distinct
    · exact fun m hm r hr => h.owner m hm r ((hmem r).mp hr).1
    · exact fun r hr => h.registered r ((hmem r).mp hr).1
    · intro m hm
      obtain ⟨hlast, hopen, hreg⟩ := h.current m hm
      refine ⟨hlast, hopen, hregistered m ?_ hreg⟩
      rintro rfl
      cases hopen.symm.trans hclosed
    · intro m hm
      change _ ∈ rest ++ c.pendingFunctors at hm
      obtain ⟨hclosed, hreg⟩ := h.queued m (by rw [hqueue]; exact List.mem_cons_of_mem _ hm)
      refine ⟨hclosed, hregistered m ?_ hreg⟩
      rintro rfl
      have hpos := List.count_pos_iff.mpr hm
      omega
    · intro m
      have hle := h.once m
      rw [hqueue, List.count_cons] at hle
      change (rest ++ c.pendingFunctors).count _ ≤ 1
      omega
    · intro m hm
      cases hm
  refine hremoved.of_state (field_update ClientConnection.fd (by rfl))
    (field_update ClientConnection.alive (by rfl)) (field_update ClientConnection.closed (by rfl))
    fun m hm hopen => ?_
  obtain ⟨r, hr, hfd, _⟩ := hm
  have hne : m ≠ n := fun heq => ((hmem r).mp hr).2 (heq ▸ hfd)
  rwa [Function.update_of_ne hne]

/-- The last owner of a destroyed connection is gone, and its socket is closed. -/
theorem released {n : ℕ} (h : Ledger c conn nextConnId connection)
    (hstate : (conn n).state = .kDisconnected) (hn : (conn n).alive = true) :
    (∀ r ∈ c.channels, r.fd ≠ (conn n).fd) ∧
      Ledger (c.close (conn n).fd) (Function.update conn n { conn n with alive := false })
        nextConnId connection := by
  have hnot : ∀ fd, ¬ c.Registered fd (.connection n) := by
    rintro fd ⟨r, hr, _, howner⟩
    rcases (h.registered r hr n howner).2.1 with h' | h' <;> cases hstate.symm.trans h'
  have hunknown : ∀ r ∈ c.channels, r.fd ≠ (conn n).fd := fun r hr hfd =>
    hnot r.fd ⟨r, hr, rfl, h.owner n hn r hr hfd⟩
  have hne : ∀ m, (Function.update conn n { conn n with alive := false } m).alive = true →
      m ≠ n ∧ (conn m).alive = true := by
    intro m hm
    by_cases heq : m = n
    · rw [heq, Function.update_self] at hm
      cases hm
    · rw [Function.update_of_ne heq] at hm
      exact ⟨heq, hm⟩
  refine ⟨hunknown, ?_⟩
  constructor
  · exact fun m hm => h.created m (hne m hm).2
  · intro m hm
    obtain ⟨heq, hm⟩ := hne m hm
    rw [Function.update_of_ne heq]
    refine (List.mem_erase_of_ne fun hfd => heq ?_).mpr (h.opened m hm)
    exact h.distinct m n hm hn hfd
  · intro m k hm hk hfd
    obtain ⟨hmn, hm⟩ := hne m hm
    obtain ⟨hkn, hk⟩ := hne k hk
    rw [Function.update_of_ne hmn, Function.update_of_ne hkn] at hfd
    exact h.distinct m k hm hk hfd
  · intro m hm r hr hfd
    obtain ⟨heq, hm⟩ := hne m hm
    rw [Function.update_of_ne heq] at hfd
    exact h.owner m hm r hr hfd
  · intro r hr m howner
    have heq : m ≠ n := fun heq => hnot r.fd ⟨r, hr, rfl, heq ▸ howner⟩
    rw [Function.update_of_ne heq]
    exact h.registered r hr m howner
  · intro m hm
    have hcurrent := h.current m hm
    have heq : m ≠ n := fun heq => hnot _ (heq ▸ hcurrent.2.2)
    rw [Function.update_of_ne heq]
    exact hcurrent
  · intro m hm
    have hqueued := h.queued m hm
    have heq : m ≠ n := fun heq => hnot _ (heq ▸ hqueued.2)
    rw [Function.update_of_ne heq]
    exact hqueued
  · exact h.once
  · intro m hm
    obtain ⟨hlt, hcurrent⟩ := h.active m hm
    refine ⟨hlt, fun hopen => hcurrent ?_⟩
    by_cases heq : m = n
    · rw [heq, Function.update_self] at hopen
      rw [heq]
      exact hopen
    · rwa [Function.update_of_ne heq] at hopen

/-- A connection that shuts down stays open for its peer. -/
theorem shutdown (n : ℕ) (h : Ledger c conn nextConnId connection) :
    Ledger c (Function.update conn n
      (if (conn n).state = .kConnected then { conn n with state := .kDisconnecting } else conn n))
      nextConnId connection := by
  split
  · refine h.of_state (field_update ClientConnection.fd (by rfl))
      (field_update ClientConnection.alive (by rfl))
      (field_update ClientConnection.closed (by rfl)) fun m _ hopen => ?_
    by_cases heq : m = n
    · rw [heq, Function.update_self]
      exact Or.inr rfl
    · rwa [Function.update_of_ne heq]
  · rw [Function.update_eq_self]
    exact h

end Ledger

/-- What every run of a client keeps. -/
structure Settled (c : Connector) (conn : ℕ → ClientConnection) (nextConnId : ℕ)
    (connection : Option ℕ) : Prop where
  coherent : c.Coherent
  ledger : Ledger c conn nextConnId connection
  linked : connection ≠ none → c.state = .kConnected

namespace Settled

variable {c c' : Connector} {conn : ℕ → ClientConnection} {nextConnId : ℕ}
  {connection : Option ℕ} {errno : Errno} {sockfd : ℕ}

/-- The connector changes in a way that the connections do not see. -/
theorem of_connector (h : Settled c conn nextConnId connection) (hcoherent : c'.Coherent)
    (hchannels : c'.channels = c.channels) (hsockets : c'.sockets = c.sockets)
    (hqueued : ∀ n, c'.queued.count (.connectDestroyed n) ≤ c.queued.count (.connectDestroyed n))
    (hactive : ∀ owner ∈ c'.phase.active, owner ∈ c.phase.active)
    (hstate : c'.state = c.state) : Settled c' conn nextConnId connection :=
  ⟨hcoherent, h.ledger.of_same hchannels hsockets hqueued hactive,
    fun hne => hstate.trans (h.linked hne)⟩

/-- While the connector is not connected, there is no connection. -/
theorem connection_eq_none (h : Settled c conn nextConnId connection)
    (hstate : c.state ≠ .kConnected) : connection = none := by
  by_contra hne
  exact hstate (h.linked hne)

/-- `startInLoop` is called without a connection. -/
theorem startInLoop (h : Settled c conn nextConnId connection) (hfresh : sockfd ∉ c.sockets)
    (hok : c.startInLoop errno sockfd = .ok c') : Settled c' conn nextConnId connection := by
  obtain ⟨hstate, _, hc⟩ := Connector.startInLoop_eq_ok.mp hok
  have hnone := h.connection_eq_none (by simp [hstate])
  refine ⟨h.coherent.startInLoop hok, ?_, fun hne => absurd hnone hne⟩
  rw [hc]
  split
  · exact h.ledger.attempted hfresh
  · exact h.ledger

/-- A retry timer runs. -/
theorem runTimer (h : Settled c conn nextConnId connection) (hfresh : sockfd ∉ c.sockets)
    (hok : c.runTimer errno sockfd = .ok c') : Settled c' conn nextConnId connection := by
  unfold Connector.runTimer at hok
  split at hok
  · rename_i timer rest active hphase
    have hpopped : Settled { c with phase := .timers rest active } conn nextConnId connection := by
      refine h.of_connector (h.coherent.timerTaken hphase) rfl rfl (fun _ => ?_)
        (fun _ hactive => ?_) rfl
      · unfold Connector.queued
        rw [hphase]
        exact Nat.le_refl _
      · rw [hphase]
        exact hactive
    exact hpopped.startInLoop hfresh hok
  · cases hok
    exact h

/-- The loop polls: only the current connection may be reported. -/
theorem poll {expired : List ℕ} {active : List ChannelOwner}
    (h : Settled c conn nextConnId connection) (hfound : c.MayFind expired active) :
    Settled (c.poll expired active) conn nextConnId connection := by
  refine ⟨h.coherent.poll hfound, h.ledger.of_connector (fun _ _ _ => Iff.rfl) h.ledger.opened
    (fun r hr howner n hn hfd => ?_) (fun n => ?_) (fun n hn => ?_), h.linked⟩
  · cases howner.symm.trans (h.ledger.owner n hn r hr hfd)
  · have hphase := hfound.1
    refine Nat.le_of_eq ?_
    unfold Connector.queued Connector.poll
    rw [hphase]
    rfl
  · obtain ⟨r, hr, howner, hinterested⟩ := hfound.2.2.2 _ hn
    obtain ⟨⟨halive, _⟩, _, hcurrent⟩ := h.ledger.registered r hr n howner
    exact ⟨h.ledger.created n halive, fun _ => hcurrent hinterested⟩

end Settled

namespace TcpClient

variable {t u : TcpClient} {errno : Errno} {sockfd : ℕ}

/-- The client keeps what every run keeps. -/
def Settled (t : TcpClient) : Prop := Net.Settled t.connector t.conn t.nextConnId t.connection

/-- The initial state is settled. -/
theorem Settled.of_init (h : clientSystem.init t) : t.Settled := by
  cases h
  refine ⟨.of_new, ?_, fun h => absurd rfl h⟩
  constructor
  · intro n hn
    cases hn
  · intro n hn
    cases hn
  · intro m n hm
    cases hm
  · intro n hn
    cases hn
  · intro r hr
    cases hr
  · intro n hn
    cases hn
  · intro n hn
    cases hn
  · intro n
    exact Nat.zero_le 1
  · intro n hn
    cases hn

/-- A call of `connect`. -/
theorem Settled.connect (h : t.Settled) (hfresh : sockfd ∉ t.connector.sockets)
    (hok : t.connect errno sockfd = .ok u) : u.Settled := by
  obtain ⟨c, hstart, hu⟩ := bind_eq_ok.mp hok
  cases hu
  have hconnects : Net.Settled { t.connector with connects := true } t.conn t.nextConnId
      t.connection :=
    h.of_connector (h.coherent.of_same Iff.rfl rfl rfl (fun _ _ => id) rfl rfl) rfl rfl
      (fun _ => Nat.le_refl _) (fun _ => id) rfl
  exact hconnects.startInLoop hfresh hstart

/-- A call of `disconnect`. -/
theorem Settled.disconnect (h : t.Settled) : t.disconnect.Settled := by
  unfold TcpClient.disconnect
  split
  · rename_i n _
    exact ⟨h.coherent, h.ledger.shutdown n, h.linked⟩
  · exact h

/-- What `disconnect` leaves alone. -/
theorem disconnect_same (t : TcpClient) : t.disconnect.connector = t.connector ∧
    t.disconnect.nextConnId = t.nextConnId ∧ t.disconnect.connection = t.connection ∧
    t.disconnect.connectCalls = t.connectCalls ∧
    ∀ m, (t.disconnect.conn m).closed = (t.conn m).closed := by
  unfold TcpClient.disconnect
  split
  · refine ⟨rfl, rfl, rfl, rfl, field_update ClientConnection.closed ?_⟩
    change ClientConnection.closed (if _ then _ else _) = _
    split <;> rfl
  · exact ⟨rfl, rfl, rfl, rfl, fun _ => rfl⟩

/-- A call of `stop`. -/
theorem Settled.stop (h : t.Settled) : t.stop.Settled := by
  obtain ⟨timers, _, heq⟩ := Connector.cancel_eq { t.connector with connects := false }
  have hstop : t.connector.stop = { t.connector with connects := false, timers := timers } := heq
  have hcoherent := h.coherent.stop
  change Net.Settled t.connector.stop t.conn t.nextConnId t.connection
  rw [hstop] at hcoherent ⊢
  exact h.of_connector hcoherent rfl rfl (fun _ => Nat.le_refl _) (fun _ => id) rfl

/-- `newConnection` adds one connection, whose channel takes the place of the connector's. -/
theorem newConnection_eq_ok : t.newConnection sockfd = .ok u ↔ t.connector.Unknown sockfd ∧
    u = { t with
      connector := { t.connector with
        channels := ⟨sockfd, .connection t.nextConnId, true⟩ :: t.connector.channels }
      conn := Function.update t.conn t.nextConnId ⟨sockfd, .kConnected, false, true⟩
      nextConnId := t.nextConnId + 1
      connection := some t.nextConnId } := by
  unfold newConnection connectEstablished modifyConn
  simp only [Function.update_self, Function.update_idem, require_bind_eq_ok, true_and]
  constructor
  · intro hok
    obtain ⟨c, hregister, hu⟩ := bind_eq_ok.mp hok
    obtain ⟨hunknown, rfl⟩ := Connector.register_eq_ok.mp hregister
    cases hu
    exact ⟨hunknown, rfl⟩
  · rintro ⟨hunknown, rfl⟩
    exact bind_eq_ok.mpr ⟨_, Connector.register_eq_ok.mpr ⟨hunknown, rfl⟩, rfl⟩

/-- The channel of the connector is handled. -/
theorem Settled.handleConnector {revents : BitVec 32} {soError : ℤ} {selfConnect : Bool}
    (h : t.Settled)
    (hphase : t.connector.phase = .channels (.connector :: t.connector.phase.active.tail))
    (hok : t.handleConnector revents soError selfConnect = .ok u) : u.Settled := by
  obtain ⟨fd, ⟨c, handed⟩, hstate, hchannel, hregistered, hevent, hhandled⟩ :=
    h.coherent.exists_handled (by rw [hphase]; exact List.mem_cons_self) revents soError
      selfConnect
  obtain ⟨result, hevent', hrest⟩ := bind_eq_ok.mp hok
  cases hevent.symm.trans hevent'
  have hcoherent := h.coherent.handled hphase hchannel hhandled
  have hledger := h.ledger.handled hregistered hphase hhandled
  have hnone := h.connection_eq_none (by simp [hstate])
  cases hhandled with
  | untouched | failed | stopped =>
    cases hrest
    exact ⟨hcoherent, hledger, fun hne => absurd hnone hne⟩
  | connected =>
    have hopen : fd ∈ t.connector.sockets := by
      obtain ⟨r, hr, hfd, _⟩ := hregistered
      exact hfd ▸ h.coherent.opened r hr
    have hne := fun n => h.ledger.fd_ne (n := n) hregistered
    obtain ⟨hunknown, rfl⟩ := newConnection_eq_ok.mp hrest
    unfold Settled at h ⊢
    rw [hnone] at hledger
    exact ⟨hcoherent.registerConnection hopen, hledger.newConnection hunknown hopen hne,
      fun _ => rfl⟩

/-- The client when `removeConnection` decides about a restart. -/
def lost (t : TcpClient) (n : ℕ) : TcpClient :=
  { t with
    connector := { t.connector with
      channels := Connector.disabled t.connector.channels (t.conn n).fd
      pendingFunctors := t.connector.pendingFunctors ++ [.connectDestroyed n] }
    conn := Function.update t.conn n { t.conn n with closed := true }
    connection := none }

/-- What `handleClose` needs and does. -/
theorem handleClose_eq_ok {n : ℕ} : t.handleClose n errno sockfd = .ok u ↔
    ((t.conn n).state = .kConnected ∨ (t.conn n).state = .kDisconnecting) ∧
      t.connector.Registered (t.conn n).fd (.connection n) ∧ t.connection = some n ∧
      (if t.retry && t.connects then do
        let connector ← (t.lost n).connector.restart errno sockfd
        return { t.lost n with connector }
      else return t.lost n) = .ok u := by
  unfold handleClose removeConnection
  rw [require_bind_eq_ok]
  refine and_congr_right fun _ => ?_
  constructor
  · intro hok
    obtain ⟨c, hdisabled, hrest⟩ := bind_eq_ok.mp hok
    obtain ⟨hregistered, rfl⟩ := Connector.disableAll_eq_ok.mp hdisabled
    exact ⟨hregistered, require_bind_eq_ok.mp hrest⟩
  · rintro ⟨hregistered, hrest⟩
    exact bind_eq_ok.mpr ⟨_, Connector.disableAll_eq_ok.mpr ⟨hregistered, rfl⟩,
      require_bind_eq_ok.mpr hrest⟩

/-- The connection is lost. -/
theorem Settled.lost {n : ℕ} {active : List ChannelOwner} (h : t.Settled)
    (hphase : t.connector.phase = .channels active) (hcurrent : t.connection = some n) :
    (t.lost n).Settled := by
  have hledger := h.ledger
  rw [hcurrent] at hledger
  exact ⟨h.coherent.closeConnection hphase, hledger.closed, fun hne => absurd rfl hne⟩

/-- The connector may be restarted when the connection is lost. -/
theorem Settled.restarted {n : ℕ} {active : List ChannelOwner} (h : t.Settled)
    (hphase : t.connector.phase = .channels active) (hcurrent : t.connection = some n) :
    Net.Settled { (t.lost n).connector.setState .kDisconnected with
      retryDelayMs := Connector.kInitRetryDelayMs
      connects := true } (t.lost n).conn t.nextConnId none := by
  have hlost := h.lost hphase hcurrent
  have hstate : t.connector.state = .kConnected := h.linked (by simp [hcurrent])
  refine ⟨hlost.coherent.of_same ?_ rfl rfl (fun _ _ => id) rfl rfl,
    hlost.ledger.of_same rfl rfl (fun _ => Nat.le_refl _) fun _ => id, fun hne => absurd rfl hne⟩
  change ConnectorState.kDisconnected = .kConnecting ↔ t.connector.state = .kConnecting
  simp [hstate]

/-- The handler of a connection calls `handleClose`. -/
theorem Settled.handleClose {n : ℕ} {active : List ChannelOwner} (h : t.Settled)
    (hphase : t.connector.phase = .channels active) (hfresh : sockfd ∉ t.connector.sockets)
    (hok : t.handleClose n errno sockfd = .ok u) : u.Settled := by
  obtain ⟨_, _, hcurrent, hrest⟩ := handleClose_eq_ok.mp hok
  split at hrest
  · obtain ⟨c, hrestart, hu⟩ := bind_eq_ok.mp hrest
    cases hu
    exact (h.restarted hphase hcurrent).startInLoop hfresh hrestart
  · cases hrest
    exact h.lost hphase hcurrent

/-- What `connectDestroyed` needs and does. -/
theorem connectDestroyed_eq_ok {n : ℕ} : t.connectDestroyed n = .ok u ↔
    ((t.conn n).state = .kConnected ∨ (t.conn n).state = .kDisconnecting) ∧
      t.connector.Registered (t.conn n).fd (.connection n) ∧
      u = { t with
        connector := { t.connector with
          channels := t.connector.channels.filter fun r => r.fd ≠ (t.conn n).fd }
        conn := Function.update t.conn n { t.conn n with state := .kDisconnected } } := by
  unfold connectDestroyed
  rw [require_bind_eq_ok]
  refine and_congr_right fun _ => ?_
  constructor
  · intro hok
    obtain ⟨c, hdisabled, hrest⟩ := bind_eq_ok.mp hok
    obtain ⟨c', hremoved, hu⟩ := bind_eq_ok.mp hrest
    have hregistered := (Connector.disableAll_eq_ok.mp hdisabled).1
    have hboth := Connector.disableAll_removeChannel hregistered
    cases (bind_eq_ok.mpr ⟨c, hdisabled, hremoved⟩).symm.trans hboth
    cases hu
    exact ⟨hregistered, rfl⟩
  · rintro ⟨hregistered, rfl⟩
    obtain ⟨c, hdisabled, hremoved⟩ :=
      bind_eq_ok.mp (Connector.disableAll_removeChannel hregistered)
    exact bind_eq_ok.mpr ⟨c, hdisabled, bind_eq_ok.mpr ⟨_, hremoved, rfl⟩⟩

/-- The functor of a lost connection. -/
theorem Settled.connectDestroyed {n : ℕ} {rest : List QueuedFunctor} (h : t.Settled)
    (hphase : t.connector.phase = .functors (.connectDestroyed n :: rest))
    (hexec : t.exec (.connectDestroyed n) = .ok u) : u.Settled := by
  obtain ⟨v, hok, hu⟩ := bind_eq_ok.mp hexec
  obtain ⟨_, hregistered, rfl⟩ := connectDestroyed_eq_ok.mp hok
  cases hu
  obtain ⟨halive, _⟩ := h.ledger.alive hregistered
  have hne : ¬ t.connector.Registered (t.conn n).fd .connector := fun hconnector =>
    h.ledger.fd_ne hconnector halive rfl
  have hrest : LoopPhase.functors t.connector.phase.batch.tail = .functors rest := by
    rw [hphase]
    rfl
  have hcoherent := h.coherent.removeConnection hphase hne
  have hledger := h.ledger.destroyed hphase
  rw [← hrest] at hcoherent hledger
  exact ⟨hcoherent, hledger, h.linked⟩

/-- The last owner of a connection is gone. -/
theorem Settled.release {n : ℕ} (h : t.Settled) (hstate : (t.conn n).state = .kDisconnected)
    (halive : (t.conn n).alive = true) (hexec : t.exec (.release n) = .ok u) : u.Settled := by
  obtain ⟨hunknown, hledger⟩ := h.ledger.released hstate halive
  cases hexec
  refine ⟨h.coherent.of_same Iff.rfl rfl rfl (fun r hr hopen => ?_) rfl rfl, hledger, h.linked⟩
  exact (List.mem_erase_of_ne (hunknown r hr)).mpr hopen

/-- Every step keeps the client settled. -/
theorem Settled.step {a : ClientStep} (h : t.Settled) (henabled : t.enabled a)
    (hexec : t.exec a = .ok u) : u.Settled := by
  cases a with
  | connect errno sockfd => exact h.connect henabled hexec
  | disconnect =>
    cases hexec
    exact h.disconnect
  | stop =>
    cases hexec
    exact h.stop
  | enableRetry =>
    cases hexec
    exact h
  | poll expired active =>
    cases hexec
    exact Net.Settled.poll h henabled
  | runTimer errno sockfd =>
    obtain ⟨c, hok, hu⟩ := bind_eq_ok.mp hexec
    cases hu
    exact Net.Settled.runTimer h henabled.2 hok
  | timersDone =>
    have hphase : t.connector.phase = .timers [] t.connector.phase.active := henabled
    cases hexec
    refine Net.Settled.of_connector h (h.coherent.timersDone hphase) rfl rfl (fun n => ?_)
      (fun _ => id) rfl
    unfold Connector.queued
    rw [hphase]
    exact Nat.le_refl _
  | handleConnector revents soError selfConnect => exact h.handleConnector henabled hexec
  | handleClose n errno sockfd => exact h.handleClose henabled.1 henabled.2.2 hexec
  | connectionHandled n =>
    have hphase : t.connector.phase = .channels (.connection n :: _) := henabled
    cases hexec
    refine Net.Settled.of_connector h (h.coherent.handlerDone hphase) rfl rfl (fun m => ?_)
      (fun owner howner => List.mem_of_mem_tail howner) rfl
    unfold Connector.queued
    rw [hphase]
    exact Nat.le_refl _
  | swap =>
    have hphase : t.connector.phase = .channels [] := henabled
    cases hexec
    refine Net.Settled.of_connector h (h.coherent.swap hphase) rfl rfl (fun n => ?_)
      (fun owner howner => by cases howner) rfl
    unfold Connector.queued
    rw [hphase]
    simp [Connector.swap, LoopPhase.batch]
  | resetChannel =>
    have hphase : t.connector.phase = .functors (.resetChannel :: _) := henabled
    cases hexec
    refine Net.Settled.of_connector h (h.coherent.resetChannel hphase) rfl rfl (fun n => ?_)
      (fun owner howner => by cases howner) rfl
    exact ((List.tail_sublist t.connector.phase.batch).append_right _).count_le _
  | connectDestroyed n => exact h.connectDestroyed henabled hexec
  | iterationDone =>
    have hphase : t.connector.phase = .functors [] := henabled
    cases hexec
    refine Net.Settled.of_connector h (h.coherent.iterationDone hphase) rfl rfl (fun n => ?_)
      (fun owner howner => by cases howner) rfl
    unfold Connector.queued
    rw [hphase]
    exact Nat.le_refl _
  | release n => exact h.release henabled.1 henabled.2 hexec

end TcpClient

end Dalin.Net
