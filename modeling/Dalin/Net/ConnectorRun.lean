import Dalin.Library.Transition
import Dalin.Net.Connector

/-!
# Runs of a connector

The channel of a connector is registered exactly while an attempt is in
progress, and `channel_` outlives its registration until the functor that
`removeAndResetChannel` queues has run. This file states what links `state_`,
`channel_`, the Poller, the queue and the phase of the loop, shows that every
function keeps it, and defines the runs of a connector under arbitrary calls.
-/

set_option autoImplicit false

namespace Dalin.Net

open Transition

namespace Connector

/-- What links `state_` and `channel_` with the Poller and the queue. -/
structure Coherent (c : Connector) : Prop where
  connecting : c.state = .kConnecting → ∃ fd, c.channel = some fd ∧ c.Registered fd .connector
  registered : ∀ r ∈ c.channels, r.owner = .connector →
    c.state = .kConnecting ∧ c.channel = some r.fd
  opened : ∀ r ∈ c.channels, r.fd ∈ c.sockets
  /-- The functor that empties `channel_` is queued once, when the channel is removed. -/
  resets : c.queued.count .resetChannel =
    if c.state = .kConnecting ∨ c.channel = none then 0 else 1
  handlers : .resetChannel ∈ c.pendingFunctors → ∃ active, c.phase = .channels active
  active : .connector ∈ c.phase.active → c.state = .kConnecting
  nodup : c.phase.active.Nodup

variable {c c' : Connector} {errno : Errno} {sockfd : ℕ}

/-- A new connector is coherent. -/
theorem Coherent.of_new : new.Coherent := by
  refine ⟨?_, ?_, ?_, rfl, ?_, ?_, List.nodup_nil⟩
  · intro h
    cases h
  · intro r hr
    cases hr
  · intro r hr
    cases hr
  · intro h
    cases h
  · intro h
    cases h

/-- Only `channel_`, the Poller, the open sockets, the queue, the phase, and whether `state_` is
`kConnecting` matter. -/
theorem Coherent.of_same (h : c.Coherent)
    (hstate : c'.state = .kConnecting ↔ c.state = .kConnecting)
    (hchannel : c'.channel = c.channel) (hchannels : c'.channels = c.channels)
    (hsockets : ∀ r ∈ c.channels, r.fd ∈ c.sockets → r.fd ∈ c'.sockets)
    (hpending : c'.pendingFunctors = c.pendingFunctors) (hphase : c'.phase = c.phase) :
    c'.Coherent := by
  constructor
  · unfold Registered
    rw [hstate, hchannel, hchannels]
    exact h.connecting
  · rw [hstate, hchannel, hchannels]
    exact h.registered
  · rw [hchannels]
    exact fun r hr => hsockets r hr (h.opened r hr)
  · unfold queued
    simp only [hstate, hchannel, hpending, hphase]
    exact h.resets
  · rw [hpending, hphase]
    exact h.handlers
  · rw [hphase, hstate]
    exact h.active
  · rw [hphase]
    exact h.nodup

/-- A new descriptor is not known to the Poller. -/
theorem Coherent.unknown (h : c.Coherent) (hfresh : sockfd ∉ c.sockets) : c.Unknown sockfd := by
  intro r hr hfd
  exact hfresh (hfd ▸ h.opened r hr)

/-- When no attempt is in progress, no channel of the connector is registered. -/
theorem Coherent.unregistered (h : c.Coherent) (hstate : c.state ≠ .kConnecting)
    {r : Registration} (hr : r ∈ c.channels) : r.owner ≠ .connector :=
  fun howner => hstate (h.registered r hr howner).1

/-- A queued reset means that the channel is still there. -/
theorem Coherent.channel_of_queued (h : c.Coherent) (hqueued : .resetChannel ∈ c.queued) :
    c.state ≠ .kConnecting ∧ c.channel ≠ none := by
  have hpos := List.count_pos_iff.mpr hqueued
  rw [h.resets] at hpos
  split at hpos
  · omega
  · rename_i hneither
    exact not_or.mp hneither

/-- Outside of the handlers and the functors the channel is there only during an attempt. -/
theorem Coherent.channel_eq_none (h : c.Coherent) (hstate : c.state ≠ .kConnecting)
    (hqueued : .resetChannel ∉ c.queued) : c.channel = none := by
  have hzero := List.count_eq_zero.mpr hqueued
  rw [h.resets] at hzero
  split at hzero
  · rename_i hor
    exact hor.resolve_left hstate
  · omega

/-- Before the handlers of an iteration, no reset is queued. -/
theorem Coherent.not_queued (h : c.Coherent) (hbatch : c.phase.batch = [])
    (hhandlers : ∀ active, c.phase ≠ .channels active) : .resetChannel ∉ c.queued := by
  intro hmem
  unfold queued at hmem
  rw [hbatch] at hmem
  obtain ⟨active, hactive⟩ := h.handlers hmem
  exact hhandlers active hactive

/-- `::connect` is called when no attempt is in progress; if it reports progress, the last
channel must be gone. -/
theorem Coherent.attempted (h : c.Coherent) (hstate : c.state = .kDisconnected)
    (hchannel : errno.branch = .connecting → c.channel = none) :
    (c.attempted errno sockfd).Coherent := by
  have hidle : c.state ≠ .kConnecting := by simp [hstate]
  unfold Connector.attempted
  cases hbranch : errno.branch with
  | connecting =>
    have hnone := hchannel hbranch
    constructor
    · exact fun _ => ⟨sockfd, rfl, _, List.mem_cons_self, rfl, rfl⟩
    · intro r hr howner
      rcases List.mem_cons.mp hr with rfl | hr
      · exact ⟨rfl, rfl⟩
      · exact absurd howner (h.unregistered hidle hr)
    · intro r hr
      rcases List.mem_cons.mp hr with rfl | hr
      · exact List.mem_cons_self
      · exact List.mem_cons_of_mem _ (h.opened r hr)
    · have hresets := h.resets
      rw [if_pos (Or.inr hnone)] at hresets
      rw [if_pos (Or.inl rfl)]
      exact hresets
    · exact h.handlers
    · exact fun _ => rfl
    · exact h.nodup
  | retry =>
    have hclosed : ∀ r ∈ c.channels, r.fd ∈ c.sockets →
        r.fd ∈ (sockfd :: c.sockets).erase sockfd := by
      rw [List.erase_cons_head]
      exact fun _ _ => id
    change (retry _ sockfd).Coherent
    unfold retry
    have hsame : ConnectorState.kDisconnected = .kConnecting ↔ c.state = .kConnecting := by
      simp [hstate]
    split <;> exact h.of_same hsame rfl rfl hclosed rfl rfl
  | close => exact h.of_same Iff.rfl rfl rfl (fun _ _ => id) rfl rfl

/-- A successful `startInLoop` keeps the connector coherent. -/
theorem Coherent.startInLoop (h : c.Coherent)
    (hok : c.startInLoop errno sockfd = .ok c') : c'.Coherent := by
  obtain ⟨hstate, hneeds, rfl⟩ := startInLoop_eq_ok.mp hok
  split
  · rename_i hconnects
    exact h.attempted hstate fun hbranch => (hneeds hconnects hbranch).1
  · exact h

/-- A successful `startInLoop` with `connect_` set calls `::connect` once. -/
theorem attempts_startInLoop (hconnects : c.connects = true)
    (hok : c.startInLoop errno sockfd = .ok c') : c'.attempts = c.attempts + 1 := by
  obtain ⟨_, _, rfl⟩ := startInLoop_eq_ok.mp hok
  rw [if_pos hconnects]
  unfold Connector.attempted
  cases errno.branch with
  | connecting => rfl
  | retry =>
    change (retry _ sockfd).attempts = _
    unfold retry
    split <;> rfl
  | close => rfl

/-- `cancel` changes the timers alone. -/
theorem cancel_eq (c : Connector) : ∃ timers, timers.Sublist c.timers ∧
    c.cancel = { c with timers := timers } := by
  unfold cancel
  split
  · exact ⟨_, List.erase_sublist, rfl⟩
  · exact ⟨_, List.Sublist.refl _, rfl⟩

/-- `stop` keeps the connector coherent. -/
theorem Coherent.stop (h : c.Coherent) : c.stop.Coherent := by
  obtain ⟨timers, _, heq⟩ := cancel_eq { c with connects := false }
  unfold Connector.stop
  rw [heq]
  exact h.of_same Iff.rfl rfl rfl (fun _ _ => id) rfl rfl

/-- The end of the handler of the connector's channel, when the channel was removed and the
attempt is over. -/
theorem Coherent.detached {rest : List ChannelOwner} (h : c.Coherent)
    (hphase : c.phase = .channels (.connector :: rest)) (hchannel : c.channel = some sockfd)
    (hstate : c'.state ≠ .kConnecting) (hchannel' : c'.channel = c.channel)
    (hchannels : c'.channels = (c.detached sockfd).channels)
    (hsockets : ∀ fd ∈ c.sockets, fd ≠ sockfd → fd ∈ c'.sockets)
    (hpending : c'.pendingFunctors = (c.detached sockfd).pendingFunctors)
    (hphase' : c'.phase = c.phase) : c'.handlerDone.Coherent := by
  have hconnecting : c.state = .kConnecting := h.active (by simp [hphase, LoopPhase.active])
  have hnodup : (ChannelOwner.connector :: rest).Nodup := by
    have := h.nodup
    rwa [hphase] at this
  have hrest : c'.handlerDone.phase = .channels rest := by
    unfold handlerDone
    rw [hphase', hphase]
    rfl
  have hmem : ∀ r ∈ c'.channels, r ∈ c.channels ∧ r.fd ≠ sockfd := by
    intro r hr
    rw [hchannels] at hr
    simpa [Connector.detached] using hr
  constructor
  · exact fun heq => absurd heq hstate
  · intro r hr howner
    obtain ⟨hr, hfd⟩ := hmem r hr
    have hsome := (h.registered r hr howner).2
    rw [hchannel] at hsome
    exact absurd (Option.some.inj hsome).symm hfd
  · intro r hr
    obtain ⟨hr, hfd⟩ := hmem r hr
    exact hsockets _ (h.opened r hr) hfd
  · have hresets := h.resets
    rw [if_pos (Or.inl hconnecting)] at hresets
    unfold queued at hresets ⊢
    rw [hphase] at hresets
    change _ = if c'.state = .kConnecting ∨ c'.channel = none then 0 else 1
    rw [hrest, if_neg (not_or.mpr ⟨hstate, by simp [hchannel', hchannel]⟩)]
    have hqueue : c'.handlerDone.pendingFunctors = c.pendingFunctors ++ [.resetChannel] := hpending
    rw [hqueue]
    simp only [LoopPhase.batch, List.nil_append, List.count_append] at hresets ⊢
    simp [hresets]
  · exact fun _ => ⟨rest, hrest⟩
  · rw [hrest]
    exact fun hmem => absurd hmem (List.nodup_cons.mp hnodup).1
  · rw [hrest]
    exact (List.nodup_cons.mp hnodup).2

/-- The handler of a channel that is not the connector's, or does nothing to it, returns. -/
theorem Coherent.handlerDone {owner : ChannelOwner} {rest : List ChannelOwner} (h : c.Coherent)
    (hphase : c.phase = .channels (owner :: rest)) : c.handlerDone.Coherent := by
  have hrest : c.handlerDone.phase = .channels rest := by
    unfold Connector.handlerDone
    rw [hphase]
    rfl
  have hnodup := h.nodup
  have hactive := h.active
  have hresets := h.resets
  unfold queued at hresets
  rw [hphase] at hnodup hactive hresets
  refine ⟨h.connecting, h.registered, h.opened, ?_, fun _ => ⟨rest, hrest⟩, ?_, ?_⟩
  · unfold queued
    rw [hrest]
    exact hresets
  · rw [hrest]
    exact fun hmem => hactive (List.mem_cons_of_mem _ hmem)
  · rw [hrest]
    exact (List.nodup_cons.mp hnodup).2

/-- The handler of the connector's channel finds an attempt in progress. -/
theorem Coherent.exists_handled (h : c.Coherent) (hactive : .connector ∈ c.phase.active)
    (revents : BitVec 32) (soError : ℤ) (selfConnect : Bool) :
    ∃ fd result, c.state = .kConnecting ∧ c.channel = some fd ∧ c.Registered fd .connector ∧
      c.handleEvent revents soError selfConnect = .ok result ∧
        Handled c fd (attemptSucceeds revents soError selfConnect) result := by
  have hstate := h.active hactive
  obtain ⟨fd, hchannel, hregistered⟩ := h.connecting hstate
  obtain ⟨result, hok, hhandled⟩ :=
    handleEvent_of_registered revents soError selfConnect hstate hchannel hregistered
  exact ⟨fd, result, hstate, hchannel, hregistered, hok, hhandled⟩

/-- Whatever the handler of the connector's channel does, the connector stays coherent. -/
theorem Coherent.handled {rest : List ChannelOwner} {handed : Option ℕ} {success : Bool}
    (h : c.Coherent)
    (hphase : c.phase = .channels (.connector :: rest)) (hchannel : c.channel = some sockfd)
    (hhandled : Handled c sockfd success (c', handed)) : c'.handlerDone.Coherent := by
  have hclose : ∀ fd ∈ c.sockets, fd ≠ sockfd → fd ∈ c.sockets.erase sockfd :=
    fun fd hfd hne => (List.mem_erase_of_ne hne).mpr hfd
  cases hhandled with
  | untouched => exact h.handlerDone hphase
  | failed =>
    have hstate : ((c.detached sockfd).retry sockfd).state ≠ .kConnecting := by simp
    revert hstate
    unfold retry
    split <;> intro hstate <;>
      exact h.detached hphase hchannel hstate rfl rfl hclose rfl rfl
  | connected =>
    exact h.detached hphase hchannel (by simp [setState]) rfl rfl (fun _ hfd _ => hfd) rfl rfl
  | stopped =>
    exact h.detached hphase hchannel (by simp [setState, close]) rfl rfl hclose rfl rfl

/-- A connection registers the channel of an open socket. -/
theorem Coherent.registerConnection {n : ℕ} (h : c.Coherent) (hopen : sockfd ∈ c.sockets) :
    Coherent { c with channels := ⟨sockfd, .connection n, true⟩ :: c.channels } := by
  refine ⟨fun hstate => ?_, fun r hr howner => ?_, fun r hr => ?_, h.resets, h.handlers, h.active,
    h.nodup⟩
  · obtain ⟨fd, hchannel, r, hr, hfd, howner⟩ := h.connecting hstate
    exact ⟨fd, hchannel, r, List.mem_cons_of_mem _ hr, hfd, howner⟩
  · rcases List.mem_cons.mp hr with rfl | hr
    · cases howner
    · exact h.registered r hr howner
  · rcases List.mem_cons.mp hr with rfl | hr
    · exact hopen
    · exact h.opened r hr

/-- A connection disables its channel and queues its functor, in its handler. -/
theorem Coherent.closeConnection {n : ℕ} {active : List ChannelOwner} (h : c.Coherent)
    (hphase : c.phase = .channels active) : Coherent { c with
      channels := disabled c.channels sockfd
      pendingFunctors := c.pendingFunctors ++ [.connectDestroyed n] } := by
  refine ⟨fun hstate => ?_, fun r' hr' howner' => ?_, fun r' hr' => ?_, ?_,
    fun _ => ⟨active, hphase⟩, h.active, h.nodup⟩
  · obtain ⟨fd, hchannel, hregistered⟩ := h.connecting hstate
    exact ⟨fd, hchannel, hregistered.disabled sockfd⟩
  · obtain ⟨r, hr, hfd, howner, _⟩ := mem_disabled hr'
    rw [hfd]
    exact h.registered r hr (howner.symm.trans howner')
  · obtain ⟨r, hr, hfd, _⟩ := mem_disabled hr'
    rw [hfd]
    exact h.opened r hr
  · have hresets := h.resets
    unfold queued at hresets ⊢
    rw [← List.append_assoc, List.count_append, hresets]
    simp

/-- The functor of a connection removes its channel. -/
theorem Coherent.removeConnection {n : ℕ} {rest : List QueuedFunctor} (h : c.Coherent)
    (hphase : c.phase = .functors (.connectDestroyed n :: rest))
    (hne : ¬ c.Registered sockfd .connector) : Coherent { c with
      channels := c.channels.filter fun r => r.fd ≠ sockfd
      phase := .functors rest } := by
  have hmem : ∀ r, r ∈ c.channels.filter (fun r => r.fd ≠ sockfd) ↔
      r ∈ c.channels ∧ r.fd ≠ sockfd := by simp
  refine ⟨fun hstate => ?_, fun r hr => h.registered r ((hmem r).mp hr).1,
    fun r hr => h.opened r ((hmem r).mp hr).1, ?_, fun hpending => ?_, fun hactive => ?_,
    List.nodup_nil⟩
  · obtain ⟨fd, hchannel, r, hr, hfd, howner⟩ := h.connecting hstate
    exact ⟨fd, hchannel, r, (hmem r).mpr ⟨hr, fun heq => hne ⟨r, hr, heq, howner⟩⟩, hfd, howner⟩
  · have hresets := h.resets
    unfold queued at hresets
    rw [hphase] at hresets
    simpa [LoopPhase.batch, queued] using hresets
  · obtain ⟨active, heq⟩ := h.handlers hpending
    cases hphase.symm.trans heq
  · cases hactive

/-- A poll finds the connector's channel only during an attempt. -/
theorem Coherent.poll {expired : List ℕ} {active : List ChannelOwner} (h : c.Coherent)
    (hfound : c.MayFind expired active) : (c.poll expired active).Coherent := by
  obtain ⟨hphase, _, hnodup, hactive⟩ := hfound
  have hresets := h.resets
  unfold queued at hresets
  rw [hphase] at hresets
  refine ⟨h.connecting, h.registered, h.opened, hresets, fun hmem => ?_, fun hmem => ?_, hnodup⟩
  · obtain ⟨active', heq⟩ := h.handlers hmem
    cases hphase.symm.trans heq
  · obtain ⟨r, hr, howner, _⟩ := hactive _ hmem
    exact (h.registered r hr howner).1

/-- The next expired timer is taken. -/
theorem Coherent.timerTaken {timer : ℕ} {rest : List ℕ} {active : List ChannelOwner}
    (h : c.Coherent) (hphase : c.phase = .timers (timer :: rest) active) :
    Coherent { c with phase := .timers rest active } := by
  have hresets := h.resets
  have hactive := h.active
  have hnodup := h.nodup
  unfold queued at hresets
  rw [hphase] at hresets hactive hnodup
  refine ⟨h.connecting, h.registered, h.opened, hresets, fun hmem => ?_, hactive, hnodup⟩
  obtain ⟨active', heq⟩ := h.handlers hmem
  cases hphase.symm.trans heq

/-- The end of the timers. -/
theorem Coherent.timersDone {active : List ChannelOwner} (h : c.Coherent)
    (hphase : c.phase = .timers [] active) : c.timersDone.Coherent := by
  have hnodup := h.nodup
  have hactive := h.active
  have hresets := h.resets
  unfold queued at hresets
  rw [hphase] at hnodup hactive hresets
  have hphase' : c.timersDone.phase = .channels active := by
    unfold Connector.timersDone
    rw [hphase]
    rfl
  refine ⟨h.connecting, h.registered, h.opened, ?_, fun _ => ⟨active, hphase'⟩, ?_, ?_⟩
  · unfold queued
    rw [hphase']
    exact hresets
  · rw [hphase']
    exact hactive
  · rw [hphase']
    exact hnodup

/-- The swap of the queue. -/
theorem Coherent.swap (h : c.Coherent) (hphase : c.phase = .channels []) : c.swap.Coherent := by
  have hresets := h.resets
  unfold queued at hresets
  rw [hphase] at hresets
  refine ⟨h.connecting, h.registered, h.opened, ?_, fun hmem => ?_, fun hmem => ?_, List.nodup_nil⟩
  · unfold queued Connector.swap
    simpa [LoopPhase.batch] using hresets
  · cases hmem
  · cases hmem

/-- The end of the batch. -/
theorem Coherent.iterationDone (h : c.Coherent) (hphase : c.phase = .functors []) :
    c.iterationDone.Coherent := by
  have hresets := h.resets
  unfold queued at hresets
  rw [hphase] at hresets
  refine ⟨h.connecting, h.registered, h.opened, hresets, fun hmem => ?_, fun hmem => ?_,
    List.nodup_nil⟩
  · obtain ⟨active, heq⟩ := h.handlers hmem
    cases hphase.symm.trans heq
  · cases hmem

/-- The functor that empties `channel_`. -/
theorem Coherent.resetChannel {rest : List QueuedFunctor} (h : c.Coherent)
    (hphase : c.phase = .functors (.resetChannel :: rest)) :
    c.resetChannel.functorDone.Coherent := by
  have hqueued : .resetChannel ∈ c.queued := by
    simp [queued, hphase, LoopPhase.batch]
  obtain ⟨hstate, hsome⟩ := h.channel_of_queued hqueued
  have hresets := h.resets
  unfold queued at hresets
  rw [hphase, if_neg (not_or.mpr ⟨hstate, hsome⟩)] at hresets
  have hphase' : c.resetChannel.functorDone.phase = .functors rest := by
    unfold functorDone
    change LoopPhase.functors c.phase.batch.tail = _
    rw [hphase]
    rfl
  refine ⟨fun heq => absurd heq hstate, fun r hr howner => ?_, h.opened, ?_, fun hmem => ?_, ?_, ?_⟩
  · exact absurd howner (h.unregistered hstate hr)
  · change _ = if c.state = .kConnecting ∨ (none : Option ℕ) = none then 0 else 1
    unfold queued
    rw [hphase', if_pos (Or.inr rfl)]
    simp only [LoopPhase.batch, List.cons_append, List.count_cons_self] at hresets ⊢
    exact Nat.succ.inj hresets
  · obtain ⟨active, heq⟩ := h.handlers hmem
    cases hphase.symm.trans heq
  · rw [hphase']
    intro hmem
    cases hmem
  · rw [hphase']
    exact List.nodup_nil

end Connector

end Dalin.Net
