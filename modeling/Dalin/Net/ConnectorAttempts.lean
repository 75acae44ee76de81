import Mathlib.Data.List.Perm.Subperm
import Dalin.Net.ConnectorRun

/-!
# One attempt at a time

The loop thread may call `start`, `stop` and, once the connection it was given
is lost, `restart`, between any two steps of a connector. Attempts begin in
`start`, in `restart` and in the retry timer, and only assertions on `state_` and
`channel_` keep them apart. This file shows when a call of `start` leaves at most
one attempt under way, and that nothing else can break this.
-/

set_option autoImplicit false

namespace Dalin.Net

open Transition

/-- The last socket that went to `newConnectionCallback_` and was not lost yet. -/
inductive HandedOver
  | nothing
  | inThisIteration
  /-- The loop has polled since, so that its connection may have been lost. -/
  | earlier
  deriving DecidableEq

/-- A connector and its user. -/
structure ConnectorUse where
  connector : Connector
  handed : HandedOver
  deriving DecidableEq

/-- A call of the user, or a step of the loop. A step that may call `::connect` comes with the
new socket and the result. -/
inductive ConnectorStep
  | start (errno : Errno) (sockfd : ℕ)
  | stop
  | restart (errno : Errno) (sockfd : ℕ)
  /-- The user closes a socket that was handed over. -/
  | closeHanded (sockfd : ℕ)
  | poll (expired : List ℕ) (active : List ChannelOwner)
  | runTimer (errno : Errno) (sockfd : ℕ)
  | timersDone
  | handleEvent (revents : BitVec 32) (soError : ℤ) (selfConnect : Bool)
  | swap
  | resetChannel
  | iterationDone

namespace ConnectorUse

/-- The effect of a step. -/
def exec (u : ConnectorUse) : ConnectorStep → Except Failure ConnectorUse
  | .start errno sockfd => do
    let connector ← u.connector.start errno sockfd
    return { u with connector }
  | .stop => .ok { u with connector := u.connector.stop }
  | .restart errno sockfd => do
    let connector ← u.connector.restart errno sockfd
    return ⟨connector, .nothing⟩
  | .closeHanded sockfd => .ok { u with connector := u.connector.close sockfd }
  | .poll expired active => .ok {
      connector := u.connector.poll expired active
      handed := if u.handed = .inThisIteration then .earlier else u.handed }
  | .runTimer errno sockfd => do
    let connector ← u.connector.runTimer errno sockfd
    return { u with connector }
  | .timersDone => .ok { u with connector := u.connector.timersDone }
  | .handleEvent revents soError selfConnect => do
    let (connector, handed) ← u.connector.handleEvent revents soError selfConnect
    return ⟨connector.handlerDone, if handed.isSome then .inThisIteration else u.handed⟩
  | .swap => .ok { u with connector := u.connector.swap }
  | .resetChannel => .ok { u with connector := u.connector.resetChannel.functorDone }
  | .iterationDone => .ok { u with connector := u.connector.iterationDone }

/-- Which steps may come next: the user calls at any time, `restart` only for a lost
connection, and the kernel makes a socket that is not open. -/
def enabled (u : ConnectorUse) : ConnectorStep → Prop
  | .start _ sockfd => sockfd ∉ u.connector.sockets
  | .stop => True
  | .restart _ sockfd => u.handed = .earlier ∧ sockfd ∉ u.connector.sockets
  | .closeHanded sockfd => u.connector.Unknown sockfd
  | .poll expired active => u.connector.MayFind expired active
  | .runTimer _ sockfd => u.connector.phase.expired ≠ [] ∧ sockfd ∉ u.connector.sockets
  | .timersDone => u.connector.phase = .timers [] u.connector.phase.active
  | .handleEvent _ _ _ =>
    u.connector.phase = .channels (.connector :: u.connector.phase.active.tail)
  | .swap => u.connector.phase = .channels []
  | .resetChannel =>
    u.connector.phase = .functors (.resetChannel :: u.connector.phase.batch.tail)
  | .iterationDone => u.connector.phase = .functors []

instance (u : ConnectorUse) (a : ConnectorStep) : Decidable (u.enabled a) := by
  cases a <;> unfold enabled <;> infer_instance

end ConnectorUse

/-- All runs of a connector from its construction on. -/
def connectorSystem : System ConnectorUse ConnectorStep Failure where
  init u := u = ⟨.new, .nothing⟩
  enabled := ConnectorUse.enabled
  exec := ConnectorUse.exec

instance (u : ConnectorUse) (a : ConnectorStep) : Decidable (connectorSystem.enabled u a) :=
  inferInstanceAs (Decidable (u.enabled a))

namespace Connector

/-- The number of attempts under way: a socket in `kConnecting`, and the retry timers that will
still run. -/
def underWay (c : Connector) : ℕ := (if c.state = .kConnecting then 1 else 0) + c.due.length

/-- At most one attempt is under way, and with a connection there is none. -/
structure Single (c : Connector) : Prop where
  one : c.due.length ≤ 1
  waiting : c.due ≠ [] → c.state = .kDisconnected

variable {c c' : Connector} {errno : Errno} {sockfd : ℕ}

/-- One of `kConnecting` and a retry timer. -/
theorem Single.underWay_le (h : c.Single) : c.underWay ≤ 1 := by
  unfold underWay
  by_cases hdue : c.due = []
  · rw [hdue]
    split <;> simp
  · have hone := h.one
    rw [if_neg (by simp [h.waiting hdue])]
    omega

/-- A connector without retry timers. -/
theorem Single.of_due_nil (h : c.due = []) : c.Single := ⟨by simp [h], fun hne => absurd h hne⟩

/-- Timers that leave the queue do no harm. -/
theorem Single.of_sublist (h : c.Single) (hdue : c'.due.Sublist c.due)
    (hstate : c'.state = c.state) : c'.Single := by
  refine ⟨hdue.length_le.trans h.one, fun hne => ?_⟩
  rw [hstate]
  refine h.waiting fun hnil => hne ?_
  rw [hnil] at hdue
  exact List.sublist_nil.mp hdue

/-- No timer enters or leaves the queue, and no batch of them begins or ends. -/
theorem Single.of_same (h : c.Single) (hexpired : c'.phase.expired = c.phase.expired)
    (htimers : c'.timers = c.timers) (hstate : c'.state = c.state) : c'.Single := by
  refine h.of_sublist ?_ hstate
  unfold due
  rw [hexpired, htimers]

/-- A failed attempt leaves at most its own retry timer. -/
theorem Single.retry (h : c.due = []) : (c.retry sockfd).Single := by
  refine ⟨?_, fun _ => retry_state⟩
  unfold Connector.retry
  split
  · change (c.phase.expired ++ (c.timers ++ [c.numTimers])).length ≤ 1
    rw [← List.append_assoc]
    change (c.due ++ _).length ≤ 1
    simp [h]
  · change c.due.length ≤ 1
    simp [h]

/-- Whatever `::connect` says, one attempt is under way after it if none was before. -/
theorem Single.attempted (h : c.Single) (hdue : errno.branch ≠ .close → c.due = []) :
    (c.attempted errno sockfd).Single := by
  unfold Connector.attempted
  cases hbranch : errno.branch with
  | connecting =>
    have hnone : c.due = [] := hdue (by simp [hbranch])
    exact .of_due_nil hnone
  | retry =>
    have hnone : c.due = [] := hdue (by simp [hbranch])
    exact Single.retry hnone
  | close => exact h.of_sublist (List.Sublist.refl _) rfl

/-- A call of `::connect` that does not just fail puts one more attempt under way. -/
theorem underWay_attempted (hbranch : errno.branch ≠ .close)
    (hconnects : c.connects = true) :
    (c.attempted errno sockfd).underWay = c.due.length + 1 := by
  unfold Connector.attempted
  cases herrno : errno.branch with
  | connecting => exact Nat.add_comm 1 c.due.length
  | retry =>
    simp only
    unfold Connector.retry
    rw [if_pos hconnects]
    change 0 + (c.phase.expired ++ (c.timers ++ [c.numTimers])).length = c.due.length + 1
    unfold due
    simp only [List.length_append, List.length_singleton]
    omega
  | close => exact absurd herrno hbranch

/-- A poll only moves timers from the queue to the expired ones. -/
theorem due_poll_length_le {expired : List ℕ} {active : List ChannelOwner}
    (hfound : c.MayFind expired active) : (c.poll expired active).due.length ≤ c.due.length := by
  obtain ⟨hphase, ⟨hnodup, hmem⟩, _⟩ := hfound
  have hsubset : expired ⊆ c.timers.filter fun timer => timer ∈ expired := by
    intro timer htimer
    simpa using ⟨hmem timer htimer, htimer⟩
  have hle := (List.Nodup.subperm hnodup hsubset).length_le
  have hsplit := (List.filter_append_perm (fun timer => timer ∈ expired) c.timers).length_eq
  have hdue : c.due = c.timers := by
    unfold due
    rw [hphase]
    rfl
  rw [List.length_append] at hsplit
  change (expired ++ c.timers.filter fun timer => timer ∉ expired).length ≤ c.due.length
  rw [List.length_append, hdue]
  simp only [decide_not] at hsplit ⊢
  omega

/-- A poll starts no attempt. -/
theorem Single.poll {expired : List ℕ} {active : List ChannelOwner} (h : c.Single)
    (hfound : c.MayFind expired active) : (c.poll expired active).Single := by
  have hle := due_poll_length_le hfound
  refine ⟨hle.trans h.one, fun hne => h.waiting fun hnil => hne ?_⟩
  rw [hnil] at hle
  exact List.length_eq_zero_iff.mp (Nat.le_zero.mp hle)

/-- The handler of the connector's channel ends the attempt that was under way. -/
theorem Single.handled {handed : Option ℕ} {success : Bool} (h : c.Single)
    (hstate : c.state = .kConnecting)
    (hphase : c.phase.expired = []) (hhandled : Handled c sockfd success (c', handed)) :
    c'.handlerDone.Single := by
  have hdue : c.due = [] := by
    by_contra hne
    cases hstate.symm.trans (h.waiting hne)
  have htimers : c.timers = [] := (List.append_eq_nil_iff.mp hdue).2
  cases hhandled with
  | untouched => exact .of_due_nil htimers
  | failed =>
    have hsingle : ((c.detached sockfd).retry sockfd).Single := Single.retry hdue
    have hexpired : ((c.detached sockfd).retry sockfd).phase.expired = [] := by
      unfold Connector.retry
      split <;> exact hphase
    refine hsingle.of_sublist ?_ rfl
    unfold due
    rw [hexpired]
    exact List.Sublist.refl _
  | connected => exact .of_due_nil htimers
  | stopped => exact .of_due_nil htimers

/-- `startInLoop` in an idle connector succeeds and leaves at most one attempt under way. -/
theorem startInLoop_of_idle (errno : Errno) (h : c.Coherent) (hsingle : c.Single)
    (hfresh : sockfd ∉ c.sockets) (hstate : c.state = .kDisconnected)
    (hdue : errno.branch ≠ .close → c.due = [])
    (hchannel : errno.branch = .connecting → c.channel = none) :
    ∃ c', c.startInLoop errno sockfd = .ok c' ∧ c'.Coherent ∧ c'.Single := by
  have hok := startInLoop_eq_ok.mpr ⟨hstate, fun _ hbranch =>
    ⟨hchannel hbranch, h.unknown hfresh⟩, rfl⟩
  refine ⟨_, hok, h.startInLoop hok, ?_⟩
  split
  · exact hsingle.attempted hdue
  · exact hsingle

/-- The retry timer that has expired is the only attempt under way, and it finds no channel. -/
theorem Single.of_expired (h : c.Coherent) (hsingle : c.Single) (hexpired : c.phase.expired ≠ []) :
    c.state = .kDisconnected ∧ c.channel = none ∧ ∃ timer active,
      c.phase = .timers [timer] active ∧ c.timers = [] := by
  obtain ⟨timer, rest, active, hphase⟩ := LoopPhase.exists_of_expired hexpired
  have hdue : c.due = timer :: (rest ++ c.timers) := by
    unfold due
    rw [hphase]
    rfl
  have hstate := hsingle.waiting (by simp [hdue])
  have hone := hsingle.one
  rw [hdue, List.length_cons] at hone
  have hothers : rest ++ c.timers = [] := List.length_eq_zero_iff.mp (by omega)
  obtain ⟨rfl, htimers⟩ := List.append_eq_nil_iff.mp hothers
  have hquiet := h.not_queued (by simp [hphase, LoopPhase.batch]) (by simp [hphase])
  exact ⟨hstate, h.channel_eq_none (by simp [hstate]) hquiet, timer, active, hphase, htimers⟩

/-- The retry timer that has expired can run. -/
theorem runTimer_of_expired (errno : Errno) (h : c.Coherent) (hsingle : c.Single)
    (hfresh : sockfd ∉ c.sockets)
    (hexpired : c.phase.expired ≠ []) :
    ∃ c', c.runTimer errno sockfd = .ok c' ∧ c'.Coherent ∧ c'.Single := by
  obtain ⟨hstate, hnone, timer, active, hphase, htimers⟩ := hsingle.of_expired h hexpired
  unfold Connector.runTimer
  rw [hphase]
  exact startInLoop_of_idle errno (h.timerTaken hphase) (.of_due_nil htimers) hfresh hstate
    (fun _ => htimers) fun _ => hnone

end Connector

namespace ConnectorUse

open Connector

/-- A call of `start` finds no attempt under way: `state_` is `kDisconnected`, and, unless
`::connect` just fails, no retry timer will still run and no old channel is in the way. -/
def StartsIdle (u : ConnectorUse) : ConnectorStep → Prop
  | .start errno _ => u.connector.state = .kDisconnected ∧
      (errno.branch ≠ .close → u.connector.due = []) ∧
      (errno.branch = .connecting → u.connector.channel = none)
  | _ => True

/-- What every run with such calls keeps. -/
structure Orderly (u : ConnectorUse) : Prop where
  coherent : u.connector.Coherent
  single : u.connector.Single
  handed : u.handed ≠ .nothing → u.connector.state = .kConnected
  /-- The channel of a connection made in an earlier iteration is gone. -/
  earlier : u.handed = .earlier → u.connector.channel = none

variable {u : ConnectorUse} {errno : Errno} {sockfd : ℕ}

/-- The initial state is orderly. -/
theorem Orderly.of_init (h : connectorSystem.init u) : u.Orderly := by
  cases h
  refine ⟨.of_new, .of_due_nil rfl, fun h => absurd rfl h, ?_⟩
  intro h
  cases h

/-- Without a connection handed over, the last two facts are void. -/
theorem Orderly.of_nothing {c : Connector} (h : c.Coherent) (hsingle : c.Single) :
    Orderly ⟨c, .nothing⟩ :=
  ⟨h, hsingle, fun hne => absurd rfl hne, fun heq => by cases heq⟩

/-- The connector changes without a change of `state_` or `channel_`. -/
theorem Orderly.of_same {c : Connector} (h : u.Orderly) (hcoherent : c.Coherent)
    (hsingle : c.Single) (hstate : c.state = u.connector.state)
    (hchannel : c.channel = u.connector.channel) : Orderly ⟨c, u.handed⟩ :=
  ⟨hcoherent, hsingle, fun hne => hstate.trans (h.handed hne),
    fun heq => hchannel.trans (h.earlier heq)⟩

/-- While a socket is handed over, `state_` is neither of the others. -/
theorem Orderly.nothing_of_ne (h : u.Orderly) (hstate : u.connector.state ≠ .kConnected) :
    u.handed = .nothing := by
  by_contra hne
  exact hstate (h.handed hne)

/-- A call of `start` that finds no attempt under way. -/
theorem Orderly.start (h : u.Orderly) (hfresh : sockfd ∉ u.connector.sockets)
    (hidle : u.StartsIdle (.start errno sockfd)) :
    ∃ v, u.exec (.start errno sockfd) = .ok v ∧ v.Orderly := by
  obtain ⟨hstate, hdue, hchannel⟩ := hidle
  have hcoherent : Coherent { u.connector with connects := true } :=
    h.coherent.of_same Iff.rfl rfl rfl (fun _ _ => id) rfl rfl
  have hsingle : Single { u.connector with connects := true } :=
    h.single.of_sublist (List.Sublist.refl _) rfl
  obtain ⟨c, hok, hc, hc'⟩ :=
    startInLoop_of_idle errno hcoherent hsingle hfresh hstate hdue hchannel
  have hnothing : u.handed = .nothing := h.nothing_of_ne (by simp [hstate])
  refine ⟨⟨c, u.handed⟩, bind_eq_ok.mpr ⟨c, hok, rfl⟩, ?_⟩
  rw [hnothing]
  exact .of_nothing hc hc'

/-- A call of `restart` for a lost connection. -/
theorem Orderly.restart (h : u.Orderly) (hfresh : sockfd ∉ u.connector.sockets)
    (hlost : u.handed = .earlier) :
    ∃ v, u.exec (.restart errno sockfd) = .ok v ∧ v.Orderly := by
  have hstate := h.handed (by simp [hlost])
  have hdue : u.connector.due = [] := by
    by_contra hne
    cases hstate.symm.trans (h.single.waiting hne)
  have hnone := h.earlier hlost
  have hcoherent : Coherent { u.connector.setState .kDisconnected with
      retryDelayMs := kInitRetryDelayMs
      connects := true } := by
    refine h.coherent.of_same ?_ rfl rfl (fun _ _ => id) rfl rfl
    simp [setState, hstate]
  obtain ⟨c, hok, hc, hc'⟩ := startInLoop_of_idle errno hcoherent (.of_due_nil hdue)
    hfresh rfl (fun _ => hdue) (fun _ => hnone)
  exact ⟨⟨c, .nothing⟩, bind_eq_ok.mpr ⟨c, hok, rfl⟩, .of_nothing hc hc'⟩

/-- A retry timer runs. -/
theorem Orderly.runTimer (h : u.Orderly) (hfresh : sockfd ∉ u.connector.sockets)
    (hexpired : u.connector.phase.expired ≠ []) :
    ∃ v, u.exec (.runTimer errno sockfd) = .ok v ∧ v.Orderly := by
  obtain ⟨hstate, _⟩ := h.single.of_expired h.coherent hexpired
  obtain ⟨c, hok, hc, hc'⟩ := runTimer_of_expired errno h.coherent h.single hfresh
    hexpired
  have hnothing : u.handed = .nothing := h.nothing_of_ne (by simp [hstate])
  refine ⟨⟨c, u.handed⟩, bind_eq_ok.mpr ⟨c, hok, rfl⟩, ?_⟩
  rw [hnothing]
  exact .of_nothing hc hc'

/-- The loop polls. -/
theorem Orderly.poll {expired : List ℕ} {active : List ChannelOwner} (h : u.Orderly)
    (hfound : u.connector.MayFind expired active) :
    ∃ v, u.exec (.poll expired active) = .ok v ∧ v.Orderly := by
  refine ⟨_, rfl, h.coherent.poll hfound, h.single.poll hfound, ?_, ?_⟩
  · intro hne
    refine h.handed fun hnothing => hne ?_
    simp [hnothing]
  · intro hearlier
    have hstate := h.handed fun hnothing => by simp [hnothing] at hearlier
    have hphase := hfound.1
    exact h.coherent.channel_eq_none (by simp [hstate])
      (h.coherent.not_queued (by simp [hphase, LoopPhase.batch]) (by simp [hphase]))

/-- The channel of the connector is handled. -/
theorem Orderly.handleEvent {revents : BitVec 32} {soError : ℤ} {selfConnect : Bool}
    (h : u.Orderly) (hphase : u.connector.phase =
      .channels (.connector :: u.connector.phase.active.tail)) :
    ∃ v, u.exec (.handleEvent revents soError selfConnect) = .ok v ∧ v.Orderly := by
  obtain ⟨fd, ⟨c, handed⟩, hstate, hchannel, hregistered, hok, hhandled⟩ :=
    h.coherent.exists_handled (by rw [hphase]; exact List.mem_cons_self) revents soError
      selfConnect
  have hc := h.coherent.handled hphase hchannel hhandled
  have hc' := h.single.handled hstate (by rw [hphase]; rfl) hhandled
  have hnothing : u.handed = .nothing := h.nothing_of_ne (by simp [hstate])
  refine ⟨_, bind_eq_ok.mpr ⟨_, hok, rfl⟩, ?_⟩
  rw [hnothing]
  cases hhandled with
  | connected => exact ⟨hc, hc', fun _ => rfl, fun heq => by cases heq⟩
  | untouched | failed | stopped => exact .of_nothing hc hc'

/-- Every step that meets the condition succeeds and keeps the run orderly. -/
theorem Orderly.step {a : ConnectorStep} (h : u.Orderly) (henabled : u.enabled a)
    (hidle : u.StartsIdle a) : ∃ v, u.exec a = .ok v ∧ v.Orderly := by
  cases a with
  | start errno sockfd => exact h.start henabled hidle
  | stop =>
    obtain ⟨timers, hsublist, heq⟩ := cancel_eq { u.connector with connects := false }
    have hstop : u.connector.stop = { u.connector with connects := false, timers := timers } := heq
    refine ⟨_, rfl, h.of_same h.coherent.stop ?_ (by rw [hstop]) (by rw [hstop])⟩
    rw [hstop]
    exact h.single.of_sublist (hsublist.append_left _) rfl
  | restart errno sockfd => exact h.restart henabled.2 henabled.1
  | closeHanded sockfd =>
    have hunknown : u.connector.Unknown sockfd := henabled
    refine ⟨_, rfl, h.of_same ?_ (h.single.of_sublist (List.Sublist.refl _) rfl) rfl rfl⟩
    refine h.coherent.of_same Iff.rfl rfl rfl (fun r hr hopen => ?_) rfl rfl
    exact (List.mem_erase_of_ne (hunknown r hr)).mpr hopen
  | poll expired active => exact h.poll henabled
  | runTimer errno sockfd => exact h.runTimer henabled.2 henabled.1
  | timersDone =>
    have hphase : u.connector.phase = .timers [] u.connector.phase.active := henabled
    refine ⟨_, rfl, h.of_same (h.coherent.timersDone hphase) ?_ rfl rfl⟩
    exact h.single.of_same (by rw [hphase]; rfl) rfl rfl
  | handleEvent revents soError selfConnect => exact h.handleEvent henabled
  | swap =>
    have hphase : u.connector.phase = .channels [] := henabled
    refine ⟨_, rfl, h.of_same (h.coherent.swap hphase) ?_ rfl rfl⟩
    exact h.single.of_same (by rw [hphase]; rfl) rfl rfl
  | resetChannel =>
    have hphase : u.connector.phase = .functors (.resetChannel :: _) := henabled
    have hc := h.coherent.resetChannel hphase
    refine ⟨_, rfl, hc, ?_, h.handed, fun _ => rfl⟩
    exact h.single.of_same (by rw [hphase]; rfl) rfl rfl
  | iterationDone =>
    have hphase : u.connector.phase = .functors [] := henabled
    refine ⟨_, rfl, h.of_same (h.coherent.iterationDone hphase) ?_ rfl rfl⟩
    exact h.single.of_same (by rw [hphase]; rfl) rfl rfl

/-- At the call, `start` keeps to one attempt, and its assertions hold, exactly if it finds no
attempt under way. -/
theorem Orderly.start_iff (h : u.Orderly) (hfresh : sockfd ∉ u.connector.sockets) :
    (∃ v, u.exec (.start errno sockfd) = .ok v ∧ v.connector.underWay ≤ 1) ↔
      u.StartsIdle (.start errno sockfd) := by
  constructor
  · rintro ⟨v, hexec, hone⟩
    obtain ⟨c, hok, hv⟩ := bind_eq_ok.mp hexec
    cases hv
    obtain ⟨hstate, hneeds, hc⟩ := startInLoop_eq_ok.mp hok
    refine ⟨hstate, fun hbranch => ?_, fun hbranch => (hneeds rfl hbranch).1⟩
    have hcalled : c = Connector.attempted { u.connector with connects := true } errno sockfd := hc
    have hunderWay : c.underWay = u.connector.due.length + 1 :=
      hcalled ▸ underWay_attempted hbranch rfl
    have hlength : c.underWay ≤ 1 := hone
    exact List.length_eq_zero_iff.mp (by omega)
  · intro hidle
    obtain ⟨v, hexec, hv⟩ := h.start hfresh hidle
    exact ⟨v, hexec, hv.single.underWay_le⟩

/-- **One attempt at a time.** If every call of `start` finds no attempt under way, then there is
never more than one of a socket in `kConnecting` and a retry timer, and no assertion of the
connector fails; and the next call of `start` keeps this exactly if it meets the condition. -/
theorem one_attempt (h : (connectorSystem.restrict StartsIdle).Reachable u) :
    u.connector.underWay ≤ 1 ∧ (connectorSystem.restrict StartsIdle).Safe u ∧
      ∀ errno, ∀ sockfd ∉ u.connector.sockets,
        (∃ v, u.exec (.start errno sockfd) = .ok v ∧ v.connector.underWay ≤ 1) ↔
          u.StartsIdle (.start errno sockfd) := by
  obtain ⟨horderly, hsafe⟩ := h.invariant_safe (I := Orderly) .of_init
    fun horderly henabled => horderly.step henabled.1 henabled.2
  exact ⟨horderly.single.underWay_le, hsafe, fun _ _ hfresh => horderly.start_iff hfresh⟩

instance (u : ConnectorUse) (a : ConnectorStep) : Decidable (u.StartsIdle a) := by
  cases a <;> unfold StartsIdle <;> infer_instance

instance (u : ConnectorUse) (a : ConnectorStep) :
    Decidable ((connectorSystem.restrict StartsIdle).enabled u a) :=
  inferInstanceAs (Decidable (u.enabled a ∧ u.StartsIdle a))

/-- An iteration in which the channel of the connector reports these events. -/
def attemptEnds (revents : BitVec 32) (soError : ℤ) : List ConnectorStep :=
  [.poll [] [.connector], .timersDone, .handleEvent revents soError false, .swap, .resetChannel,
    .iterationDone]

/-- The first attempt fails, the second one makes a connection, which is lost later, and the
third one is refused at once. -/
def threeAttempts : List ConnectorStep :=
  [ConnectorStep.start .EINPROGRESS 5] ++
    attemptEnds (POLLERR ||| POLLHUP ||| POLLOUT) 111 ++
    [ConnectorStep.poll [0] [], .runTimer .EINPROGRESS 5, .timersDone, .swap, .iterationDone] ++
    attemptEnds POLLOUT 0 ++ [ConnectorStep.poll [] [], .timersDone, .restart .ECONNREFUSED 6]

/-- After three attempts the connector waits for its second retry timer. -/
theorem one_attempt_threeAttempts :
    ∃ u, (connectorSystem.restrict StartsIdle).Reachable u ∧ u.connector.attempts = 3 ∧
      u.connector.timers = [1] ∧ u.connector.underWay ≤ 1 ∧
      (connectorSystem.restrict StartsIdle).Safe u := by
  have hcheck : ((connectorSystem.restrict StartsIdle).replay ⟨.new, .nothing⟩ threeAttempts).any
      (fun u => decide (u.connector.attempts = 3 ∧ u.connector.timers = [1])) = true := by
    decide +kernel
  obtain ⟨u, hrun, hu⟩ := System.exists_run_of_replay hcheck
  obtain ⟨hattempts, htimers⟩ := of_decide_eq_true hu
  have hreach : (connectorSystem.restrict StartsIdle).Reachable u := ⟨_, _, rfl, hrun⟩
  obtain ⟨hone, hsafe, _⟩ := one_attempt hreach
  exact ⟨u, hreach, hattempts, htimers, hone, hsafe⟩

/-- An attempt has failed, and its retry timer is pending. -/
def waitingForRetry : List ConnectorStep :=
  [ConnectorStep.start .EINPROGRESS 5] ++ attemptEnds (POLLERR ||| POLLHUP ||| POLLOUT) 111

/-- An attempt has just failed in this iteration, and `stop` has cancelled the retry timer. -/
def failedInThisIteration : List ConnectorStep :=
  [.start .EINPROGRESS 5, .poll [] [.connector], .timersDone, .handleEvent POLLERR 111 false, .stop]

/-- A call of `start` during a pending retry makes two attempts at a time; during an attempt it
fails the assertion of `startInLoop`; in the iteration of a failed attempt it fails the assertion
of `connecting`. -/
theorem two_attempts :
    (∃ u, connectorSystem.Reachable u ∧ u.connector.underWay = 2) ∧
      (∃ u, connectorSystem.Reachable u ∧ connectorSystem.enabled u (.start .EINPROGRESS 6) ∧
        u.exec (.start .EINPROGRESS 6) = .error (.assertion "state_ == kDisconnected")) ∧
      ∃ u, connectorSystem.Reachable u ∧ connectorSystem.enabled u (.start .EINPROGRESS 6) ∧
        u.exec (.start .EINPROGRESS 6) = .error (.assertion "!channel_") := by
  refine ⟨?_, ?_, ?_⟩
  · have hcheck : (connectorSystem.replay ⟨.new, .nothing⟩
        (waitingForRetry ++ [ConnectorStep.start .EINPROGRESS 6])).any
        (fun u => decide (u.connector.underWay = 2)) = true := by decide +kernel
    obtain ⟨u, hrun, hu⟩ := System.exists_run_of_replay hcheck
    exact ⟨u, ⟨_, _, rfl, hrun⟩, of_decide_eq_true hu⟩
  · have hcheck : (connectorSystem.replay ⟨.new, .nothing⟩ [.start .EINPROGRESS 5]).any
        (fun u => decide (connectorSystem.enabled u (.start .EINPROGRESS 6) ∧
          u.exec (.start .EINPROGRESS 6) = .error (.assertion "state_ == kDisconnected"))) =
        true := by decide +kernel
    obtain ⟨u, hrun, hu⟩ := System.exists_run_of_replay hcheck
    exact ⟨u, ⟨_, _, rfl, hrun⟩, of_decide_eq_true hu⟩
  · have hcheck : (connectorSystem.replay ⟨.new, .nothing⟩ failedInThisIteration).any
        (fun u => decide (connectorSystem.enabled u (.start .EINPROGRESS 6) ∧
          u.exec (.start .EINPROGRESS 6) = .error (.assertion "!channel_"))) = true := by
      decide +kernel
    obtain ⟨u, hrun, hu⟩ := System.exists_run_of_replay hcheck
    exact ⟨u, ⟨_, _, rfl, hrun⟩, of_decide_eq_true hu⟩

end ConnectorUse

end Dalin.Net
