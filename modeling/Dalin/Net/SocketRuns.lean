import Dalin.Net.SocketLives

/-!
# No socket is lost

The runs of a connector with its record, in which `start` is called only when
nothing is left of the last attempt. Without the record they are runs of the
connector with one attempt at a time, so the invariants of those hold; with it,
every step keeps account of the sockets and obeys `stop`.
-/

set_option autoImplicit false

namespace Dalin.Net

open Transition

namespace ConnectorUse

variable {u : ConnectorUse} {a : ConnectorStep}

/-- `start` is called only when `state_` is `kDisconnected`, no retry timer will still run and no
`resetChannel` is queued. -/
def StartsQuiet (u : ConnectorUse) : ConnectorStep → Prop
  | .start _ _ => u.connector.state = .kDisconnected ∧ u.connector.due = [] ∧
      .resetChannel ∉ u.connector.queued
  | _ => True

instance (u : ConnectorUse) (a : ConnectorStep) : Decidable (u.StartsQuiet a) := by
  unfold StartsQuiet
  apply @ConnectorStep.casesOn _ a <;> intros <;> infer_instance

/-- Such a call of `start` finds no attempt under way. -/
theorem Orderly.startsIdle (h : u.Orderly) (hquiet : u.StartsQuiet a) : u.StartsIdle a := by
  cases a with
  | start errno sockfd =>
    obtain ⟨hstate, hdue, hqueued⟩ := hquiet
    exact ⟨hstate, fun _ => hdue, fun _ => h.coherent.channel_eq_none (by simp [hstate]) hqueued⟩
  | _ => trivial

end ConnectorUse

/-- A recorded connector and its user. -/
structure RecordedUse where
  recorded : RecordedConnector
  handed : HandedOver
  deriving DecidableEq

namespace RecordedUse

open RecordedConnector

/-- The use without the record. -/
def forget (u : RecordedUse) : ConnectorUse := ⟨u.recorded.connector, u.handed⟩

/-- The effect of a step; those that only the loop and the user of a connection take are not put on
record. -/
def exec (u : RecordedUse) : ConnectorStep → Except Failure RecordedUse
  | .start errno sockfd => do
    let recorded ← u.recorded.start errno sockfd
    return { u with recorded }
  | .stop => .ok { u with recorded := u.recorded.stop }
  | .restart errno sockfd => do
    let recorded ← u.recorded.restart errno sockfd
    return ⟨recorded, .nothing⟩
  | .runTimer errno sockfd => do
    let recorded ← u.recorded.runTimer errno sockfd
    return { u with recorded }
  | .handleEvent revents soError selfConnect => do
    let (recorded, handed) ← u.recorded.handleEvent revents soError selfConnect
    return ⟨recorded.change Connector.handlerDone,
      if handed.isSome then .inThisIteration else u.handed⟩
  | a => do
    let v ← u.forget.exec a
    return ⟨⟨v.connector, u.recorded.events⟩, v.handed⟩

end RecordedUse

/-- All runs of a connector with its record in which `start` is called only when nothing is left
of the last attempt. -/
def socketSystem : System RecordedUse ConnectorStep Failure where
  init u := u = ⟨⟨.new, []⟩, .nothing⟩
  enabled u a := u.forget.enabled a ∧ u.forget.StartsQuiet a
  exec := RecordedUse.exec

instance (u : RecordedUse) (a : ConnectorStep) : Decidable (socketSystem.enabled u a) :=
  inferInstanceAs (Decidable (u.forget.enabled a ∧ u.forget.StartsQuiet a))

namespace RecordedUse

open RecordedConnector

variable {u v : RecordedUse} {a : ConnectorStep} {errno : Errno} {sockfd : ℕ}

/-- The step of the connector puts some events on record. -/
def Advances (u : RecordedUse) (a : ConnectorStep) : Prop :=
  ∃ v news, u.exec a = .ok v ∧ u.forget.exec a = .ok v.forget ∧
    v.recorded.events = u.recorded.events ++ news ∧
    Records u.recorded.connector v.recorded.connector news

/-- A step that is not put on record. -/
theorem Advances.of_unrecorded {c : Connector} {handed : HandedOver}
    (hexec : u.exec a = .ok ⟨⟨c, u.recorded.events⟩, handed⟩)
    (hforget : u.forget.exec a = .ok ⟨c, handed⟩)
    (hkeeps : Keeps u.recorded.connector c)
    (hconnects : c.connects = u.recorded.connector.connects) : u.Advances a :=
  ⟨_, [], hexec, hforget, (List.append_nil _).symm, .nothing hkeeps hconnects⟩

/-- A step that calls `startInLoop` with `connect_` set. -/
theorem Advances.of_attempt {r : RecordedConnector} {call : List ConnectorEvent}
    {handed : HandedOver} {v : ConnectorUse}
    (hexec : u.exec a = r.startInLoop errno sockfd >>= fun r => .ok ⟨r, handed⟩)
    (hforget : u.forget.exec a = r.connector.startInLoop errno sockfd >>= fun c => .ok ⟨c, handed⟩)
    (hok : u.forget.exec a = .ok v) (hevents : r.events = u.recorded.events ++ call)
    (hcall : call = [] ∧ u.recorded.connector.connects = true ∨ call = [.start] ∨
      call = [.restart])
    (hconnects : r.connector.connects = true)
    (hidle : u.recorded.connector.state ≠ .kConnecting) : u.Advances a := by
  obtain ⟨c, hc, _⟩ := bind_eq_ok.mp (hforget.symm.trans hok)
  have hr : r.startInLoop errno sockfd =
      .ok ⟨c, r.events ++ attemptEvents r.connector errno sockfd⟩ := by
    rw [startInLoop_eq, hc]
    rfl
  obtain ⟨hconnects', event, hbegun, hnews⟩ := startInLoop_records hr hconnects
  refine ⟨⟨_, handed⟩, call ++ [ConnectorEvent.created sockfd, .socket sockfd event], ?_, ?_, ?_,
    .attempted call sockfd event hcall hidle hconnects' hbegun⟩
  · rw [hexec, hr]
    rfl
  · rw [hforget, hc]
    rfl
  · rw [hnews, hevents, List.append_assoc]

/-- A retry timer calls `::connect`, or it finds that `stop` was called. -/
theorem Advances.runTimer (h : u.forget.Orderly)
    (henabled : u.forget.enabled (.runTimer errno sockfd)) :
    u.Advances (.runTimer errno sockfd) := by
  have hexpired : u.recorded.connector.phase.expired ≠ [] := henabled.1
  obtain ⟨hstate, _⟩ := h.single.of_expired h.coherent hexpired
  have hidle : u.recorded.connector.state = .kDisconnected := hstate
  obtain ⟨v, hok, _⟩ := h.runTimer henabled.2 hexpired
  obtain ⟨timer, rest, active, hphase⟩ := LoopPhase.exists_of_expired hexpired
  let r := u.recorded.change fun c => { c with phase := .timers rest active }
  have hexec : u.exec (.runTimer errno sockfd) =
      r.startInLoop errno sockfd >>= fun r => .ok ⟨r, u.handed⟩ := by
    change (u.recorded.runTimer errno sockfd >>= _) = _
    unfold RecordedConnector.runTimer
    rw [hphase]
    rfl
  have hforget : u.forget.exec (.runTimer errno sockfd) =
      r.connector.startInLoop errno sockfd >>= fun c => .ok ⟨c, u.handed⟩ := by
    change (u.recorded.connector.runTimer errno sockfd >>= _) = _
    unfold Connector.runTimer
    rw [hphase]
    rfl
  cases hconnects : u.recorded.connector.connects with
  | true =>
    exact .of_attempt hexec hforget hok (List.append_nil _).symm (Or.inl ⟨rfl, hconnects⟩)
      hconnects (by simp [hidle])
  | false =>
    obtain ⟨hstart, hplain⟩ := startInLoop_of_not_connects (r := r) errno sockfd hidle hconnects
    rw [hstart] at hexec
    rw [hplain] at hforget
    exact .of_unrecorded hexec hforget (.of_eq rfl rfl) rfl

/-- The handler of the channel finishes the socket or leaves it in progress. -/
theorem Advances.handleEvent {revents : BitVec 32} {soError : ℤ} {selfConnect : Bool}
    (h : u.forget.Orderly)
    (henabled : u.forget.enabled (.handleEvent revents soError selfConnect)) :
    u.Advances (.handleEvent revents soError selfConnect) := by
  have hphase : u.recorded.connector.phase =
    .channels (.connector :: u.recorded.connector.phase.active.tail) := henabled
  obtain ⟨fd, _, hstate, hchannel, hregistered, _⟩ :=
    h.coherent.exists_handled (by rw [forget, hphase]; exact List.mem_cons_self) revents soError
      selfConnect
  obtain ⟨c, news, handed, hok, hrecords⟩ :=
    handleEvent_records revents soError selfConnect hstate hchannel hregistered
  have hplain := handleEvent_connector u.recorded revents soError selfConnect
  rw [hok] at hplain
  refine ⟨⟨⟨c.handlerDone, u.recorded.events ++ news⟩,
    if handed.isSome then .inThisIteration else u.handed⟩, news, ?_, ?_, rfl, ?_⟩
  · exact bind_eq_ok.mpr ⟨_, hok, rfl⟩
  · exact bind_eq_ok.mpr ⟨_, hplain.symm, rfl⟩
  · exact hrecords.handlerDone

/-- What a step of an orderly run puts on record. -/
theorem advances (h : u.forget.Orderly) (henabled : u.forget.enabled a)
    (hquiet : u.forget.StartsQuiet a) : u.Advances a := by
  obtain ⟨v, hok, _⟩ := h.step henabled (h.startsIdle hquiet)
  cases a with
  | start errno sockfd =>
    have hstate : u.recorded.connector.state = .kDisconnected := hquiet.1
    exact .of_attempt (r := (u.recorded.record .start).change fun c => { c with connects := true })
      rfl rfl hok rfl (Or.inr (Or.inl rfl)) rfl (by simp [hstate])
  | stop =>
    obtain ⟨timers, _, hcancel⟩ :=
      Connector.cancel_eq { u.recorded.connector with connects := false }
    have hstop : u.recorded.connector.stop =
        { u.recorded.connector with connects := false, timers := timers } := hcancel
    refine ⟨{ u with recorded := u.recorded.stop }, [.stop], rfl, rfl, rfl, ?_⟩
    change Records _ u.recorded.connector.stop _
    rw [hstop]
    exact .stopped (.of_eq rfl rfl) rfl
  | restart errno sockfd =>
    have hlost : u.handed = .earlier := henabled.1
    have hstate : u.recorded.connector.state = .kConnected := h.handed (by simp [forget, hlost])
    exact .of_attempt (r := (u.recorded.record .restart).change fun c =>
        { c.setState .kDisconnected with
          retryDelayMs := Connector.kInitRetryDelayMs
          connects := true })
      rfl rfl hok rfl (Or.inr (Or.inr rfl)) rfl (by simp [hstate])
  | runTimer errno sockfd => exact .runTimer h henabled
  | handleEvent revents soError selfConnect => exact .handleEvent h henabled
  | resetChannel =>
    have hphase : u.recorded.connector.phase = .functors (.resetChannel :: _) := henabled
    have hqueued : .resetChannel ∈ u.recorded.connector.queued := by
      unfold Connector.queued
      rw [hphase]
      exact List.mem_cons_self
    obtain ⟨hidle, _⟩ := h.coherent.channel_of_queued hqueued
    exact .of_unrecorded rfl rfl ⟨Iff.rfl, fun hstate => absurd hstate hidle⟩ rfl
  | closeHanded | poll | timersDone | swap | iterationDone =>
    exact .of_unrecorded rfl rfl (.of_eq rfl rfl) rfl

/-- What every run keeps. -/
structure Conserves (u : RecordedUse) : Prop where
  orderly : u.forget.Orderly
  accounted : ∃ sockets, lives u.recorded.events = some sockets ∧
    Accounted u.recorded.connector sockets
  obedient : Obedient u.recorded

/-- At first there are no sockets. -/
theorem Conserves.of_init (h : socketSystem.init u) : u.Conserves := by
  cases h
  refine ⟨.of_init rfl, ⟨[], rfl, .idle [] (fun h => by cases h) (by simp)⟩, ?_, ?_⟩
  · intro before after hsplit
    simp at hsplit
  · intro before after hsplit
    simp at hsplit

/-- Every step succeeds, keeps account of the sockets and obeys `stop`. -/
theorem Conserves.step (h : u.Conserves) (henabled : socketSystem.enabled u a) :
    ∃ v, socketSystem.exec u a = .ok v ∧ v.Conserves := by
  obtain ⟨hallowed, hquiet⟩ := henabled
  obtain ⟨v', hok, horderly⟩ := h.orderly.step hallowed (h.orderly.startsIdle hquiet)
  obtain ⟨v, news, hexec, hforget, hevents, hrecords⟩ := advances h.orderly hallowed hquiet
  obtain rfl : v.forget = v' := Except.ok.inj (hforget.symm.trans hok)
  obtain ⟨sockets, hlives, haccounted⟩ := h.accounted
  obtain ⟨sockets', hnews, haccounted'⟩ := haccounted.records hrecords
  refine ⟨v, hexec, horderly, ⟨sockets', ?_, haccounted'⟩, h.obedient.records hevents hrecords⟩
  rw [hevents, lives_append, hlives]
  exact hnews

/-- **No socket is lost.** If `start` is called only when nothing is left of the last attempt, then
every socket that `connect` has created is being connected, with its channel registered, or was
closed once, or was handed over once, in the last two cases after its channel was removed; no
other channel of the connector is registered; after `stop` no socket is created or handed over
until `start` or `restart` is called; and no assertion fails. -/
theorem sockets_conserved (h : socketSystem.Reachable u) :
    (∃ sockets, lives u.recorded.events = some sockets ∧
      (∀ life ∈ sockets, ∃! fate, life.HasFate u.recorded.connector fate) ∧
      ∀ r ∈ u.recorded.connector.channels, r.owner = .connector →
        ⟨r.fd, [.registered]⟩ ∈ sockets) ∧
    ObeysStop u.recorded.events ∧ socketSystem.Safe u := by
  obtain ⟨hconserves, hsafe⟩ := h.invariant_safe (I := Conserves) .of_init
    fun hconserves henabled => hconserves.step henabled
  obtain ⟨sockets, hlives, haccounted⟩ := hconserves.accounted
  have hcoherent := hconserves.orderly.coherent
  exact ⟨⟨sockets, hlives, fun _ hlife => haccounted.existsUnique_fate hcoherent hlife,
    fun _ hr howner => haccounted.registered hcoherent hr howner⟩, hconserves.obedient.obeys, hsafe⟩

/-- After three attempts and a call of `stop`, the first socket was closed, the second one, which
had the same descriptor, was handed over, and the third one was closed at once. -/
theorem sockets_conserved_threeAttempts :
    ∃ u, socketSystem.Reachable u ∧
      lives u.recorded.events = some [⟨6, [.closed]⟩, ⟨5, [.registered, .removed, .handedOver]⟩,
        ⟨5, [.registered, .removed, .closed]⟩] ∧
      ConnectorEvent.stop ∈ u.recorded.events ∧
      (∃ sockets, lives u.recorded.events = some sockets ∧
        (∀ life ∈ sockets, ∃! fate, life.HasFate u.recorded.connector fate) ∧
        ∀ r ∈ u.recorded.connector.channels, r.owner = .connector →
          ⟨r.fd, [.registered]⟩ ∈ sockets) ∧
      ObeysStop u.recorded.events ∧ socketSystem.Safe u := by
  have hcheck : (socketSystem.replay ⟨⟨.new, []⟩, .nothing⟩
      (ConnectorUse.threeAttempts ++ [ConnectorStep.stop])).any
      (fun u => decide (lives u.recorded.events = some [⟨6, [.closed]⟩,
        ⟨5, [.registered, .removed, .handedOver]⟩, ⟨5, [.registered, .removed, .closed]⟩] ∧
        ConnectorEvent.stop ∈ u.recorded.events)) = true := by
    decide +kernel
  obtain ⟨u, hrun, hu⟩ := System.exists_run_of_replay hcheck
  obtain ⟨hlives, hstop⟩ := of_decide_eq_true hu
  have hreach : socketSystem.Reachable u := ⟨_, _, rfl, hrun⟩
  exact ⟨u, hreach, hlives, hstop, sockets_conserved hreach⟩

end RecordedUse

end Dalin.Net
