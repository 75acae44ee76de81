import Dalin.Net.ConnectorSockets

/-!
# The life of a socket

From the record of a connector this file reads off the life of every socket that
`connect` has created, newest first; a descriptor that the kernel hands out again
begins a new life. In every run in which `start` is called only when nothing is
left of the last attempt, each socket is being connected, or was closed once, or
was handed over once; and after `stop` no socket is created or handed over until
the next call of `start` or `restart`.
-/

set_option autoImplicit false

namespace Dalin.Net

open Transition

/-- A socket that `connect` has created, and what happened to it, in order. -/
structure SocketLife where
  sockfd : ℕ
  events : List SocketEvent
  deriving DecidableEq

/-- Something happens to the last socket that was created with this descriptor. -/
def observe (sockfd : ℕ) (event : SocketEvent) : List SocketLife → Option (List SocketLife)
  | [] => none
  | life :: older =>
    if life.sockfd = sockfd then some ({ life with events := life.events ++ [event] } :: older)
    else (observe sockfd event older).map fun older => life :: older

/-- The lives after one more event. -/
def observeEvent (sockets : List SocketLife) : ConnectorEvent → Option (List SocketLife)
  | .created sockfd => some (⟨sockfd, []⟩ :: sockets)
  | .socket sockfd event => observe sockfd event sockets
  | .start | .stop | .restart => some sockets

/-- The lives of the sockets on record, newest first; `none` if something happened to a descriptor
that `connect` never created. -/
def lives (events : List ConnectorEvent) : Option (List SocketLife) :=
  events.foldlM observeEvent []

/-- What can become of a socket. -/
inductive SocketFate
  | connecting
  | closed
  | handedOver
  deriving DecidableEq

namespace SocketLife

/-- The fate of a socket: it is in progress with its channel registered; or it was closed once,
after its channel, if it had one, was removed; or it was handed over once, after its channel was
removed. -/
def HasFate (life : SocketLife) (c : Connector) : SocketFate → Prop
  | .connecting => life.events = [.registered] ∧ c.state = .kConnecting ∧
      c.channel = some life.sockfd ∧ c.Registered life.sockfd .connector
  | .closed => life.events = [.closed] ∨ life.events = [.registered, .removed, .closed]
  | .handedOver => life.events = [.registered, .removed, .handedOver]

/-- The socket was closed or handed over. -/
def Finished (life : SocketLife) : Prop :=
  life.events = [.closed] ∨ life.events = [.registered, .removed, .closed] ∨
    life.events = [.registered, .removed, .handedOver]

variable {life : SocketLife} {c : Connector} {fate fate' : SocketFate}

/-- A socket has one fate at most. -/
theorem HasFate.unique (h : life.HasFate c fate) (h' : life.HasFate c fate') : fate = fate' := by
  cases fate <;> cases fate' <;> simp_all [HasFate]

/-- A finished socket has a fate. -/
theorem Finished.exists_fate (h : life.Finished) (c : Connector) : ∃ fate, life.HasFate c fate := by
  rcases h with h | h | h
  · exact ⟨.closed, Or.inl h⟩
  · exact ⟨.closed, Or.inr h⟩
  · exact ⟨.handedOver, h⟩

end SocketLife

/-- The sockets of a connector: the newest one is in progress in `kConnecting`, and all others
are finished. -/
inductive Accounted (c : Connector) : List SocketLife → Prop
  | idle (sockets : List SocketLife) : c.state ≠ .kConnecting →
      (∀ life ∈ sockets, life.Finished) → Accounted c sockets
  | connecting (sockfd : ℕ) (older : List SocketLife) : c.state = .kConnecting →
      c.channel = some sockfd → (∀ life ∈ older, life.Finished) →
      Accounted c (⟨sockfd, [.registered]⟩ :: older)

/-- After `stop`, `newConnectionCallback_` is not called and no socket is created until the next
call of `start` or `restart`. -/
def ObeysStop (events : List ConnectorEvent) : Prop :=
  ∀ before after, events = before ++ ConnectorEvent.stop :: after → .start ∉ after →
    .restart ∉ after → ∀ sockfd, .created sockfd ∉ after ∧ .socket sockfd .handedOver ∉ after

/-- `stop` was obeyed, and `connect_` says when it was the last call of the user. -/
structure Obedient (r : RecordedConnector) : Prop where
  obeys : ObeysStop r.events
  stopped : ∀ before after, r.events = before ++ ConnectorEvent.stop :: after → .start ∉ after →
    .restart ∉ after → r.connector.connects = false

section

variable {c c' : Connector} {sockets : List SocketLife} {news : List ConnectorEvent}
  {sockfd : ℕ}

/-- What happens to the newest socket. -/
@[simp] theorem observe_newest (sockfd : ℕ) (event : SocketEvent) (events : List SocketEvent)
    (older : List SocketLife) :
    observe sockfd event (⟨sockfd, events⟩ :: older) =
      some (⟨sockfd, events ++ [event]⟩ :: older) :=
  if_pos rfl

/-- The lives after some more events. -/
theorem lives_append (events news : List ConnectorEvent) :
    lives (events ++ news) = lives events >>= fun sockets => news.foldlM observeEvent sockets :=
  List.foldlM_append

/-- A step that leaves the attempt alone. -/
theorem Accounted.keeps (h : Accounted c sockets) (hkeeps : RecordedConnector.Keeps c c') :
    Accounted c' sockets := by
  cases h with
  | idle _ hstate holder => exact .idle _ (mt hkeeps.state.mp hstate) holder
  | connecting sockfd older hstate hchannel holder =>
    exact .connecting sockfd older (hkeeps.state.mpr hstate)
      ((hkeeps.channel hstate).trans hchannel) holder

/-- The newest socket is finished. -/
theorem Accounted.finish (h : Accounted c sockets) (hstate : c.state = .kConnecting)
    (hchannel : c.channel = some sockfd) (hstate' : c'.state ≠ .kConnecting) {event : SocketEvent}
    (hevent : event = .closed ∨ event = .handedOver) :
    ∃ sockets', List.foldlM observeEvent sockets
      [.socket sockfd .removed, .socket sockfd event] = some sockets' ∧ Accounted c' sockets' := by
  cases h with
  | idle _ hidle _ => exact absurd hstate hidle
  | connecting sockfd' older _ hchannel' holder =>
    obtain rfl : sockfd' = sockfd := Option.some.inj (hchannel'.symm.trans hchannel)
    refine ⟨⟨sockfd', [.registered, .removed, event]⟩ :: older, by simp [observeEvent], ?_⟩
    refine .idle _ hstate' (List.forall_mem_cons.mpr ⟨?_, holder⟩)
    rcases hevent with rfl | rfl
    · exact Or.inr (Or.inl rfl)
    · exact Or.inr (Or.inr rfl)

/-- Every step keeps account of the sockets. -/
theorem Accounted.records (h : Accounted c sockets)
    (hrecords : RecordedConnector.Records c c' news) :
    ∃ sockets', news.foldlM observeEvent sockets = some sockets' ∧ Accounted c' sockets' := by
  cases hrecords with
  | nothing hkeeps _ => exact ⟨sockets, rfl, h.keeps hkeeps⟩
  | stopped hkeeps _ => exact ⟨sockets, rfl, h.keeps hkeeps⟩
  | attempted call sockfd event hcall hidle _ hbegun =>
    have hfinished : ∀ life ∈ sockets, life.Finished := by
      cases h with
      | idle _ _ hfinished => exact hfinished
      | connecting _ _ hstate => exact absurd hstate hidle
    refine ⟨⟨sockfd, [event]⟩ :: sockets, ?_, ?_⟩
    · rcases hcall with ⟨rfl, _⟩ | rfl | rfl <;> simp [observeEvent]
    · cases hbegun with
      | connecting hstate hchannel => exact .connecting sockfd sockets hstate hchannel hfinished
      | refused hstate =>
        exact .idle _ hstate (List.forall_mem_cons.mpr ⟨Or.inl rfl, hfinished⟩)
  | closed sockfd hstate hchannel hstate' _ => exact h.finish hstate hchannel hstate' (Or.inl rfl)
  | handedOver sockfd hstate hchannel hstate' _ _ =>
    exact h.finish hstate hchannel hstate' (Or.inr rfl)

/-- Every socket has exactly one fate. -/
theorem Accounted.existsUnique_fate (h : Accounted c sockets) (hc : c.Coherent) {life : SocketLife}
    (hlife : life ∈ sockets) : ∃! fate, life.HasFate c fate := by
  suffices hfate : ∃ fate, life.HasFate c fate by
    obtain ⟨fate, hfate⟩ := hfate
    exact ⟨fate, hfate, fun fate' hfate' => hfate'.unique hfate⟩
  cases h with
  | idle _ _ hfinished => exact (hfinished life hlife).exists_fate c
  | connecting sockfd older hstate hchannel holder =>
    rcases List.mem_cons.mp hlife with rfl | hlife
    · obtain ⟨fd, hfd, hregistered⟩ := hc.connecting hstate
      obtain rfl : sockfd = fd := Option.some.inj (hchannel.symm.trans hfd)
      exact ⟨.connecting, rfl, hstate, hchannel, hregistered⟩
    · exact (holder life hlife).exists_fate c

/-- A registered channel of the connector belongs to a socket in progress. -/
theorem Accounted.registered (h : Accounted c sockets) (hc : c.Coherent) {r : Registration}
    (hr : r ∈ c.channels) (howner : r.owner = .connector) :
    ⟨r.fd, [.registered]⟩ ∈ sockets := by
  obtain ⟨hstate, hchannel⟩ := hc.registered r hr howner
  cases h with
  | idle _ hidle _ => exact absurd hstate hidle
  | connecting sockfd older _ hchannel' _ =>
    obtain rfl : sockfd = r.fd := Option.some.inj (hchannel'.symm.trans hchannel)
    exact List.mem_cons_self

/-- A call of `stop` is a step of its own. -/
theorem records_stop {first after : List ConnectorEvent}
    (hrecords : RecordedConnector.Records c c' (first ++ ConnectorEvent.stop :: after)) :
    after = [] ∧ c'.connects = false := by
  generalize hnews : first ++ ConnectorEvent.stop :: after = news at hrecords
  have hmem : ConnectorEvent.stop ∈ news := by simp [← hnews]
  cases hrecords with
  | nothing => cases hmem
  | stopped _ hconnects =>
    have hlength := congrArg List.length hnews
    simp only [List.length_append, List.length_cons, List.length_nil] at hlength
    exact ⟨List.length_eq_zero_iff.mp (by omega), hconnects⟩
  | attempted call sockfd event hcall => rcases hcall with ⟨rfl, _⟩ | rfl | rfl <;> simp at hmem
  | closed => simp at hmem
  | handedOver => simp at hmem

/-- While `connect_` is false, only a call of the user leads to a new socket, and no socket is
handed over. -/
theorem records_of_not_connects (hrecords : RecordedConnector.Records c c' news)
    (hconnects : c.connects = false) (hstart : .start ∉ news) (hrestart : .restart ∉ news) :
    c'.connects = false ∧
      ∀ sockfd, .created sockfd ∉ news ∧ .socket sockfd .handedOver ∉ news := by
  cases hrecords with
  | nothing _ hsame => exact ⟨hsame.trans hconnects, by simp⟩
  | stopped _ hstopped => exact ⟨hstopped, by simp⟩
  | attempted call sockfd event hcall =>
    rcases hcall with ⟨_, hcalled⟩ | rfl | rfl
    · cases hconnects.symm.trans hcalled
    · simp at hstart
    · simp at hrestart
  | closed _ _ _ _ hsame => exact ⟨hsame.trans hconnects, by simp⟩
  | handedOver _ _ _ _ _ hcalled => cases hconnects.symm.trans hcalled

/-- An event of a longer record is among the new ones, or it has the new ones behind it. -/
theorem append_eq_append_cons {events before after : List ConnectorEvent} {event : ConnectorEvent}
    (h : events ++ news = before ++ event :: after) :
    (∃ first, news = first ++ event :: after) ∨
      ∃ after', events = before ++ event :: after' ∧ after = after' ++ news := by
  rcases List.append_eq_append_iff.mp h with ⟨first, _, hnews⟩ | ⟨rest, hevents, hrest⟩
  · exact Or.inl ⟨first, hnews⟩
  cases rest with
  | nil => exact Or.inl ⟨[], hrest.symm⟩
  | cons head after' =>
    obtain ⟨rfl, hafter⟩ := List.cons.inj hrest
    exact Or.inr ⟨after', hevents, hafter⟩

/-- Every step obeys the last call of `stop`. -/
theorem Obedient.records {r r' : RecordedConnector} (h : Obedient r)
    (hevents : r'.events = r.events ++ news)
    (hrecords : RecordedConnector.Records r.connector r'.connector news) : Obedient r' := by
  suffices hboth : ∀ before after, r'.events = before ++ ConnectorEvent.stop :: after →
      .start ∉ after → .restart ∉ after → r'.connector.connects = false ∧
        ∀ sockfd, .created sockfd ∉ after ∧ .socket sockfd .handedOver ∉ after from
    ⟨fun before after hsplit hstart hrestart => (hboth before after hsplit hstart hrestart).2,
      fun before after hsplit hstart hrestart => (hboth before after hsplit hstart hrestart).1⟩
  intro before after hsplit hstart hrestart
  rw [hevents] at hsplit
  rcases append_eq_append_cons hsplit with ⟨first, rfl⟩ | ⟨after', hold, rfl⟩
  · obtain ⟨rfl, hconnects⟩ := records_stop hrecords
    exact ⟨hconnects, by simp⟩
  · simp only [List.mem_append, not_or] at hstart hrestart ⊢
    have hconnects := h.stopped before after' hold hstart.1 hrestart.1
    have hobeys := h.obeys before after' hold hstart.1 hrestart.1
    obtain ⟨hconnects', hquiet⟩ := records_of_not_connects hrecords hconnects hstart.2 hrestart.2
    exact ⟨hconnects', fun sockfd =>
      ⟨⟨(hobeys sockfd).1, (hquiet sockfd).1⟩, ⟨(hobeys sockfd).2, (hquiet sockfd).2⟩⟩⟩

end

end Dalin.Net
