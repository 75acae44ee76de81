import Dalin.Net.ConnectionLife

/-!
# A removed channel stays removed

`connectDestroyed` removes the channel of a connection, and the channel keeps
the index of the entry it had. `sendInLoop` does not look at `state_`: one that
was queued behind `connectDestroyed` asks for write events on the removed
channel if it cannot write all of its message at once. Nothing else does, so
the channel is not updated again if every such `sendInLoop` has nothing left.
-/

set_option autoImplicit false

namespace Dalin.Net

open Transition

namespace Poller

/-- The assertions of `Poller::updateChannel`. -/
def updateAssertions : List String :=
  ["channels_.find(channel->fd()) == channels_.end()",
    "channels_.find(channel->fd()) != channels_.end()",
    "channels_[channel->fd()] == channel",
    "0 <= idx && idx <static_cast<int>(pollfds_.size())",
    "pfd.fd == channel->fd() || pfd.fd == -channel->fd() -1"]

end Poller

namespace ConnectionView

variable {ι : Type} {c : ι} {v v' : ConnectionView ι} {a : LoopAction ι}

/-- Nothing follows the removal of the channel in these calls. -/
def Final (calls : List (PollerCall Unit)) : Prop :=
  calls.Pairwise fun call _ => call ≠ .remove ()

/-- A call on a channel that was never removed leaves at most one removal, at the end. -/
theorem Final.append {calls : List (PollerCall Unit)} (hfinal : Final calls)
    (h : .remove () ∉ calls) (call : PollerCall Unit) : Final (calls ++ [call]) := by
  refine List.pairwise_append.mpr ⟨hfinal, List.pairwise_singleton .., fun call' hmem _ _ => ?_⟩
  rintro rfl
  exact h hmem

/-- No update of a channel follows its removal. -/
theorem Final.not_mem {κ : Type} [DecidableEq κ] {p : Poller κ} {id : κ} (h : Final (p.callsOf id))
    {pre post : List (PollerCall κ)} (hcalls : p.calls = pre ++ .remove id :: post) :
    .update id ∉ post := by
  intro hmem
  unfold Final Poller.callsOf at h
  rw [hcalls, List.filterMap_append, List.filterMap_cons] at h
  simp only [if_true] at h
  have hlater := (List.pairwise_cons.mp (List.pairwise_append.mp h).2.1).1
  exact hlater (.update ()) (List.mem_filterMap.mpr ⟨_, hmem, if_pos rfl⟩) rfl

/-- How the calls on the Poller, `state_` and the registration go together. -/
structure Retired (v : ConnectionView ι) : Prop where
  removed : .remove () ∈ v.calls → v.conn.state = .kDisconnected ∧ v.slot.registered = false
  final : Final v.calls
  silent : v.conn.state = .kDisconnected → v.slot.isWriting = false

/-- An open or new connection has a channel that was never removed. -/
theorem Retired.not_mem (h : v.Retired) (hstate : v.conn.state ≠ .kDisconnected) :
    .remove () ∉ v.calls := fun hmem => hstate (h.removed hmem).1

/-- A step that makes no call and leaves a disconnected connection alone. -/
theorem Retired.of_same (h : v.Retired) (hcalls : v'.calls = v.calls)
    (hstate : v'.conn.state = v.conn.state ∨
      v.conn.state ≠ .kDisconnected ∧ v'.conn.state ≠ .kDisconnected)
    (hregistered : v'.slot.registered = v.slot.registered)
    (hwriting : v'.slot.isWriting = v.slot.isWriting) : v'.Retired := by
  refine ⟨fun hmem => ?_, hcalls ▸ h.final, fun hs => ?_⟩
  · rw [hcalls] at hmem
    rw [hregistered]
    rcases hstate with heq | ⟨hne, _⟩
    · exact ⟨heq.trans (h.removed hmem).1, (h.removed hmem).2⟩
    · exact absurd (h.removed hmem).1 hne
  · rw [hwriting]
    rcases hstate with heq | ⟨_, hne⟩
    · exact h.silent (heq.symm.trans hs)
    · exact absurd hs hne

/-- An update of a channel that was never removed. -/
theorem Retired.update (h : v.Retired) (hstate : v.conn.state ≠ .kDisconnected)
    (hcalls : v'.calls = v.calls ++ [.update ()])
    (hsilent : v'.conn.state = .kDisconnected → v'.slot.isWriting = false) : v'.Retired := by
  have hnot := h.not_mem hstate
  refine ⟨fun hmem => ?_, ?_, hsilent⟩
  · rw [hcalls, List.mem_append] at hmem
    rcases hmem with hmem | hmem
    · exact absurd hmem hnot
    · simp at hmem
  · rw [hcalls]
    exact h.final.append hnot _

/-- `sendInLoop` on a disconnected connection leaves nothing if its message is empty, or if
nothing is buffered and the `::write` takes all of it. -/
theorem Retired.sendRest_eq_nil (h : v.Retired) {message : List Byte} {r : WriteResult}
    (hstate : v.conn.state = .kDisconnected)
    (hnone : message = [] ∨
      v.conn.outputBuffer.readableBytes = 0 ∧ r.returned message.length = message.length) :
    v.sendRest message r = [] := by
  unfold sendRest
  split
  · rcases hnone with rfl | ⟨_, hall⟩
    · exact List.drop_nil
    · rw [hall, Int.toNat_natCast, List.drop_length]
  · rename_i hidle
    rcases hnone with rfl | ⟨hempty, _⟩
    · rfl
    · exact absurd ⟨h.silent hstate, hempty⟩ hidle

/-- `sendInLoop` on a connection that is not disconnected. -/
theorem Retired.send (h : v.Retired) (message : List Byte) (r : WriteResult) (out : Buffer)
    (hstate : v.conn.state ≠ .kDisconnected) : (v.send message r out).Retired := by
  by_cases hask : v.sendRest message r ≠ [] ∧ v.slot.isWriting = false
  · refine h.update hstate ?_ fun hs => absurd ?_ hstate
    · rw [send_calls, if_pos hask]
    · simpa using hs
  · refine h.of_same ?_ (Or.inl ?_) ?_ ?_
    · rw [send_calls, if_neg hask]
    · simp
    · rw [send_slot, if_neg hask]
    · rw [send_slot, if_neg hask]

/-- Every step keeps a removed channel out of the Poller, if a `sendInLoop` on a
disconnected connection leaves nothing. -/
theorem Retired.step [DecidableEq ι] (h : v.Retired) (hplaced : v.Placed) (hstep : Step c v a v')
    (hsend : ∀ message rest r, v.queue = .sendInLoop c message :: rest → a = .runFunctor r →
      v.conn.state = .kDisconnected → v.sendRest message r = []) : v'.Retired := by
  have hplace : PlacedAt v.conn.state v.slot v.waiting v.activity := hplaced
  have hne (hopen : v.Open) : v.conn.state ≠ .kDisconnected := by
    rcases hopen with heq | heq <;> simp [heq]
  cases hstep with
  | stutter => exact h
  | poll | handleEvent | errorCallback | read | writeIdle | handled | shutdownInLoop | foreignSend
    | foreignNewConnection | removeConnectionInLoop => exact ⟨h.removed, h.final, h.silent⟩
  | closeCallback hact hopen => exact h.update (hne hopen) rfl fun hs => absurd hs (hne hopen)
  | readClose hact hend hopen => exact h.update (hne hopen) rfl fun hs => absurd hs (hne hopen)
  | @write rest r out hact hwriting =>
    have hopen := hne (hplace.handling _ hact)
    by_cases hdrains : v.Drains r
    · refine h.update hopen ?_ fun hs => absurd ?_ hopen
      · simp [hdrains]
      · simpa using hs
    · exact h.of_same (by simp [hdrains]) (Or.inl (by simp)) (by simp [hdrains]) (by simp [hdrains])
  | connectEstablished hact hwait hqueue hstate =>
    exact h.update (by simp [hstate]) rfl fun hs => (by cases hs)
  | @sendInLoop r message rest out hact hwait hqueue =>
    by_cases hstate : v.conn.state = .kDisconnected
    · have hnone := hsend _ _ _ hqueue rfl hstate
      exact h.of_same (by simp [hnone]) (Or.inl (by simp)) (by simp [hnone]) (by simp [hnone])
    · have h' := h.send message r out hstate
      exact ⟨h'.removed, h'.final, h'.silent⟩
  | connectDestroyed hact hwait hqueue hopen =>
    refine h.update (hne hopen) rfl fun _ => ?_
    change (Channel.kNoneEvent &&& Channel.kWriteEvent != 0) = false
    decide
  | removeChannel hact =>
    obtain ⟨hstate, hregistered⟩ := hplace.destroying hact
    have hnot : .remove () ∉ v.calls := fun hmem => by
      have := (h.removed hmem).2
      rw [hregistered] at this
      cases this
    exact ⟨fun _ => ⟨hstate, rfl⟩, h.final.append hnot _, h.silent⟩
  | @send message r out hstate =>
    have h' : (v.modify fun conn => { conn with handed := conn.handed ++ [message] }).Retired :=
      ⟨h.removed, h.final, h.silent⟩
    exact h'.send _ _ _ (by simp [modify, hstate])
  | shutdown hstate | foreignShutdown hstate =>
    exact h.of_same rfl (Or.inr ⟨by simp [hstate], fun hs => (by cases hs)⟩) rfl rfl
  | newConnection hentry hstate =>
    exact h.update (by simp [hstate]) rfl fun hs => (by cases hs)

/-- It holds of a new connection. -/
theorem New.retired (h : v.New) : v.Retired := by
  refine ⟨fun hmem => ?_, ?_, fun _ => h.silent⟩
  · rw [h.calls] at hmem
    exact absurd hmem List.not_mem_nil
  · rw [h.calls]
    exact .nil

end ConnectionView

namespace LoopRun

variable {ι : Type} [DecidableEq ι] {s : LoopRun ι} {a : LoopAction ι}

/-- A `sendInLoop` that runs after its connection was destroyed leaves nothing: its
message is empty, or nothing is buffered and its `::write` takes all of it. -/
def LeavesNothing (s : LoopRun ι) (a : LoopAction ι) : Prop :=
  match a, s.phase with
  | .runFunctor r, .running (.sendInLoop c message :: _) =>
    (s.loop.conn c).state = .kDisconnected → message = [] ∨
      (s.loop.conn c).outputBuffer.readableBytes = 0 ∧ r.returned message.length = message.length
  | _, _ => True

instance (s : LoopRun ι) (a : LoopAction ι) : Decidable (LeavesNothing s a) := by
  unfold LeavesNothing
  generalize s.phase = phase
  apply @LoopAction.casesOn _ _ a <;> intros <;> apply @Phase.casesOn _ _ phase <;> intros <;>
    try infer_instance
  -- A functor of the batch runs.
  rename_i functors
  apply @List.casesOn _ _ functors
  · infer_instance
  · intro f _
    apply @Functor.casesOn _ _ f <;> intros <;> infer_instance

instance (s : LoopRun ι) (a : LoopAction ι) :
    Decidable (((loopSystem ι).restrict LeavesNothing).enabled s a) :=
  inferInstanceAs (Decidable (LoopRun.enabledIn .. ∧ LeavesNothing s a))

/-- What holds of a connection if late sends leave nothing. -/
theorem retired_of_reachable (h : ((loopSystem ι).restrict LeavesNothing).Reachable s) :
    s.loop.Wf ∧ ∀ c, (ConnectionView.Linked c (s.view c) ∧ (s.view c).Placed) ∧
      (s.view c).Retired := by
  refine views_of_reachable (J := fun c v => (ConnectionView.Linked c v ∧ v.Placed) ∧ v.Retired) h
    (fun hnew => ⟨⟨hnew.linked, hnew.placed⟩, hnew.retired⟩) ?_
  intro t a u c hwf ⟨⟨hlinked, hplaced⟩, hretired⟩ henabled hleaves hexec hstep
  refine ⟨⟨hlinked.step hstep, hplaced.step hlinked hstep⟩, ?_⟩
  by_cases hsame : u.view c = t.view c
  · rwa [hsame]
  · refine hretired.step hplaced hstep fun message fs r hqueue ha hstate => ?_
    subst ha
    obtain heq | ⟨f, rest, fs', hphase, hqueue'⟩ := next_of_runFunctor c hwf henabled hexec
    · exact absurd heq hsame
    · rw [hqueue] at hqueue'
      obtain ⟨rfl, _⟩ := List.cons_eq_cons.mp hqueue'
      unfold LeavesNothing at hleaves
      rw [hphase] at hleaves
      exact hretired.sendRest_eq_nil hstate (hleaves hstate)

end LoopRun

/-- An operation that fails in no assertion of `Poller::updateChannel`. -/
def Spared {α : Type} (x : Except Failure α) : Prop :=
  ∀ e, x = .error (.assertion e) → e ∉ Poller.updateAssertions

namespace Spared

variable {α β : Type}

/-- Nothing fails in what succeeds. -/
theorem of_ok {x : Except Failure α} (h : ∃ a, x = .ok a) : Spared x := by
  intro e herror
  obtain ⟨a, ha⟩ := h
  rw [ha] at herror
  cases herror

/-- A sequence of two operations. -/
theorem bind {x : Except Failure α} {f : α → Except Failure β} (hx : Spared x)
    (hf : ∀ a, x = .ok a → Spared (f a)) : Spared (x >>= f) := by
  cases x with
  | error e' =>
    intro e herror
    exact hx e (congrArg Except.error (Except.error.inj herror))
  | ok a => exact hf a rfl

/-- A function of the result. -/
theorem map {x : Except Failure α} (f : α → β) (hx : Spared x) :
    Spared (x >>= fun a => .ok (f a)) :=
  hx.bind fun _ _ => .of_ok ⟨_, rfl⟩

/-- Another assertion. -/
theorem require {p : Prop} [Decidable p] {e : String} (he : e ∉ Poller.updateAssertions) :
    Spared (Dalin.require p e) := by
  intro e' herror
  unfold Dalin.require at herror
  split at herror
  · cases herror
  · cases herror
    exact he

end Spared

namespace IoLoop

variable {ι : Type} [DecidableEq ι] {l : IoLoop ι} {c : ι}

/-- The holder calls no `updateChannel`. -/
theorem spared_closeCallback (l : IoLoop ι) (c : ι) : Spared (l.closeCallback c) := by
  have hdrop (l : IoLoop ι) {assertion : String} (he : assertion ∉ Poller.updateAssertions) :
      Spared (l.dropEntry c assertion) := Spared.map _ (.require he)
  unfold closeCallback
  dsimp only
  split
  · unfold serverRemoveConnection
    split
    · exact hdrop _ (by decide)
    · exact .of_ok ⟨_, rfl⟩
  · exact hdrop _ (by decide)

/-- `handleClose` of a registered channel. -/
theorem spared_handleClose (hp : l.poller.Wf) (hc : l.poller.Registered (.conn c)) :
    Spared (l.handleClose c) :=
  (Spared.require (by decide)).bind fun _ _ =>
    (Spared.of_ok (exists_setInterest hp hc _)).bind fun l' _ => spared_closeCallback l' c

/-- `handleRead` of a registered channel. -/
theorem spared_handleRead (r : ReadResult) (hp : l.poller.Wf) (hb : (l.conn c).inputBuffer.Wf)
    (hc : l.poller.Registered (.conn c)) : Spared (l.handleRead c r) := by
  obtain ⟨input, _, heq⟩ := handleRead_eq l c r hb
  rw [heq]
  dsimp only
  split
  · exact spared_handleClose hp hc
  · exact .of_ok ⟨_, rfl⟩

/-- `handleWrite` of a registered channel fails by `abort` only. -/
theorem spared_handleWrite (r : WriteResult) (hp : l.poller.Wf) (hb : (l.conn c).outputBuffer.Wf)
    (hc : l.poller.Registered (.conn c)) : Spared (l.handleWrite c r) := by
  cases hwriting : l.isWriting c with
  | false =>
    refine .of_ok ⟨l, ?_⟩
    unfold handleWrite
    rw [hwriting, if_neg Bool.false_ne_true]
  | true =>
    by_cases hpos : 0 < l.writeReturned c r
    · exact .of_ok (exists_handleWrite hp hb hc hwriting hpos)
    · intro e herror
      rw [handleWrite_abort hwriting (Int.not_lt.mp hpos)] at herror
      cases herror

/-- `connectEstablished` of a connection with a new channel. -/
theorem spared_connectEstablished (hp : l.poller.Wf)
    (hnew : (l.conn c).state = .kConnecting → (l.channel c).index < 0) :
    Spared (l.connectEstablished c) := by
  refine (Spared.require (by decide)).bind fun _ hstate => ?_
  obtain ⟨p, hset⟩ := hp.exists_setInterest_of_new (hnew (of_require hstate)) .enableReading
  exact .of_ok ⟨_, bind_eq_ok.mpr ⟨p, hset, rfl⟩⟩

/-- `connectDestroyed` of a connection whose channel is registered while it is open. -/
theorem spared_connectDestroyed (hp : l.poller.Wf)
    (hc : (l.conn c).state = .kConnected ∨ (l.conn c).state = .kDisconnecting →
      l.poller.Registered (.conn c)) : Spared (l.connectDestroyed c) :=
  (Spared.require (by decide)).bind fun _ hstate =>
    .of_ok (exists_setInterest (l := l.setState c .kDisconnected) hp (hc (of_require hstate)) _)

/-- `send` of a connection whose channel is registered while it is connected. -/
theorem spared_send (message : List Byte) (r : WriteResult) (hwf : l.Wf)
    (hc : (l.conn c).state = .kConnected → l.poller.Registered (.conn c)) :
    Spared (l.send true c message r) := by
  unfold send
  split
  · rename_i hstate
    have hwf' : (l.modifyConn c fun conn => { conn with handed := conn.handed ++ [message] }).Wf :=
      hwf.modifyConn (hwf.buffers c)
    exact .of_ok (exists_sendInLoop message r hwf'.poller (hwf'.buffers c).2 fun _ => hc hstate)
  · exact .of_ok ⟨_, rfl⟩

end IoLoop

namespace LoopAction

variable {ι : Type}

/-- The steps in which a connection may call `Poller::updateChannel`. -/
def mayUpdate : LoopAction ι → Bool
  | closeCallback | readCallback _ | writeCallback _ | runFunctor _ | send _ _ _
  | newConnection _ => true
  | _ => false

end LoopAction

namespace LoopRun

variable {ι : Type} [DecidableEq ι] {s : LoopRun ι}

/-- The channel of an open connection is registered. -/
theorem registered_of_open {c : ι} (h : (s.view c).Placed)
    (hopen : (s.loop.conn c).state = .kConnected ∨ (s.loop.conn c).state = .kDisconnecting) :
    s.loop.poller.Registered (.conn c) :=
  of_decide_eq_true (ConnectionView.PlacedAt.registered h hopen)

/-- The channel of a new connection has no index. -/
theorem index_of_connecting {c : ι} (h : (s.view c).Placed)
    (hstate : (s.loop.conn c).state = .kConnecting) : (s.loop.channel c).index < 0 := by
  have hknown := (ConnectionView.PlacedAt.opening h hstate).1
  exact Int.not_le.mp (of_decide_eq_false hknown)

/-- The channel of a handled connection is registered. -/
theorem registered_of_handling {l : IoLoop ι} {u : Bool} {c : ι} {cbs : List Callback}
    {active : List (ChannelId ι)} (h : (view ⟨l, .handling c cbs active, u⟩ c).Placed) :
    l.poller.Registered (.conn c) :=
  registered_of_open h (ConnectionView.PlacedAt.handling h cbs (activity_handling c cbs active))

section

variable {l : IoLoop ι} {u : Bool} {rest : List (Functor ι)} {r : WriteResult}

/-- The next `sendInLoop` finds the channel registered when it asks for events. -/
theorem exists_sendInLoop_next {c : ι} {message : List Byte} (hwf : l.Wf)
    (hlinked : ConnectionView.Linked c (view ⟨l, .running (.sendInLoop c message :: rest), u⟩ c))
    (hplaced : (view ⟨l, .running (.sendInLoop c message :: rest), u⟩ c).Placed)
    (hretired : (view ⟨l, .running (.sendInLoop c message :: rest), u⟩ c).Retired)
    (hleaves : LeavesNothing ⟨l, .running (.sendInLoop c message :: rest), u⟩ (.runFunctor r)) :
    ∃ l', l.sendInLoop c message r = .ok l' := by
  refine IoLoop.exists_sendInLoop message r hwf.poller (hwf.buffers c).2 fun ⟨hrest, _⟩ => ?_
  have hqueue := queue_functor (f := .sendInLoop c message) (c := c) rfl l rest
  cases hstate : (l.conn c).state with
  | kConnecting =>
    have := (hlinked.opening hstate).2 _ (hqueue ▸ List.mem_cons_self)
    cases this
  | kConnected => exact registered_of_open hplaced (Or.inl hstate)
  | kDisconnecting => exact registered_of_open hplaced (Or.inr hstate)
  | kDisconnected => exact absurd (hretired.sendRest_eq_nil hstate (hleaves hstate)) hrest

/-- The functors of the batch call `updateChannel` on channels that are registered or new. -/
theorem spared_runFunctor {f : Functor ι} (hwf : l.Wf)
    (hlife : ∀ c, ConnectionView.Linked c (view ⟨l, .running (f :: rest), u⟩ c) ∧
      (view ⟨l, .running (f :: rest), u⟩ c).Placed)
    (hretired : ∀ c, (view ⟨l, .running (f :: rest), u⟩ c).Retired)
    (hleaves : LeavesNothing ⟨l, .running (f :: rest), u⟩ (.runFunctor r)) :
    Spared (runFunctor l f rest r) := by
  cases f with
  | connectEstablished c =>
    exact (IoLoop.spared_connectEstablished hwf.poller (index_of_connecting (hlife c).2)).map _
  | sendInLoop c message =>
    exact (Spared.of_ok (exists_sendInLoop_next hwf (hlife c).1 (hlife c).2 (hretired c)
      hleaves)).map _
  | connectDestroyed c =>
    exact (IoLoop.spared_connectDestroyed hwf.poller (registered_of_open (hlife c).2)).map _
  | shutdownInLoop | writeComplete | other => exact .of_ok ⟨_, rfl⟩

end

/-- **A removed channel stays removed.** In every run in which each `sendInLoop` on a
destroyed connection leaves nothing, no call of `Poller::updateChannel` for a channel
follows its removal, and no assertion of `updateChannel` fails in a connection. -/
theorem removed_channel_not_updated (h : ((loopSystem ι).restrict LeavesNothing).Reachable s) :
    (∀ c pre post, s.loop.poller.calls = pre ++ .remove (.conn c) :: post →
      .update (.conn c) ∉ post) ∧
    ∀ a, a.mayUpdate = true → ((loopSystem ι).restrict LeavesNothing).enabled s a →
      Spared ((loopSystem ι).exec s a) := by
  obtain ⟨hwf, hall⟩ := retired_of_reachable h
  constructor
  · intro c pre post hcalls
    exact (hall c).2.final.not_mem hcalls
  · intro a hmay ⟨henabled, hleaves⟩
    obtain ⟨l, φ, u⟩ := s
    change enabledIn l u a φ at henabled
    cases a with
    | closeCallback =>
      obtain ⟨c, rest, active, rfl⟩ := phase_of_callback henabled rfl
      exact (IoLoop.spared_handleClose hwf.poller (registered_of_handling (hall c).1.2)).map _
    | readCallback r =>
      obtain ⟨c, rest, active, rfl⟩ := phase_of_callback henabled rfl
      exact (IoLoop.spared_handleRead r hwf.poller (hwf.buffers c).1
        (registered_of_handling (hall c).1.2)).map _
    | writeCallback r =>
      obtain ⟨c, rest, active, rfl⟩ := phase_of_callback henabled rfl
      exact (IoLoop.spared_handleWrite r hwf.poller (hwf.buffers c).2
        (registered_of_handling (hall c).1.2)).map _
    | runFunctor r =>
      obtain ⟨f, rest, rfl⟩ := phase_of_runFunctor henabled
      exact spared_runFunctor hwf (fun c => (hall c).1) (fun c => (hall c).2) hleaves
    | send c message r =>
      exact (IoLoop.spared_send message r hwf fun hstate =>
        registered_of_open (hall c).1.2 (Or.inl hstate)).map _
    | newConnection c =>
      refine (IoLoop.spared_connectEstablished (l := l.holdEntry c) hwf.poller
        fun hstate => ?_).map _
      rw [IoLoop.holdEntry, IoLoop.modifyConn_conn_self] at hstate
      exact index_of_connecting (hall c).1.2 hstate
    | _ => cases hmay

/-- The connection closes while another thread sends one byte: the `sendInLoop` is queued
behind `connectDestroyed`. -/
def sendAfterClose : List (LoopAction Unit) :=
  [.newConnection (), .poll [0x010], .handleEvent, .closeCallback, .foreignSend () [7], .handled,
    .doPendingFunctors, .runFunctor (.room 0), .removeChannel]

/-- If the `::write` of that byte takes it, the channel is left alone. -/
theorem removed_channel_not_updated_sendAfterClose :
    ∃ s, ((loopSystem Unit).restrict LeavesNothing).Reachable s ∧
      s.loop.poller.calls = [.update (.conn ()), .update (.conn ()), .update (.conn ()),
        .remove (.conn ())] ∧ Spared ((loopSystem Unit).exec s (.runFunctor (.room 1))) := by
  have hcheck : (((loopSystem Unit).restrict LeavesNothing).replay ⟨oneConnection, .polling, true⟩
      sendAfterClose).any (fun s => decide (s.loop.poller.calls = [.update (.conn ()),
        .update (.conn ()), .update (.conn ()), .remove (.conn ())] ∧
        ((loopSystem Unit).restrict LeavesNothing).enabled s (.runFunctor (.room 1)))) = true := by
    decide +kernel
  obtain ⟨s, hrun, hs⟩ := System.exists_run_of_replay hcheck
  obtain ⟨hcalls, henabled⟩ := of_decide_eq_true hs
  have hreach : ((loopSystem Unit).restrict LeavesNothing).Reachable s :=
    ⟨_, _, ⟨oneConnection_fresh, rfl, rfl⟩, hrun⟩
  exact ⟨s, hreach, hcalls, (removed_channel_not_updated hreach).2 _ rfl henabled⟩

/-- If it does not, `sendInLoop` asks for write events on the removed channel, and an
assertion of `updateChannel` fails. -/
theorem removed_channel_updated_sendAfterClose :
    ∃ s, (loopSystem Unit).Run ⟨oneConnection, .polling, true⟩ sendAfterClose s ∧
      .remove (.conn ()) ∈ s.loop.poller.calls ∧
      (loopSystem Unit).enabled s (.runFunctor (.room 0)) ∧
      (loopSystem Unit).exec s (.runFunctor (.room 0)) =
        .error (.assertion "channels_.find(channel->fd()) != channels_.end()") := by
  have hcheck : ((loopSystem Unit).replay ⟨oneConnection, .polling, true⟩ sendAfterClose).any
      (fun s => decide (.remove (.conn ()) ∈ s.loop.poller.calls ∧
          (loopSystem Unit).enabled s (.runFunctor (.room 0)) ∧
          (loopSystem Unit).exec s (.runFunctor (.room 0)) =
            .error (.assertion "channels_.find(channel->fd()) != channels_.end()"))) = true := by
    decide +kernel
  obtain ⟨s, hrun, hs⟩ := System.exists_run_of_replay hcheck
  exact ⟨s, hrun, of_decide_eq_true hs⟩

end LoopRun

end Dalin.Net
