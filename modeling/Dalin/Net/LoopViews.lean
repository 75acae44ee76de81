import Dalin.Net.ConnectionView

/-!
# Every step of a loop, seen from each connection

This file computes the view of a connection from the state of its loop, and
proves that each step of the loop is, for every connection at once, one of the
steps a view can take. Invariants of single connections then carry over to all
runs of the loop.
-/

set_option autoImplicit false

namespace Dalin.Net

open Transition

variable {ι : Type} [DecidableEq ι]

namespace Poller

variable {κ : Type} [DecidableEq κ] {p p' : Poller κ} {c : κ}

/-- The channel as the Poller keeps it. -/
def slot (p : Poller κ) (c : κ) : Slot where
  events := (p.channel c).events
  revents := (p.channel c).revents
  known := decide (0 ≤ (p.channel c).index)
  registered := decide (p.Registered c)
  muted := decide (p.Registered c) && (p.entry c).any fun pfd => decide (pfd.fd < 0)

/-- The calls for this channel. -/
def callsOf (p : Poller κ) (c : κ) : List (PollerCall Unit) :=
  p.calls.filterMap fun
    | .update c' => if c' = c then some (.update ()) else none
    | .remove c' => if c' = c then some (.remove ()) else none

/-- A step that leaves a channel alone. -/
theorem Untouched.slot (h : Untouched p p' c) (hp : p.Wf) (hp' : p'.Wf) :
    p'.slot c = p.slot c := by
  unfold Poller.slot
  simp only [h.registered]
  by_cases hc : p.Registered c
  · have hindex := (hp.agree.entry_of_registered hc).1
    have hindex' := (hp'.agree.entry_of_registered (h.registered.mpr hc)).1
    rw [h.entry hc]
    simp only [hindex, hindex', decide_true]
    rw [h.channel]
  · rw [h.unregistered hc]
    simp [hc]

/-- An interest call on the channel. -/
theorem InterestSet.slot {i : Interest} (h : InterestSet p p' c i) (hp : p.Wf) :
    p'.slot c = (p.slot c).interest i := by
  obtain ⟨fd, hentry, hfd⟩ := h.entry
  have hindex' := (h.wf.agree.entry_of_registered h.registered).1
  have hnonneg := hp.fd_nonneg c
  have hevents : (p'.channel c).events = i.apply (p.channel c).events := by rw [h.channel]
  have hrevents : (p'.channel c).revents = (p.channel c).revents := by rw [h.channel]
  unfold Poller.slot Slot.interest
  rw [hevents, hrevents, hentry]
  simp only [hindex', h.registered, decide_true, Option.any_some, Bool.true_and, Slot.mk.injEq,
    true_and]
  rcases hfd with ⟨hnew, rfl⟩ | ⟨hold, hc, pfd, hpfd, rfl⟩
  · have hnot : ¬0 ≤ (p.channel c).index := by omega
    have hfdnot : ¬(p.channel c).fd < 0 := by omega
    simp [hnot, hfdnot]
  · rw [hpfd]
    by_cases hnone : i.apply (p.channel c).events = Channel.kNoneEvent
    · have hneg : -(p.channel c).fd - 1 < 0 := by omega
      simp [hnone, hold, hneg]
    · simp [hnone, hold, hc]

omit [DecidableEq κ] in
/-- An interest call on a channel that has an index finds the channel registered. -/
theorem InterestSet.registered_of_index {i : Interest} (h : InterestSet p p' c i)
    (hindex : 0 ≤ (p.channel c).index) : p.Registered c := by
  obtain ⟨_, _, ⟨hnew, _⟩ | ⟨_, hc, _⟩⟩ := h.entry
  · omega
  · exact hc

/-- The removal of the channel. -/
theorem Removed.slot (h : Removed p p' c) : p'.slot c = (p.slot c).removed := by
  unfold Poller.slot Slot.removed
  rw [h.channel]
  simp [h.unregistered]

/-- A poll changes the `revents` of a channel. -/
theorem Polled.slot {active : List κ} (h : Polled p p' active) :
    p'.slot c = { p.slot c with revents := (p'.channel c).revents } := by
  unfold Poller.slot
  simp only [h.registered]
  have hentry : p.Registered c → ((p'.entry c).any fun pfd => decide (pfd.fd < 0)) =
      (p.entry c).any fun pfd => decide (pfd.fd < 0) := by
    intro hc
    obtain ⟨_, pfd', hentry', _⟩ := h.wf.agree.entry_of_registered ((h.registered c).mpr hc)
    obtain ⟨pfd, hentry, heq⟩ := h.entry c pfd' hentry'
    rw [hentry, hentry', heq]
    rfl
  rw [h.channel]
  by_cases hc : p.Registered c
  · rw [hentry hc]
  · simp [hc]

/-- The calls after a call for the channel. -/
theorem callsOf_update (h : p'.calls = p.calls ++ [PollerCall.update c]) :
    p'.callsOf c = p.callsOf c ++ [PollerCall.update ()] := by
  unfold callsOf
  rw [h, List.filterMap_append]
  simp

/-- The calls after the removal of the channel. -/
theorem callsOf_remove (h : p'.calls = p.calls ++ [PollerCall.remove c]) :
    p'.callsOf c = p.callsOf c ++ [PollerCall.remove ()] := by
  unfold callsOf
  rw [h, List.filterMap_append]
  simp

/-- The calls after a call for another channel. -/
theorem callsOf_of_ne {c' : κ} (hne : c' ≠ c)
    (h : p'.calls = p.calls ++ [PollerCall.update c'] ∨
      p'.calls = p.calls ++ [PollerCall.remove c']) :
    p'.callsOf c = p.callsOf c := by
  unfold callsOf
  rcases h with h | h
  all_goals
    rw [h, List.filterMap_append]
    simp [hne]

end Poller

/-- The connection that a functor acts on. -/
def Functor.connection : Functor ι → Option ι
  | .connectEstablished c | .sendInLoop c _ | .shutdownInLoop c | .connectDestroyed c => some c
  | .writeComplete _ | .other => none

omit [DecidableEq ι] in
/-- A functor acts on one connection at most. -/
theorem Functor.connection_ne {f : Functor ι} {c c₀ : ι} (h : f.connection = some c₀)
    (hne : c ≠ c₀) : f.connection ≠ some c := by
  rw [h]
  exact fun heq => hne (Option.some.inj heq).symm

/-- The functors that act on a connection. -/
def functorsOf (c : ι) (functors : List (Functor ι)) : List (Functor ι) :=
  functors.filter fun f => f.connection = some c

/-- No functor acts on the connection. -/
@[simp] theorem functorsOf_nil (c : ι) : functorsOf c [] = [] := rfl

/-- The functors of a connection keep their order. -/
@[simp] theorem functorsOf_append (c : ι) (fs gs : List (Functor ι)) :
    functorsOf c (fs ++ gs) = functorsOf c fs ++ functorsOf c gs := List.filter_append ..

/-- A functor that acts on the connection. -/
theorem functorsOf_cons_of_eq {c : ι} {f : Functor ι} (h : f.connection = some c)
    (fs : List (Functor ι)) : functorsOf c (f :: fs) = f :: functorsOf c fs :=
  List.filter_cons_of_pos (by simpa using h)

/-- A functor that does not act on the connection. -/
theorem functorsOf_cons_of_ne {c : ι} {f : Functor ι} (h : f.connection ≠ some c)
    (fs : List (Functor ι)) : functorsOf c (f :: fs) = functorsOf c fs :=
  List.filter_cons_of_neg (by simpa using h)

namespace Phase

/-- The active channels that are still to be handled. -/
def active : Phase ι → List (ChannelId ι)
  | dispatching activeChannels => activeChannels
  | handling _ _ activeChannels => activeChannels
  | polling | running _ | destroying _ _ => []

/-- The functors of the batch that are still to be run. -/
def batch : Phase ι → List (Functor ι)
  | running functors => functors
  | destroying _ functors => functors
  | polling | dispatching _ | handling _ _ _ => []

/-- What the thread is doing with a connection. -/
def activity (c : ι) : Phase ι → Activity
  | handling c' callbacks _ => if c' = c then .handling callbacks else .idle
  | destroying c' _ => if c' = c then .destroying else .idle
  | polling | dispatching _ | running _ => .idle

end Phase

/-- The view of a connection, from the loop and the phase of its thread. -/
def IoLoop.view (l : IoLoop ι) (phase : Phase ι) (c : ι) : ConnectionView ι where
  conn := l.conn c
  slot := l.poller.slot (.conn c)
  calls := l.poller.callsOf (.conn c)
  queue := functorsOf c (phase.batch ++ l.pendingFunctors)
  base := l.baseFunctors.count c
  waiting := phase.active.count (.conn c)
  activity := phase.activity c

/-- The view of a connection in a state of a run. -/
def LoopRun.view (s : LoopRun ι) (c : ι) : ConnectionView ι := s.loop.view s.phase c

namespace IoLoop

/-- A step of the loop that does not touch a connection: it only queues functors for
others. -/
structure Apart (l l' : IoLoop ι) (c : ι) : Prop where
  conn : l'.conn c = l.conn c
  slot : l'.poller.slot (.conn c) = l.poller.slot (.conn c)
  calls : l'.poller.callsOf (.conn c) = l.poller.callsOf (.conn c)
  pending : functorsOf c l'.pendingFunctors = functorsOf c l.pendingFunctors
  base : l'.baseFunctors.count c = l.baseFunctors.count c

/-- A loop that does nothing touches no connection. -/
theorem Apart.refl (l : IoLoop ι) (c : ι) : Apart l l c := ⟨rfl, rfl, rfl, rfl, rfl⟩

/-- A step that does not touch a connection does not change its view, as long as the
phase means the same for it. -/
theorem Apart.view {l l' : IoLoop ι} {c : ι} (h : Apart l l' c) {φ φ' : Phase ι}
    (hbatch : functorsOf c φ'.batch = functorsOf c φ.batch)
    (hactive : φ'.active.count (.conn c) = φ.active.count (.conn c))
    (hactivity : φ'.activity c = φ.activity c) : l'.view φ' c = l.view φ c := by
  unfold IoLoop.view
  rw [h.conn, h.slot, h.calls, h.base, hactive, hactivity, functorsOf_append, functorsOf_append,
    h.pending, hbatch]

/-- What a step of the Poller for one channel does to another. -/
theorem poller_apart {p p' : Poller (ChannelId ι)} {id : ChannelId ι} {c : ι}
    (hne : id ≠ .conn c) (hp : p.Wf)
    (h : p' = p ∨ (∃ i, Poller.InterestSet p p' id i) ∨ Poller.Removed p p' id) :
    p'.Wf ∧ p'.slot (.conn c) = p.slot (.conn c) ∧
      p'.callsOf (.conn c) = p.callsOf (.conn c) := by
  rcases h with rfl | ⟨i, hset⟩ | hremoved
  · exact ⟨hp, rfl, rfl⟩
  · exact ⟨hset.wf, (hset.untouched _ (Ne.symm hne)).slot hp hset.wf,
      Poller.callsOf_of_ne hne (Or.inl hset.calls)⟩
  · exact ⟨hremoved.wf, (hremoved.untouched _ (Ne.symm hne)).slot hp hremoved.wf,
      Poller.callsOf_of_ne hne (Or.inr hremoved.calls)⟩

/-- A step on one connection does not touch another. -/
theorem Apart.of_ne {l l' : IoLoop ι} {c c₀ : ι} (hne : c ≠ c₀) (hp : l.poller.Wf)
    (hconn : l'.conn c = l.conn c)
    (hpoller : l'.poller = l.poller ∨
      (∃ i, Poller.InterestSet l.poller l'.poller (.conn c₀) i) ∨
      Poller.Removed l.poller l'.poller (.conn c₀))
    (hpending : functorsOf c l'.pendingFunctors = functorsOf c l.pendingFunctors)
    (hbase : l'.baseFunctors.count c = l.baseFunctors.count c) : Apart l l' c := by
  have hid : ChannelId.conn c₀ ≠ .conn c := fun heq => hne (ChannelId.conn.inj heq).symm
  obtain ⟨_, hslot, hcalls⟩ := poller_apart hid hp hpoller
  exact ⟨hconn, hslot, hcalls, hpending, hbase⟩

/-- The notifications do not act on a connection. -/
@[simp] theorem functorsOf_notifications (l : IoLoop ι) (c c' : ι) (complete : Bool) :
    functorsOf c (l.notifications c' complete) = [] := by
  unfold notifications
  split
  · rfl
  · rfl

variable {l l' : IoLoop ι} {c c₀ : ι}

/-- Output of one connection does not touch another. -/
theorem OutputStep.apart {calls : List SocketCall} {complete : Bool} {i : Interest}
    (h : OutputStep l l' c₀ calls complete) (hne : c ≠ c₀) (hp : l.poller.Wf)
    (hpoller : l'.poller = l.poller ∨ Poller.InterestSet l.poller l'.poller (.conn c₀) i) :
    Apart l l' c := by
  refine .of_ne hne hp (h.others c hne) ?_ ?_ (by rw [h.baseFunctors])
  · rcases hpoller with heq | hset
    · exact Or.inl heq
    · exact Or.inr (Or.inl ⟨i, hset⟩)
  · rw [h.pendingFunctors, functorsOf_append, functorsOf_notifications, List.append_nil]

/-- A close of one connection does not touch another. -/
theorem CloseStep.apart (h : CloseStep l l' c₀) (hne : c ≠ c₀) (hp : l.poller.Wf) :
    Apart l l' c := by
  refine .of_ne hne hp (h.others c hne) (Or.inr (Or.inl ⟨_, h.interest⟩)) ?_ ?_
  · rw [h.pendingFunctors, functorsOf_append]
    split
    · exact List.append_nil _
    · rw [functorsOf_cons_of_ne (Functor.connection_ne rfl hne)]
      exact List.append_nil _
  · rw [h.baseFunctors, List.count_append]
    split
    · rw [List.count_singleton]
      simp [Ne.symm hne]
    · rfl

/-- A change of state of one connection does not touch another. -/
theorem StateStep.apart {st : StateE} {i : Interest} (h : StateStep l l' c₀ st i)
    (hne : c ≠ c₀) (hp : l.poller.Wf) : Apart l l' c :=
  .of_ne hne hp (h.others c hne) (Or.inr (Or.inl ⟨i, h.interest⟩)) (by rw [h.pendingFunctors])
    (by rw [h.baseFunctors])

/-- A shutdown of one connection does not touch another. -/
theorem ShutdownStep.apart {inLoop : Bool} (h : ShutdownStep l l' c₀ inLoop) (hne : c ≠ c₀)
    (hp : l.poller.Wf) : Apart l l' c := by
  refine .of_ne hne hp (h.others c hne) (Or.inl h.poller) ?_ (by rw [h.baseFunctors])
  rw [h.pendingFunctors, functorsOf_append]
  split
  · exact List.append_nil _
  · rw [functorsOf_cons_of_ne (Functor.connection_ne rfl hne)]
    exact List.append_nil _

/-- A change of the fields of one connection does not touch another. -/
theorem apart_modifyConn (l : IoLoop ι) (hne : c ≠ c₀) (f : TcpConnection → TcpConnection) :
    Apart l (l.modifyConn c₀ f) c :=
  ⟨modifyConn_conn_of_ne l hne f, rfl, rfl, rfl, rfl⟩

/-- Queueing a functor does not touch the connections it does not act on. -/
theorem apart_queueInLoop (l : IoLoop ι) {f : Functor ι} (hne : f.connection ≠ some c) :
    Apart l (l.queueInLoop f) c := by
  refine ⟨rfl, rfl, rfl, ?_, rfl⟩
  change functorsOf c (l.pendingFunctors ++ [f]) = _
  rw [functorsOf_append, functorsOf_cons_of_ne hne]
  exact List.append_nil _

/-- One after the other, neither touching the connection. -/
theorem Apart.trans {l'' : IoLoop ι} (h : Apart l l' c) (h' : Apart l' l'' c) : Apart l l'' c :=
  ⟨h'.conn.trans h.conn, h'.slot.trans h.slot, h'.calls.trans h.calls,
    h'.pending.trans h.pending, h'.base.trans h.base⟩

/-! ### The view of the connection that a step is about -/

variable {φ : Phase ι}

/-- A completed interest call, as the connection sees it. -/
theorem interest_view {i : Interest} {v : ConnectionView ι} (hp : l.poller.Wf)
    (h : Poller.InterestSet l.poller l'.poller (.conn c) i)
    (hv : { l.view φ c with conn := v.conn, queue := v.queue, base := v.base } = v)
    (hconn : l'.conn c = v.conn)
    (hpending : functorsOf c (φ.batch ++ l'.pendingFunctors) = v.queue)
    (hbase : l'.baseFunctors.count c = v.base) : l'.view φ c = v.interest i := by
  rw [← hv]
  unfold view ConnectionView.interest
  rw [hconn, hpending, hbase, h.slot hp, Poller.callsOf_update h.calls]

/-- A step that leaves the Poller alone, as the connection sees it. -/
theorem still_view {v : ConnectionView ι} (hpoller : l'.poller = l.poller)
    (hv : { l.view φ c with conn := v.conn, queue := v.queue, base := v.base } = v)
    (hconn : l'.conn c = v.conn)
    (hpending : functorsOf c (φ.batch ++ l'.pendingFunctors) = v.queue)
    (hbase : l'.baseFunctors.count c = v.base) : l'.view φ c = v := by
  rw [← hv]
  unfold view
  rw [hconn, hpending, hbase, hpoller]

/-- The queue of a view after output. -/
theorem OutputStep.queue {calls : List SocketCall} {complete : Bool}
    (h : OutputStep l l' c calls complete) :
    functorsOf c (φ.batch ++ l'.pendingFunctors) = (l.view φ c).queue := by
  rw [h.pendingFunctors, ← List.append_assoc, functorsOf_append, functorsOf_notifications,
    List.append_nil]
  rfl

/-- The view after a completed `sendInLoop`. -/
theorem SendStep.view {message : List Byte} {r : WriteResult} (h : SendStep l l' c message r)
    (hp : l.poller.Wf) :
    l'.view φ c = (l.view φ c).send message r (l'.conn c).outputBuffer := by
  have hpoller := h.poller
  have hbase : l'.baseFunctors.count c = (l.view φ c).base := by
    rw [h.baseFunctors]
    rfl
  have hiff : ((l.view φ c).sendRest message r ≠ [] ∧ (l.view φ c).slot.isWriting = false) ↔
      l.sendRest c message r ≠ [] ∧ l.isWriting c = false := Iff.rfl
  unfold ConnectionView.send
  simp only [hiff]
  by_cases hask : l.sendRest c message r ≠ [] ∧ l.isWriting c = false
  · rw [if_pos hask] at hpoller ⊢
    exact interest_view hp hpoller rfl h.self h.queue hbase
  · rw [if_neg hask] at hpoller ⊢
    exact still_view hpoller rfl h.self h.queue hbase

/-- The view after a completed `handleWrite`. -/
theorem WriteStep.view {r : WriteResult} (h : WriteStep l l' c r) (hp : l.poller.Wf) :
    l'.view φ c = (l.view φ c).write r (l'.conn c).outputBuffer := by
  have hpoller := h.poller
  have hbase : l'.baseFunctors.count c = (l.view φ c).base := by
    rw [h.baseFunctors]
    rfl
  have hiff : (l.view φ c).Drains r ↔ l.WriteDrains c r := Iff.rfl
  unfold ConnectionView.write
  simp only [hiff]
  by_cases hdrains : l.WriteDrains c r
  · rw [if_pos hdrains] at hpoller ⊢
    exact interest_view hp hpoller rfl h.self h.queue hbase
  · rw [if_neg hdrains] at hpoller ⊢
    exact still_view hpoller rfl h.self h.queue hbase

/-- The view after `shutdownInLoop`. -/
theorem shutdownInLoop_view (hb : (l.conn c).outputBuffer.Wf) :
    (l.shutdownInLoop c).view φ c =
      (l.view φ c).output (l.view φ c).conn.outputBuffer (l.view φ c).shutdownCalls := by
  have hstep := (OutputStep.refl hb).shutdownInLoop
  refine still_view (shutdownInLoop_poller l c) rfl ?_ hstep.queue ?_
  · rw [hstep.self, shutdownInLoop_outputBuffer]
    rfl
  · rw [hstep.baseFunctors]
    rfl

/-- The view after a completed `handleClose`. -/
theorem CloseStep.view (h : CloseStep l l' c) (hp : l.poller.Wf) :
    l'.view φ c = (l.view φ c).close c := by
  refine interest_view (v := { l.view φ c with
    conn := ((l.view φ c).close c).conn
    queue := ((l.view φ c).close c).queue
    base := ((l.view φ c).close c).base }) hp h.interest rfl h.self ?_ ?_
  · rw [h.pendingFunctors, ← List.append_assoc, functorsOf_append]
    change (l.view φ c).queue ++ _ = (l.view φ c).queue ++ _
    congr 1
    change functorsOf c (if viaBase (l.conn c).holder then [] else [.connectDestroyed c]) =
      if viaBase (l.conn c).holder then [] else [.connectDestroyed c]
    split
    · rfl
    · exact functorsOf_cons_of_eq rfl []
  · rw [h.baseFunctors, List.count_append]
    change _ + List.count c (if viaBase (l.conn c).holder then [c] else []) =
      _ + if viaBase (l.conn c).holder then 1 else 0
    congr 1
    split
    · exact List.count_singleton_self
    · rfl

/-- The view after a change of state and an interest call. -/
theorem StateStep.view {st : StateE} {i : Interest} (h : StateStep l l' c st i)
    (hp : l.poller.Wf) :
    l'.view φ c = ((l.view φ c).modify fun conn => { conn with state := st }).interest i := by
  refine interest_view hp h.interest rfl h.self ?_ ?_
  · rw [h.pendingFunctors]
    rfl
  · rw [h.baseFunctors]
    rfl

/-- The view after `shutdown` of a connected connection. -/
theorem ShutdownStep.view {inLoop : Bool} (h : ShutdownStep l l' c inLoop) :
    l'.view φ c = (l.view φ c).shutdown inLoop c := by
  refine still_view h.poller rfl h.self ?_ ?_
  · rw [h.pendingFunctors, ← List.append_assoc, functorsOf_append]
    change (l.view φ c).queue ++ _ = (l.view φ c).queue ++ _
    congr 1
    split
    · rfl
    · exact functorsOf_cons_of_eq rfl []
  · rw [h.baseFunctors]
    rfl

/-- The tables of the Poller agree, and every buffer is well formed. -/
structure Wf (l : IoLoop ι) : Prop where
  poller : l.poller.Wf
  buffers : ∀ c, (l.conn c).inputBuffer.Wf ∧ (l.conn c).outputBuffer.Wf

/-- A step that changes one connection keeps the loop well formed. -/
theorem Wf.of_frame (h : l.Wf) (hp : l'.poller.Wf) (hothers : ∀ c', c' ≠ c → l'.conn c' = l.conn c')
    (hself : (l'.conn c).inputBuffer.Wf ∧ (l'.conn c).outputBuffer.Wf) : l'.Wf := by
  refine ⟨hp, fun c' => ?_⟩
  by_cases hne : c' = c
  · rwa [hne]
  · rw [hothers c' hne]
    exact h.buffers c'

/-- Output keeps the loop well formed. -/
theorem Wf.of_outputStep {calls : List SocketCall} {complete : Bool} (h : l.Wf)
    (hstep : OutputStep l l' c calls complete) (hp : l'.poller.Wf) : l'.Wf := by
  refine h.of_frame hp hstep.others ⟨?_, hstep.wf⟩
  rw [hstep.self]
  exact (h.buffers c).1

/-- A close keeps the loop well formed. -/
theorem Wf.of_closeStep (h : l.Wf) (hstep : CloseStep l l' c) : l'.Wf := by
  refine h.of_frame hstep.interest.wf hstep.others ?_
  rw [hstep.self]
  exact h.buffers c

/-- A change of state keeps the loop well formed. -/
theorem Wf.of_stateStep {st : StateE} {i : Interest} (h : l.Wf)
    (hstep : StateStep l l' c st i) : l'.Wf := by
  refine h.of_frame hstep.interest.wf hstep.others ?_
  rw [hstep.self]
  exact h.buffers c

/-- A change of other fields keeps the loop well formed. -/
theorem Wf.modifyConn (h : l.Wf) {f : TcpConnection → TcpConnection}
    (hf : (f (l.conn c)).inputBuffer.Wf ∧ (f (l.conn c)).outputBuffer.Wf) :
    (l.modifyConn c f).Wf := by
  refine h.of_frame h.poller (fun c' hne => modifyConn_conn_of_ne l hne f) ?_
  rwa [modifyConn_conn_self]

omit [DecidableEq ι] in
/-- The Poller after a completed `sendInLoop` or `handleWrite`. -/
theorem wf_of_poller {p : Prop} [Decidable p] {i : Interest} (hp : l.poller.Wf)
    (h : if p then Poller.InterestSet l.poller l'.poller (.conn c) i else l'.poller = l.poller) :
    l'.poller.Wf ∧
      (l'.poller = l.poller ∨ Poller.InterestSet l.poller l'.poller (.conn c) i) := by
  split at h
  · exact ⟨h.wf, Or.inr h⟩
  · exact ⟨h ▸ hp, Or.inl h⟩

end IoLoop

open ConnectionView (Step)

namespace LoopRun

variable {l l' : IoLoop ι} {c₀ : ι} {a : LoopAction ι}

omit [DecidableEq ι] in
/-- A view that did not change. -/
theorem stutter_of_eq {c : ι} {v v' : ConnectionView ι} (h : v' = v) : Step c v a v' := by
  rw [h]
  exact .stutter a

/-- A step about one connection, where the others do not change. -/
theorem views_of {s s' : LoopRun ι} (c₀ : ι) (hself : Step c₀ (s.view c₀) a (s'.view c₀))
    (hothers : ∀ c, c ≠ c₀ → s'.view c = s.view c) : ∀ c, Step c (s.view c) a (s'.view c) := by
  intro c
  by_cases hne : c = c₀
  · rwa [hne]
  · exact stutter_of_eq (hothers c hne)

/-- A step that concerns no connection. -/
theorem views_of_apart {s s' : LoopRun ι} (hbatch : ∀ c, functorsOf c s'.phase.batch =
      functorsOf c s.phase.batch)
    (hactive : ∀ c, s'.phase.active.count (.conn c) = s.phase.active.count (.conn c))
    (hactivity : ∀ c, s'.phase.activity c = s.phase.activity c)
    (h : ∀ c, s.loop.Apart s'.loop c) : ∀ c, Step c (s.view c) a (s'.view c) :=
  fun c => stutter_of_eq ((h c).view (hbatch c) (hactive c) (hactivity c))

/-- A poll. -/
theorem views_poll {u : Bool} {results : List (BitVec 16)} {s' : LoopRun ι} (h : l.Wf)
    (hreport : l.poller.MayReport results)
    (hok : exec ⟨l, .polling, u⟩ (.poll results) = .ok s') :
    s'.loop.Wf ∧ ∀ c, Step c (view ⟨l, .polling, u⟩ c) (.poll results) (s'.view c) := by
  obtain ⟨p, active, hfill, hpolled⟩ := h.poller.poll hreport
  have heq : s' = ⟨{ l with poller := p }, .dispatching active, false⟩ := by
    change ((l.poller.report results).fillActiveChannels >>= _) = _ at hok
    rw [hfill] at hok
    exact (Except.ok.inj hok).symm
  subst heq
  refine ⟨⟨hpolled.wf, h.buffers⟩, fun c => ?_⟩
  have hcount : active.count (.conn c) ≤ 1 := List.nodup_iff_count_le_one.mp hpolled.nodup _
  have hview : view ⟨{ l with poller := p }, .dispatching active, false⟩ c =
      { view ⟨l, .polling, u⟩ c with
        slot := { (view ⟨l, .polling, u⟩ c).slot with revents := (p.channel (.conn c)).revents }
        waiting := active.count (.conn c) } := by
    unfold view IoLoop.view
    simp only [hpolled.slot, Poller.callsOf, hpolled.calls]
    rfl
  rw [hview]
  refine .poll rfl hcount fun hpos => ?_
  obtain ⟨hreg, pfd, hentry, hfd⟩ := hpolled.active _ (List.count_pos_iff.mp hpos)
  refine ⟨decide_eq_true hreg, ?_⟩
  change (decide _ && (l.poller.entry (.conn c)).any _) = false
  rw [hentry]
  simp [hfd]

/-- The start of `handleEvent`. -/
theorem views_handleEvent (l : IoLoop ι) (u : Bool) (id : ChannelId ι)
    (rest : List (ChannelId ι)) (c : ι) :
    Step c (view ⟨l, .dispatching (id :: rest), u⟩ c) .handleEvent
      ((handleEvent l id rest).view c) := by
  cases id with
  | other k =>
    refine stutter_of_eq ((IoLoop.Apart.refl l c).view rfl ?_ rfl)
    exact (List.count_cons_of_ne (by simp)).symm
  | conn c₀ =>
    by_cases hne : c = c₀
    · subst hne
      have hview : (handleEvent l (.conn c) rest).view c =
          { view ⟨l, .dispatching (.conn c :: rest), u⟩ c with
            waiting := (view ⟨l, .dispatching (.conn c :: rest), u⟩ c).waiting - 1
            activity := .handling (eventCallbacks (l.channel c).revents) } := by
        unfold handleEvent view IoLoop.view
        simp [Phase.active, Phase.batch, Phase.activity]
      rw [hview]
      refine .handleEvent rfl ?_
      change 0 < (ChannelId.conn c :: rest).count (.conn c)
      rw [List.count_cons_self]
      exact Nat.succ_pos _
    · refine stutter_of_eq ((IoLoop.Apart.refl l c).view rfl ?_ ?_)
      · refine (List.count_cons_of_ne ?_).symm
        exact fun heq => hne (ChannelId.conn.inj heq).symm
      · exact if_neg (Ne.symm hne)

/-- A callback of a connection's channel does not touch the other connections. -/
theorem view_callback_of_ne {c : ι} {cb : Callback} {rest : List Callback}
    {active : List (ChannelId ι)} {u u' : Bool} (hne : c ≠ c₀) (h : l.Apart l' c) :
    view ⟨l', .handling c₀ rest active, u'⟩ c =
      view ⟨l, .handling c₀ (cb :: rest) active, u⟩ c :=
  h.view rfl rfl ((if_neg (Ne.symm hne)).trans (if_neg (Ne.symm hne)).symm)

/-- What the thread does with the connection it handles. -/
theorem activity_handling (c : ι) (callbacks : List Callback) (active : List (ChannelId ι)) :
    (Phase.handling c callbacks active).activity c = .handling callbacks := if_pos rfl

/-- A step of the handled connection goes on with the remaining callbacks. -/
theorem view_callback_self {c : ι} {rest : List Callback} {active : List (ChannelId ι)} {u : Bool}
    (cb : Callback) (l : IoLoop ι) :
    view ⟨l, .handling c rest active, u⟩ c =
      { l.view (.handling c (cb :: rest) active) c with activity := .handling rest } := by
  unfold view IoLoop.view
  simp only [activity_handling]
  rfl

/-- `CloseCallback_`. -/
theorem views_closeCallback {c : ι} {rest : List Callback} {active : List (ChannelId ι)} {u : Bool}
    {s' : LoopRun ι} (h : l.Wf)
    (hok : exec ⟨l, .handling c (.close :: rest) active, u⟩ .closeCallback = .ok s') :
    s'.loop.Wf ∧
      ∀ c', Step c' (view ⟨l, .handling c (.close :: rest) active, u⟩ c') .closeCallback
        (s'.view c') := by
  change (l.handleClose c >>= _) = _ at hok
  rw [bind_eq_ok] at hok
  obtain ⟨l', hclose, heq⟩ := hok
  cases heq
  have hstep := IoLoop.handleClose_eq_ok h.poller hclose
  refine ⟨h.of_closeStep hstep, views_of c ?_ fun c' hne =>
    view_callback_of_ne hne (hstep.apart hne h.poller)⟩
  rw [view_callback_self .close l', hstep.view h.poller]
  exact .closeCallback (activity_handling c (.close :: rest) active) hstep.state hstep.held

/-- `errorCallback_`. -/
theorem views_errorCallback {c : ι} {rest : List Callback} {active : List (ChannelId ι)}
    {u u' : Bool} (l : IoLoop ι) (c' : ι) :
    Step c' (view ⟨l, .handling c (.error :: rest) active, u⟩ c') .errorCallback
      (view ⟨l, .handling c rest active, u'⟩ c') := by
  refine views_of c ?_ (fun c' hne => view_callback_of_ne hne (.refl l c')) c'
  rw [view_callback_self (u := u') .error l]
  exact .errorCallback (activity_handling c (.error :: rest) active)

/-- `readCallback_`. -/
theorem views_readCallback {c : ι} {rest : List Callback} {active : List (ChannelId ι)} {u : Bool}
    {r : ReadResult} {s' : LoopRun ι} (h : l.Wf)
    (hok : exec ⟨l, .handling c (.read :: rest) active, u⟩ (.readCallback r) = .ok s') :
    s'.loop.Wf ∧
      ∀ c', Step c' (view ⟨l, .handling c (.read :: rest) active, u⟩ c') (.readCallback r)
        (s'.view c') := by
  obtain ⟨input, hinput, hread⟩ := IoLoop.handleRead_eq l c r (h.buffers c).1
  have hwf : (l.modifyConn c fun conn => { conn with inputBuffer := input }).Wf :=
    h.modifyConn ⟨hinput, (h.buffers c).2⟩
  have hview (φ : Phase ι) :
      (l.modifyConn c fun conn => { conn with inputBuffer := input }).view φ c =
        (l.view φ c).modify fun conn => { conn with inputBuffer := input } := by
    unfold IoLoop.view ConnectionView.modify
    rw [IoLoop.modifyConn_conn_self]
    rfl
  change (l.handleRead c r >>= _) = _ at hok
  rw [bind_eq_ok, hread] at hok
  obtain ⟨l', hclose, heq⟩ := hok
  cases heq
  simp only at hclose
  cases hend : IoLoop.endOfStream r with
  | true =>
    rw [if_pos hend] at hclose
    have hstep := IoLoop.handleClose_eq_ok hwf.poller hclose
    have hstate := hstep.state
    have hheld := hstep.held
    rw [IoLoop.modifyConn_conn_self] at hstate hheld
    refine ⟨hwf.of_closeStep hstep, views_of c ?_ fun c' hne => view_callback_of_ne hne
      ((IoLoop.apart_modifyConn l hne _).trans (hstep.apart hne hwf.poller))⟩
    rw [view_callback_self .read l', hstep.view hwf.poller, hview]
    exact .readClose (activity_handling c (.read :: rest) active) hend hstate hheld
  | false =>
    rw [if_neg (by rw [hend]; exact Bool.false_ne_true)] at hclose
    cases hclose
    refine ⟨hwf, views_of c ?_ fun c' hne => view_callback_of_ne hne
      (IoLoop.apart_modifyConn l hne _)⟩
    rw [view_callback_self (u := deliversData r) .read, hview]
    exact .read (activity_handling c (.read :: rest) active) hend

/-- `writeCallback_`. -/
theorem views_writeCallback {c : ι} {rest : List Callback} {active : List (ChannelId ι)} {u : Bool}
    {r : WriteResult} {s' : LoopRun ι} (h : l.Wf)
    (hok : exec ⟨l, .handling c (.write :: rest) active, u⟩ (.writeCallback r) = .ok s') :
    s'.loop.Wf ∧
      ∀ c', Step c' (view ⟨l, .handling c (.write :: rest) active, u⟩ c') (.writeCallback r)
        (s'.view c') := by
  change (l.handleWrite c r >>= _) = _ at hok
  rw [bind_eq_ok] at hok
  obtain ⟨l', hwrite, heq⟩ := hok
  cases heq
  rcases IoLoop.handleWrite_eq_ok h.poller (h.buffers c).2 hwrite with
    ⟨hidle, rfl⟩ | ⟨hwriting, hstep⟩
  · refine ⟨h, views_of c ?_ fun c' hne => view_callback_of_ne hne (.refl l' c')⟩
    rw [view_callback_self (u := false) .write]
    exact .writeIdle (activity_handling c (.write :: rest) active) hidle
  · obtain ⟨hp, hpoller⟩ := IoLoop.wf_of_poller h.poller hstep.poller
    refine ⟨h.of_outputStep hstep.toOutputStep hp, views_of c ?_ fun c' hne =>
      view_callback_of_ne hne (hstep.toOutputStep.apart hne h.poller hpoller)⟩
    rw [view_callback_self .write l', hstep.view h.poller]
    exact .write (activity_handling c (.write :: rest) active) hwriting hstep.returned_pos hstep.wf
      hstep.readable

/-- The end of `handleEvent`. -/
theorem views_handled {c : ι} {active : List (ChannelId ι)} {u u' : Bool} (l : IoLoop ι) (c' : ι) :
    Step c' (view ⟨l, .handling c [] active, u⟩ c') .handled
      (view ⟨l, .dispatching active, u'⟩ c') := by
  refine views_of c ?_ (fun c' hne => ?_) c'
  · exact .handled (activity_handling c [] active)
  · exact (IoLoop.Apart.refl l c').view rfl rfl (if_neg (Ne.symm hne)).symm

/-- The queue of a connection when a functor that acts on it is next. -/
theorem queue_functor {c : ι} {f : Functor ι} (hf : f.connection = some c) (l : IoLoop ι)
    (rest : List (Functor ι)) :
    (l.view (.running (f :: rest)) c).queue = f :: functorsOf c (rest ++ l.pendingFunctors) :=
  functorsOf_cons_of_eq hf _

/-- Running a functor takes it off the queue of the connection it acts on. -/
theorem view_functor_self {c : ι} (f : Functor ι) (l : IoLoop ι) (rest : List (Functor ι)) :
    l.view (.running rest) c = { l.view (.running (f :: rest)) c with
      queue := functorsOf c (rest ++ l.pendingFunctors) } := rfl

/-- Running a functor does not touch the connections it does not act on. -/
theorem view_functor_of_ne {c : ι} {f : Functor ι} {rest : List (Functor ι)} {u u' : Bool}
    (hf : f.connection ≠ some c) (h : l.Apart l' c) :
    view ⟨l', .running rest, u'⟩ c = view ⟨l, .running (f :: rest), u⟩ c :=
  h.view (functorsOf_cons_of_ne hf rest).symm rfl rfl

/-- A functor acts on one connection, and the others do not change. -/
theorem views_of_functor {s s' : LoopRun ι} {f : Functor ι} {c₀ : ι} (hf : f.connection = some c₀)
    (hself : Step c₀ (s.view c₀) a (s'.view c₀))
    (hothers : ∀ c, c ≠ c₀ → s'.view c = s.view c) :
    (∀ c, Step c (s.view c) a (s'.view c)) ∧
      ∀ c, f.connection ≠ some c → s'.view c = s.view c := by
  refine ⟨views_of c₀ hself hothers, fun c hne => hothers c ?_⟩
  rintro rfl
  exact hne hf

/-- The functors of the batch. -/
theorem views_runFunctor {f : Functor ι} {rest : List (Functor ι)} {r : WriteResult} {u : Bool}
    {s' : LoopRun ι} (h : l.Wf) (hok : runFunctor l f rest r = .ok s') :
    s'.loop.Wf ∧
      (∀ c', Step c' (view ⟨l, .running (f :: rest), u⟩ c') (.runFunctor r) (s'.view c')) ∧
      ∀ c', f.connection ≠ some c' → s'.view c' = view ⟨l, .running (f :: rest), u⟩ c' := by
  cases f with
  | connectEstablished c =>
    change (l.connectEstablished c >>= _) = _ at hok
    rw [bind_eq_ok] at hok
    obtain ⟨l', hconn, heq⟩ := hok
    cases heq
    obtain ⟨hstate, hstep⟩ := IoLoop.connectEstablished_eq_ok h.poller hconn
    refine ⟨h.of_stateStep hstep, views_of_functor rfl ?_ fun c' hne =>
      view_functor_of_ne (Functor.connection_ne rfl hne) (hstep.apart hne h.poller)⟩
    have hview := hstep.view (φ := .running rest) h.poller
    rw [view_functor_self (.connectEstablished c) l] at hview
    change Step c _ _ (l'.view _ c)
    rw [hview]
    exact .connectEstablished rfl rfl (queue_functor rfl l rest) hstate
  | sendInLoop c message =>
    change (l.sendInLoop c message r >>= _) = _ at hok
    rw [bind_eq_ok] at hok
    obtain ⟨l', hsend, heq⟩ := hok
    cases heq
    have hstep := IoLoop.sendInLoop_eq_ok h.poller (h.buffers c).2 hsend
    obtain ⟨hp, hpoller⟩ := IoLoop.wf_of_poller h.poller hstep.poller
    refine ⟨h.of_outputStep hstep.toOutputStep hp, views_of_functor rfl ?_ fun c' hne =>
      view_functor_of_ne (Functor.connection_ne rfl hne)
        (hstep.toOutputStep.apart hne h.poller hpoller)⟩
    have hview := hstep.view (φ := .running rest) h.poller
    rw [view_functor_self (.sendInLoop c message) l, ConnectionView.send_queue] at hview
    change Step c _ _ (l'.view _ c)
    rw [hview]
    refine .sendInLoop rfl rfl (queue_functor rfl l rest) hstep.wf (fun hask hknown => ?_)
      hstep.readable
    change l.sendRest c message r ≠ [] ∧ l.isWriting c = false at hask
    have hset := hstep.poller
    rw [if_pos hask] at hset
    exact decide_eq_true (hset.registered_of_index (of_decide_eq_true hknown))
  | shutdownInLoop c =>
    cases hok
    have hstep := (IoLoop.OutputStep.refl (h.buffers c).2).shutdownInLoop
    have hpoller := l.shutdownInLoop_poller c
    refine ⟨h.of_outputStep hstep (hpoller ▸ h.poller), views_of_functor rfl ?_ fun c' hne =>
      view_functor_of_ne (Functor.connection_ne rfl hne)
        (hstep.apart (i := .disableAll) hne h.poller (Or.inl hpoller))⟩
    have hview := IoLoop.shutdownInLoop_view (φ := .running rest) (h.buffers c).2
    rw [view_functor_self (.shutdownInLoop c) l] at hview
    change Step c _ _ ((l.shutdownInLoop c).view _ c)
    rw [hview]
    exact .shutdownInLoop rfl rfl (queue_functor rfl l rest)
  | writeComplete c =>
    cases hok
    have hall (c' : ι) : view ⟨l, .running rest, true⟩ c' =
        view ⟨l, .running (.writeComplete c :: rest), u⟩ c' :=
      view_functor_of_ne (by simp [Functor.connection]) (.refl l c')
    exact ⟨h, fun c' => stutter_of_eq (hall c'), fun c' _ => hall c'⟩
  | connectDestroyed c =>
    change (l.connectDestroyed c >>= _) = _ at hok
    rw [bind_eq_ok] at hok
    obtain ⟨l', hconn, heq⟩ := hok
    cases heq
    obtain ⟨hstate, hstep⟩ := IoLoop.connectDestroyed_eq_ok h.poller hconn
    refine ⟨h.of_stateStep hstep, views_of_functor rfl ?_ fun c' hne => ?_⟩
    · have hview := hstep.view (φ := .running rest) h.poller
      rw [view_functor_self (.connectDestroyed c) l] at hview
      have hdestroying : view ⟨l', .destroying c rest, true⟩ c =
          { l'.view (.running rest) c with activity := .destroying } := by
        unfold view IoLoop.view
        simp [Phase.activity, Phase.batch, Phase.active]
      rw [hdestroying, hview]
      exact .connectDestroyed rfl rfl (queue_functor rfl l rest) hstate
    · exact (hstep.apart hne h.poller).view
        (functorsOf_cons_of_ne (Functor.connection_ne rfl hne) rest).symm rfl
        (if_neg (Ne.symm hne))
  | other =>
    cases hok
    have hall (c' : ι) : view ⟨l, .running rest, true⟩ c' =
        view ⟨l, .running (.other :: rest), u⟩ c' :=
      view_functor_of_ne (by simp [Functor.connection]) (.refl l c')
    exact ⟨h, fun c' => stutter_of_eq (hall c'), fun c' _ => hall c'⟩

/-- The end of `connectDestroyed`. -/
theorem views_removeChannel {c : ι} {functors : List (Functor ι)} {u : Bool} {s' : LoopRun ι}
    (h : l.Wf) (hok : exec ⟨l, .destroying c functors, u⟩ .removeChannel = .ok s') :
    s'.loop.Wf ∧
      ∀ c', Step c' (view ⟨l, .destroying c functors, u⟩ c') .removeChannel (s'.view c') := by
  change (l.removeChannel c >>= _) = _ at hok
  rw [bind_eq_ok] at hok
  obtain ⟨l', hremove, heq⟩ := hok
  cases heq
  obtain ⟨hremoved, heq⟩ := IoLoop.removeChannel_eq_ok h.poller hremove
  have hconn : l'.conn = l.conn := by rw [heq]
  have hpending : l'.pendingFunctors = l.pendingFunctors := by rw [heq]
  have hbase : l'.baseFunctors = l.baseFunctors := by rw [heq]
  refine ⟨⟨hremoved.wf, fun c' => hconn ▸ h.buffers c'⟩, views_of c ?_ fun c' hne => ?_⟩
  · have hview : view ⟨l', .running functors, false⟩ c =
        { view ⟨l, .destroying c functors, u⟩ c with
          slot := (l.poller.slot (.conn c)).removed
          calls := l.poller.callsOf (.conn c) ++ [.remove ()]
          activity := .idle } := by
      unfold view IoLoop.view
      rw [hconn, hpending, hbase, hremoved.slot, Poller.callsOf_remove hremoved.calls]
      rfl
    rw [hview]
    exact .removeChannel (if_pos rfl)
  · refine (IoLoop.Apart.of_ne hne h.poller (by rw [hconn]) (Or.inr (Or.inr hremoved))
      (by rw [hpending]) (by rw [hbase])).view rfl rfl (if_neg (Ne.symm hne)).symm

/-- The swap in `doPendingFunctors`. -/
theorem views_doPendingFunctors (l : IoLoop ι) (u u' : Bool) (c : ι) :
    Step c (view ⟨l, .dispatching [], u⟩ c) .doPendingFunctors
      (view ⟨l.swapFunctors, .running l.pendingFunctors, u'⟩ c) := by
  refine stutter_of_eq ?_
  unfold view IoLoop.view
  simp [IoLoop.swapFunctors, Phase.batch, Phase.active, Phase.activity]

/-! ### Calls of user code and of other threads -/

section

variable {φ : Phase ι} {u : Bool}

/-- A change of the fields of a connection. -/
theorem modifyConn_view (l : IoLoop ι) (c : ι) (f : TcpConnection → TcpConnection) :
    (l.modifyConn c f).view φ c = (l.view φ c).modify f := by
  unfold IoLoop.view ConnectionView.modify
  rw [IoLoop.modifyConn_conn_self]
  rfl

/-- A functor that is queued for a connection. -/
theorem queueInLoop_view {c : ι} {f : Functor ι} (hf : f.connection = some c) (l : IoLoop ι) :
    (l.queueInLoop f).view φ c = { l.view φ c with queue := (l.view φ c).queue ++ [f] } := by
  unfold IoLoop.view IoLoop.queueInLoop
  simp only [functorsOf_append, functorsOf_cons_of_eq hf, functorsOf_nil, List.append_assoc]

/-- A step that keeps the phase does not change the view of a connection it does not touch. -/
theorem view_of_apart {c : ι} (h : l.Apart l' c) :
    view ⟨l', φ, u⟩ c = view ⟨l, φ, u⟩ c := h.view rfl rfl rfl

/-- `send` in the thread of the loop. -/
theorem views_send {c : ι} {message : List Byte} {r : WriteResult} (h : l.Wf)
    (hok : l.send true c message r = .ok l') :
    l'.Wf ∧ ∀ c', Step c' (view ⟨l, φ, u⟩ c') (.send c message r) (view ⟨l', φ, u⟩ c') := by
  unfold IoLoop.send at hok
  by_cases hstate : (l.conn c).state = .kConnected
  · rw [if_pos hstate] at hok
    have hwf : (l.modifyConn c fun conn => { conn with handed := conn.handed ++ [message] }).Wf :=
      h.modifyConn (h.buffers c)
    have hstep := IoLoop.sendInLoop_eq_ok
      (l := l.modifyConn c fun conn => { conn with handed := conn.handed ++ [message] })
      hwf.poller (hwf.buffers c).2 hok
    obtain ⟨hp, hpoller⟩ := IoLoop.wf_of_poller hwf.poller hstep.poller
    refine ⟨hwf.of_outputStep hstep.toOutputStep hp, views_of c ?_ fun c' hne => view_of_apart
      ((IoLoop.apart_modifyConn l hne _).trans
        (hstep.toOutputStep.apart hne hwf.poller hpoller))⟩
    have hview := hstep.view (φ := φ) hwf.poller
    rw [modifyConn_view] at hview
    change Step c _ _ (l'.view φ c)
    rw [hview]
    have hrest : (l.modifyConn c fun conn =>
        { conn with handed := conn.handed ++ [message] }).sendRest c message r =
        (l.view φ c).sendRest message r := by
      change (IoLoop.view _ φ c).sendRest message r = _
      rw [modifyConn_view]
      rfl
    have hreadable := hstep.readable
    rw [IoLoop.modifyConn_conn_self, hrest] at hreadable
    exact .send hstate hstep.wf hreadable
  · rw [if_neg hstate] at hok
    cases hok
    exact ⟨h, fun c' => .stutter _⟩

/-- `send` in another thread. -/
theorem views_foreignSend {c : ι} {message : List Byte} {r : WriteResult} (h : l.Wf)
    (hok : l.send false c message r = .ok l') :
    l'.Wf ∧ ∀ c', Step c' (view ⟨l, φ, u⟩ c') (.foreignSend c message) (view ⟨l', φ, u⟩ c') := by
  unfold IoLoop.send at hok
  by_cases hstate : (l.conn c).state = .kConnected
  · rw [if_pos hstate] at hok
    cases hok
    have hwf : (l.modifyConn c fun conn => { conn with handed := conn.handed ++ [message] }).Wf :=
      h.modifyConn (h.buffers c)
    refine ⟨⟨hwf.poller, hwf.buffers⟩, views_of c ?_ fun c' hne => view_of_apart
      ((IoLoop.apart_modifyConn l hne _).trans
        (IoLoop.apart_queueInLoop _ (Functor.connection_ne rfl hne)))⟩
    change Step c _ _ (IoLoop.view _ φ c)
    rw [queueInLoop_view rfl, modifyConn_view]
    exact .foreignSend hstate
  · rw [if_neg hstate] at hok
    cases hok
    exact ⟨h, fun c' => .stutter _⟩

/-- `shutdown`, in the thread of the loop or in another one. -/
theorem views_shutdown {c : ι} {inLoop : Bool} (h : l.Wf)
    (hstep : (l.conn c).state = .kConnected →
      Step c (l.view φ c) a ((l.view φ c).shutdown inLoop c)) :
    (l.shutdown inLoop c).Wf ∧
      ∀ c', Step c' (view ⟨l, φ, u⟩ c') a (view ⟨l.shutdown inLoop c, φ, u⟩ c') := by
  rcases l.shutdown_cases inLoop c with ⟨_, heq⟩ | ⟨hstate, hshut⟩
  · rw [heq]
    exact ⟨h, fun c' => .stutter _⟩
  · refine ⟨h.of_frame (hshut.poller ▸ h.poller) hshut.others ?_, views_of c ?_ fun c' hne =>
      view_of_apart (hshut.apart hne h.poller)⟩
    · rw [hshut.self]
      exact h.buffers c
    · change Step c _ _ (IoLoop.view _ φ c)
      rw [hshut.view]
      exact hstep hstate

/-- `newConnection` in the thread of the loop. -/
theorem views_newConnection {c : ι} (h : l.Wf) (hentry : (l.conn c).entry = .notYet)
    (hok : (l.holdEntry c).connectEstablished c = .ok l') :
    l'.Wf ∧ ∀ c', Step c' (view ⟨l, φ, u⟩ c') (.newConnection c) (view ⟨l', φ, u⟩ c') := by
  have hwf : (l.holdEntry c).Wf := h.modifyConn (h.buffers c)
  obtain ⟨hstate, hstep⟩ := IoLoop.connectEstablished_eq_ok hwf.poller hok
  refine ⟨hwf.of_stateStep hstep, views_of c ?_ fun c' hne => view_of_apart
    ((IoLoop.apart_modifyConn l hne _).trans (hstep.apart hne hwf.poller))⟩
  have hview := hstep.view (φ := φ) hwf.poller
  rw [IoLoop.holdEntry, modifyConn_view] at hview
  change Step c _ _ (l'.view φ c)
  rw [hview]
  rw [IoLoop.holdEntry, IoLoop.modifyConn_conn_self] at hstate
  exact .newConnection hentry hstate

/-- `newConnection` in the base loop of a server. -/
theorem views_foreignNewConnection {c : ι} (h : l.Wf) (hentry : (l.conn c).entry = .notYet) :
    ((l.holdEntry c).queueInLoop (.connectEstablished c)).Wf ∧
      ∀ c', Step c' (view ⟨l, φ, u⟩ c') (.foreignNewConnection c)
        (view ⟨(l.holdEntry c).queueInLoop (.connectEstablished c), φ, u⟩ c') := by
  have hwf : (l.holdEntry c).Wf := h.modifyConn (h.buffers c)
  refine ⟨⟨hwf.poller, hwf.buffers⟩, views_of c ?_ fun c' hne => view_of_apart
    ((IoLoop.apart_modifyConn l hne _).trans
      (IoLoop.apart_queueInLoop _ (Functor.connection_ne rfl hne)))⟩
  change Step c _ _ (IoLoop.view _ φ c)
  rw [queueInLoop_view rfl, IoLoop.holdEntry, modifyConn_view]
  exact .foreignNewConnection hentry

/-- `TcpServer::removeConnectionInLoop` in the base loop. -/
theorem views_removeConnectionInLoop {c : ι} {rest : List ι} (h : l.Wf)
    (hbase : l.baseFunctors = c :: rest)
    (hok : { l with baseFunctors := rest }.removeConnectionInLoop c = .ok l') :
    l'.Wf ∧
      ∀ c', Step c' (view ⟨l, φ, u⟩ c') .removeConnectionInLoop (view ⟨l', φ, u⟩ c') := by
  obtain ⟨hheld, rfl⟩ := IoLoop.dropEntry_eq_ok hok
  have hwf : ({ l with baseFunctors := rest }.modifyConn c fun conn =>
      { conn with entry := .erased }).Wf :=
    IoLoop.Wf.modifyConn (l := { l with baseFunctors := rest }) ⟨h.poller, h.buffers⟩ (h.buffers c)
  refine ⟨⟨hwf.poller, hwf.buffers⟩, views_of c ?_ fun c' hne => view_of_apart ?_⟩
  · change Step c _ _ (IoLoop.view _ φ c)
    rw [queueInLoop_view rfl, modifyConn_view]
    refine .removeConnectionInLoop ?_ hheld
    change l.baseFunctors.count c = rest.count c + 1
    rw [hbase, List.count_cons_self]
  · have hapart : l.Apart { l with baseFunctors := rest } c' := by
      refine ⟨rfl, rfl, rfl, rfl, ?_⟩
      rw [hbase, List.count_cons_of_ne (Ne.symm hne)]
    exact (hapart.trans (IoLoop.apart_modifyConn _ hne _)).trans
      (IoLoop.apart_queueInLoop _ (Functor.connection_ne rfl hne))

/-- A Poller call for a channel that is not a connection's. -/
theorem views_other {k : ℕ} {f : Poller (ChannelId ι) → Except Failure (Poller (ChannelId ι))}
    (h : l.Wf) (hok : l.liftPoller f = .ok l')
    (hf : ∀ p', f l.poller = .ok p' →
      (∃ i, Poller.InterestSet l.poller p' (.other k) i) ∨
        Poller.Removed l.poller p' (.other k)) :
    l'.Wf ∧ ∀ c', Step c' (view ⟨l, φ, u⟩ c') a (view ⟨l', φ, u⟩ c') := by
  unfold IoLoop.liftPoller at hok
  rw [bind_eq_ok] at hok
  obtain ⟨p', hp', heq⟩ := hok
  cases heq
  have hne (c : ι) : ChannelId.other k ≠ .conn c := by simp
  have happly (c : ι) := IoLoop.poller_apart (hne c) h.poller (Or.inr (hf p' hp'))
  refine ⟨⟨?_, h.buffers⟩, fun c => stutter_of_eq (view_of_apart
    ⟨rfl, (happly c).2.1, (happly c).2.2, rfl, rfl⟩)⟩
  rcases hf p' hp' with ⟨i, hset⟩ | hremoved
  · exact hset.wf
  · exact hremoved.wf

/-- Queueing a functor of the user. -/
theorem views_queueInLoop (l : IoLoop ι) (c : ι) :
    Step c (view ⟨l, φ, u⟩ c) a (view ⟨l.queueInLoop .other, φ, u⟩ c) :=
  stutter_of_eq (view_of_apart (IoLoop.apart_queueInLoop l (by simp [Functor.connection])))

end

/-- **Every step of a loop is, for each connection, a step of its view.** -/
theorem views_step {s s' : LoopRun ι} (h : s.loop.Wf) (henabled : (loopSystem ι).enabled s a)
    (hok : (loopSystem ι).exec s a = .ok s') :
    s'.loop.Wf ∧ ∀ c, Step c (s.view c) a (s'.view c) := by
  obtain ⟨l, φ, u⟩ := s
  change enabledIn l u a φ at henabled
  change exec ⟨l, φ, u⟩ a = .ok s' at hok
  unfold enabledIn at henabled
  split at henabled
  · exact views_poll h henabled hok
  · cases hok
    exact ⟨h, views_of_apart (fun _ => rfl) (fun _ => rfl) (fun _ => rfl) (.refl l)⟩
  · cases hok
    refine ⟨?_, views_handleEvent l u _ _⟩
    unfold handleEvent
    split <;> exact h
  · exact views_closeCallback h hok
  · cases hok
    exact ⟨h, views_errorCallback l⟩
  · exact views_readCallback h hok
  · exact views_writeCallback h hok
  · cases hok
    exact ⟨h, views_handled l⟩
  · cases hok
    exact ⟨⟨h.poller, h.buffers⟩, views_doPendingFunctors l u false⟩
  · obtain ⟨hwf, hviews, _⟩ := views_runFunctor h hok
    exact ⟨hwf, hviews⟩
  · exact views_removeChannel h hok
  · cases hok
    exact ⟨h, views_of_apart (fun _ => rfl) (fun _ => rfl) (fun _ => rfl) (.refl l)⟩
  · change (l.send true _ _ _ >>= _) = _ at hok
    rw [bind_eq_ok] at hok
    obtain ⟨l', hsend, heq⟩ := hok
    cases heq
    exact views_send h hsend
  · cases hok
    exact views_shutdown h fun hstate => .shutdown hstate
  · change (IoLoop.connectEstablished _ _ >>= _) = _ at hok
    rw [bind_eq_ok] at hok
    obtain ⟨l', hconn, heq⟩ := hok
    cases heq
    exact views_newConnection h henabled.2.1 hconn
  · change (l.liftPoller _ >>= _) = _ at hok
    rw [bind_eq_ok] at hok
    obtain ⟨l', hlift, heq⟩ := hok
    cases heq
    exact views_other h hlift fun p' hp' => Or.inl ⟨_, h.poller.setInterest_eq_ok hp'⟩
  · change (l.liftPoller _ >>= _) = _ at hok
    rw [bind_eq_ok] at hok
    obtain ⟨l', hlift, heq⟩ := hok
    cases heq
    exact views_other h hlift fun p' hp' => Or.inr (h.poller.removeChannel_eq_ok hp')
  · cases hok
    exact ⟨⟨h.poller, h.buffers⟩, views_queueInLoop l⟩
  · change (l.send false _ _ _ >>= _) = _ at hok
    rw [bind_eq_ok] at hok
    obtain ⟨l', hsend, heq⟩ := hok
    cases heq
    exact views_foreignSend h hsend
  · cases hok
    exact views_shutdown h fun hstate => .foreignShutdown hstate
  · cases hok
    exact views_foreignNewConnection h henabled.1
  · cases hok
    exact ⟨⟨h.poller, h.buffers⟩, views_queueInLoop l⟩
  · obtain ⟨c, rest, hbase⟩ := List.exists_cons_of_ne_nil henabled
    unfold exec at hok
    simp only [hbase] at hok
    rw [bind_eq_ok] at hok
    obtain ⟨l', hremove, heq⟩ := hok
    cases heq
    exact views_removeConnectionInLoop h hbase hremove
  · exact henabled.elim

/-- Running a functor does not change the views of the connections it does not act on. -/
theorem view_of_runFunctor {s s' : LoopRun ι} {f : Functor ι} {rest : List (Functor ι)}
    {r : WriteResult} {c : ι} (h : s.loop.Wf) (hphase : s.phase = .running (f :: rest))
    (hok : (loopSystem ι).exec s (.runFunctor r) = .ok s') (hne : f.connection ≠ some c) :
    s'.view c = s.view c := by
  obtain ⟨l, φ, u⟩ := s
  subst hphase
  obtain ⟨_, _, hothers⟩ := views_runFunctor (u := u) h hok
  exact hothers c hne

/-- A functor that changes the view of a connection is the next one in its queue. -/
theorem next_of_runFunctor {s s' : LoopRun ι} {r : WriteResult} (c : ι) (h : s.loop.Wf)
    (henabled : (loopSystem ι).enabled s (.runFunctor r))
    (hok : (loopSystem ι).exec s (.runFunctor r) = .ok s') :
    s'.view c = s.view c ∨
      ∃ f rest fs, s.phase = .running (f :: rest) ∧ (s.view c).queue = f :: fs := by
  obtain ⟨l, φ, u⟩ := s
  obtain ⟨f, rest, rfl⟩ := phase_of_runFunctor henabled
  by_cases hf : f.connection = some c
  · exact Or.inr ⟨f, rest, _, rfl, queue_functor hf l rest⟩
  · exact Or.inl (view_of_runFunctor h rfl hok hf)

/-- What the thread is doing with a connection tells the phase. -/
theorem phase_of_handling {s : LoopRun ι} {c : ι} {cbs : List Callback}
    (h : (s.view c).activity = .handling cbs) : ∃ active, s.phase = .handling c cbs active := by
  obtain ⟨l, φ, u⟩ := s
  change φ.activity c = _ at h
  cases φ with
  | handling c' cbs' active =>
    change (if c' = c then _ else _) = _ at h
    split at h
    · rename_i heq
      cases h
      exact ⟨active, by rw [heq]⟩
    · cases h
  | destroying c' functors =>
    change (if c' = c then _ else _) = _ at h
    split at h <;> cases h
  | polling | dispatching | running => cases h

end LoopRun

end Dalin.Net
