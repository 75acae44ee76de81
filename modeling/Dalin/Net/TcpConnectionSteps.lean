import Dalin.Net.TcpConnection

/-!
# What the functions of a connection change

One lemma for each member function of `TcpConnection`: it names the fields that
the function may change and says what they become, so that a later proof never
unfolds the function. The functions that write to the socket share one frame,
`OutputStep`.
-/

set_option autoImplicit false

namespace Dalin.Net

/-- A `::write` returns at most the number of bytes offered. -/
theorem WriteResult.returned_le (r : WriteResult) (k : ℕ) : r.returned k ≤ k := by
  cases r with
  | failed =>
    change (-1 : ℤ) ≤ k
    omega
  | room n => exact Int.ofNat_le.mpr (Nat.min_le_right n k)

/-- What an interest call makes of `isWriting()`. -/
theorem Poller.InterestSet.isWriting {ι : Type} {p p' : Poller ι} {c : ι} {i : Interest}
    (h : Poller.InterestSet p p' c i) :
    (p'.channel c).isWriting = i.writing (p.channel c).isWriting := by
  have hevents : (p'.channel c).events = i.apply (p.channel c).events := by rw [h.channel]
  unfold Channel.isWriting
  rw [hevents]
  exact Channel.isWriting_apply i _

/-- A step of the Poller that leaves a channel alone keeps its `isWriting()`. -/
theorem Poller.Untouched.isWriting {ι : Type} {p p' : Poller ι} {c : ι}
    (h : Poller.Untouched p p' c) : (p'.channel c).isWriting = (p.channel c).isWriting := by
  rw [h.channel]
  rfl

namespace IoLoop

variable {ι : Type} [DecidableEq ι] {l l' l'' : IoLoop ι} {c : ι}

omit [DecidableEq ι] in
/-- An interest call on one connection does not change `isWriting()` of another. -/
theorem isWriting_of_interestSet {i : Interest} {c' : ι} (hne : c' ≠ c)
    (h : Poller.InterestSet l.poller l'.poller (.conn c) i) : l'.isWriting c' = l.isWriting c' :=
  (h.untouched (.conn c') fun heq => hne (ChannelId.conn.inj heq)).isWriting

/-- The connection is changed. -/
@[simp] theorem modifyConn_conn_self (l : IoLoop ι) (c : ι) (f : TcpConnection → TcpConnection) :
    (l.modifyConn c f).conn c = f (l.conn c) := Function.update_self ..

/-- The other connections are not. -/
theorem modifyConn_conn_of_ne (l : IoLoop ι) {c c' : ι} (h : c' ≠ c)
    (f : TcpConnection → TcpConnection) : (l.modifyConn c f).conn c' = l.conn c' :=
  Function.update_of_ne h ..

/-- A change that keeps the connection keeps the loop. -/
theorem modifyConn_eq_self {f : TcpConnection → TcpConnection} (h : f (l.conn c) = l.conn c) :
    l.modifyConn c f = l := by
  unfold modifyConn
  rw [h, Function.update_eq_self]

omit [DecidableEq ι] in
/-- A queued functor changes no connection yet. -/
@[simp] theorem queueInLoop_conn (l : IoLoop ι) (f : Functor ι) :
    (l.queueInLoop f).conn = l.conn := rfl

/-- The notifications that a finished write queues. -/
def notifications (l : IoLoop ι) (c : ι) (complete : Bool) : List (Functor ι) :=
  if complete && (l.conn c).writeCompleteCallback then [.writeComplete c] else []

/-- The frame of the functions that write: they change the output buffer of one
connection, make some calls on its socket, and may queue its notification. -/
structure OutputStep (l l' : IoLoop ι) (c : ι) (calls : List SocketCall) (complete : Bool) :
    Prop where
  others : ∀ c', c' ≠ c → l'.conn c' = l.conn c'
  self : l'.conn c = { l.conn c with
    outputBuffer := (l'.conn c).outputBuffer
    socketCalls := (l.conn c).socketCalls ++ calls }
  wf : (l'.conn c).outputBuffer.Wf
  pendingFunctors : l'.pendingFunctors = l.pendingFunctors ++ l.notifications c complete
  baseFunctors : l'.baseFunctors = l.baseFunctors

/-- A completed interest call changes the Poller alone. -/
theorem setInterest_eq_ok {i : Interest} (hp : l.poller.Wf) (h : l.setInterest c i = .ok l') :
    Poller.InterestSet l.poller l'.poller (.conn c) i ∧ l' = { l with poller := l'.poller } := by
  unfold setInterest at h
  rw [bind_eq_ok] at h
  obtain ⟨p, hset, hok⟩ := h
  cases hok
  exact ⟨hp.setInterest_eq_ok hset, rfl⟩

/-- An interest call on a registered channel succeeds. -/
theorem exists_setInterest (hp : l.poller.Wf) (hc : l.poller.Registered (.conn c))
    (i : Interest) : ∃ l', l.setInterest c i = .ok l' := by
  obtain ⟨p, hset, _⟩ := hp.exists_setInterest hc i
  exact ⟨_, bind_eq_ok.mpr ⟨p, hset, rfl⟩⟩

omit [DecidableEq ι] in
/-- Doing nothing is a step of the frame. -/
theorem OutputStep.refl (hb : (l.conn c).outputBuffer.Wf) : OutputStep l l c [] false :=
  ⟨fun _ _ => rfl, by rw [List.append_nil], hb, by simp [notifications], rfl⟩

/-- The frame extends over a call on the socket. -/
theorem OutputStep.callSocket {calls : List SocketCall} {complete : Bool}
    (h : OutputStep l l' c calls complete) (call : SocketCall) :
    OutputStep l (l'.callSocket c call) c (calls ++ [call]) complete := by
  refine ⟨fun c' hne => ?_, ?_, ?_, h.pendingFunctors, h.baseFunctors⟩
  · rw [IoLoop.callSocket, modifyConn_conn_of_ne l' hne, h.others c' hne]
  · rw [IoLoop.callSocket, modifyConn_conn_self, h.self, List.append_assoc]
  · rw [IoLoop.callSocket, modifyConn_conn_self]
    exact h.wf

omit [DecidableEq ι] in
/-- The calls of the connection after a step of the frame. -/
theorem OutputStep.socketCalls {calls : List SocketCall} {complete : Bool}
    (h : OutputStep l l' c calls complete) :
    (l'.conn c).socketCalls = (l.conn c).socketCalls ++ calls := by
  rw [h.self]

omit [DecidableEq ι] in
/-- The frame extends over the queueing of the notification. -/
theorem OutputStep.queueWriteComplete {calls : List SocketCall}
    (h : OutputStep l l' c calls false) :
    OutputStep l (l'.queueWriteComplete c) c calls true := by
  have hcallback : (l'.conn c).writeCompleteCallback = (l.conn c).writeCompleteCallback := by
    rw [h.self]
  have hpending : l'.pendingFunctors = l.pendingFunctors := by
    rw [h.pendingFunctors, notifications, Bool.false_and, if_neg Bool.false_ne_true,
      List.append_nil]
  unfold IoLoop.queueWriteComplete
  cases hset : (l.conn c).writeCompleteCallback with
  | true =>
    rw [if_pos (hcallback.trans hset)]
    refine ⟨h.others, h.self, h.wf, ?_, h.baseFunctors⟩
    change l'.pendingFunctors ++ [.writeComplete c] = _
    simp [hpending, notifications, hset]
  | false =>
    rw [if_neg (by rw [hcallback, hset]; exact Bool.false_ne_true)]
    refine ⟨h.others, h.self, h.wf, ?_, h.baseFunctors⟩
    simp [hpending, notifications, hset]

/-- The frame extends over a change of the output buffer. -/
theorem OutputStep.setOutput {calls : List SocketCall} {complete : Bool}
    (h : OutputStep l l' c calls complete) {b : Buffer} (hb : b.Wf) :
    OutputStep l (l'.setOutput c b) c calls complete := by
  refine ⟨fun c' hne => ?_, ?_, ?_, h.pendingFunctors, h.baseFunctors⟩
  · rw [IoLoop.setOutput, modifyConn_conn_of_ne l' hne, h.others c' hne]
  · rw [IoLoop.setOutput, modifyConn_conn_self, h.self]
  · rwa [IoLoop.setOutput, modifyConn_conn_self]

omit [DecidableEq ι] in
/-- The frame does not mention the Poller. -/
theorem OutputStep.of_poller {calls : List SocketCall} {complete : Bool}
    (h : OutputStep l l' c calls complete) (heq : l'' = { l' with poller := l''.poller }) :
    OutputStep l l'' c calls complete := by
  rw [heq]
  exact ⟨h.others, h.self, h.wf, h.pendingFunctors, h.baseFunctors⟩

omit [DecidableEq ι] in
/-- Queueing the notification leaves the Poller alone. -/
@[simp] theorem queueWriteComplete_poller (l : IoLoop ι) (c : ι) :
    (l.queueWriteComplete c).poller = l.poller := by
  unfold queueWriteComplete
  split <;> rfl

omit [DecidableEq ι] in
/-- Queueing the notification leaves the connections alone. -/
@[simp] theorem queueWriteComplete_conn (l : IoLoop ι) (c : ι) :
    (l.queueWriteComplete c).conn = l.conn := by
  unfold queueWriteComplete
  split <;> rfl

/-! ### `sendInLoop` -/

/-- Nothing is in the output queue, so `sendInLoop` tries writing directly. -/
def WritesDirectly (l : IoLoop ι) (c : ι) : Prop :=
  l.isWriting c = false ∧ (l.conn c).outputBuffer.readableBytes = 0

instance (l : IoLoop ι) (c : ι) : Decidable (l.WritesDirectly c) :=
  inferInstanceAs (Decidable (_ ∧ _))

/-- The calls that `sendInLoop` makes on the socket. -/
def sendCalls (l : IoLoop ι) (c : ι) (message : List Byte) (r : WriteResult) : List SocketCall :=
  if l.WritesDirectly c then [.write message (r.returned message.length)] else []

/-- The bytes of its message that `sendInLoop` leaves for later. -/
def sendRest (l : IoLoop ι) (c : ι) (message : List Byte) (r : WriteResult) : List Byte :=
  if l.WritesDirectly c then message.drop (r.returned message.length).toNat else message

/-- `sendInLoop` writes its whole message at once. -/
def sendCompletes (l : IoLoop ι) (c : ι) (message : List Byte) (r : WriteResult) : Bool :=
  decide (l.WritesDirectly c ∧ r.returned message.length = message.length)

/-- What the first half of `sendInLoop` does. -/
theorem directWrite_spec (l : IoLoop ι) (c : ι) (message : List Byte) (r : WriteResult)
    (hb : (l.conn c).outputBuffer.Wf) :
    ∃ l₁ n, l.directWrite c message r = (l₁, n) ∧ 0 ≤ n ∧
      message.drop n.toNat = l.sendRest c message r ∧
      OutputStep l l₁ c (l.sendCalls c message r) (l.sendCompletes c message r) ∧
      l₁.poller = l.poller ∧ (l₁.conn c).outputBuffer = (l.conn c).outputBuffer := by
  have hle := r.returned_le message.length
  by_cases hdirect : l.WritesDirectly c
  · have hstep := (OutputStep.refl hb).callSocket (.write message (r.returned message.length))
    have hbuffer :
        ((l.callSocket c (.write message (r.returned message.length))).conn c).outputBuffer =
          (l.conn c).outputBuffer := by rw [callSocket, modifyConn_conn_self]
    have hdef : l.directWrite c message r = _ := if_pos hdirect
    rw [hdef, sendRest, sendCalls, sendCompletes, if_pos hdirect, if_pos hdirect]
    by_cases hnonneg : 0 ≤ r.returned message.length
    swap
    · -- The call failed: nothing is written.
      have hnotall : r.returned message.length ≠ message.length := by omega
      refine ⟨_, 0, if_neg hnonneg, Int.le_refl 0, ?_, ?_, rfl, hbuffer⟩
      · rw [Int.toNat_of_nonpos (Int.le_of_not_le hnonneg)]
        rfl
      · simpa only [List.nil_append, hnotall, and_false, decide_false] using hstep
    · by_cases hall : r.returned message.length < message.length
      · refine ⟨_, _, (if_pos hnonneg).trans (if_pos hall), hnonneg, rfl, ?_, rfl, hbuffer⟩
        simpa only [List.nil_append, Int.ne_of_lt hall, and_false, decide_false] using hstep
      · have heq : r.returned message.length = message.length := by omega
        refine ⟨_, _, (if_pos hnonneg).trans (if_neg hall), hnonneg, rfl, ?_, ?_, ?_⟩
        · simpa only [List.nil_append, hdirect, heq, and_self, decide_true] using
            hstep.queueWriteComplete
        · exact queueWriteComplete_poller _ c
        · rw [queueWriteComplete_conn]
          exact hbuffer
  · have hdef : l.directWrite c message r = _ := if_neg hdirect
    rw [hdef, sendRest, sendCalls, sendCompletes, if_neg hdirect, if_neg hdirect]
    refine ⟨l, 0, rfl, Int.le_refl 0, rfl, ?_, rfl, rfl⟩
    simpa only [hdirect, false_and, decide_false] using OutputStep.refl hb

/-- `sendInLoop` keeps the rest of its message, and asks for write events if there
is one and they are not asked for already. -/
theorem sendInLoop_eq (l : IoLoop ι) (c : ι) (message : List Byte) (r : WriteResult)
    (hb : (l.conn c).outputBuffer.Wf) :
    ∃ l₁, OutputStep l l₁ c (l.sendCalls c message r) (l.sendCompletes c message r) ∧
      l₁.poller = l.poller ∧
      (l₁.conn c).outputBuffer.readable =
        (l.conn c).outputBuffer.readable ++ l.sendRest c message r ∧
      l.sendInLoop c message r =
        if l.sendRest c message r ≠ [] ∧ l.isWriting c = false then
          l₁.setInterest c .enableWriting
        else .ok l₁ := by
  obtain ⟨l₁, n, hdirect, hn, hrest, hstep, hpoller, hbuffer⟩ := directWrite_spec l c message r hb
  have hsend : l.sendInLoop c message r = l₁.bufferRest c message n := by
    unfold sendInLoop
    rw [hdirect]
  have hless : n < message.length ↔ l.sendRest c message r ≠ [] := by
    rw [← hrest, ne_eq, List.drop_eq_nil_iff]
    omega
  have hwriting : l₁.isWriting c = l.isWriting c := by
    unfold isWriting channel
    rw [hpoller]
  unfold bufferRest at hsend
  rw [require_of_true hn] at hsend
  by_cases hmore : l.sendRest c message r = []
  · refine ⟨l₁, hstep, hpoller, ?_, ?_⟩
    · rw [hbuffer, hmore, List.append_nil]
    · have hdone : ¬n < message.length := fun h => hless.mp h hmore
      rw [hsend]
      change (if n < message.length then _ else _) = _
      rw [if_neg hdone]
      simp only [hmore, ne_eq, not_true_eq_false, false_and, if_false]
      rfl
  · obtain ⟨out, happend, hwf, hreadable⟩ := hstep.wf.append (l.sendRest c message r)
    refine ⟨l₁.setOutput c out, hstep.setOutput hwf, hpoller, ?_, ?_⟩
    · rw [setOutput, modifyConn_conn_self, hreadable, hbuffer]
    · rw [hsend]
      change (if n < message.length then _ else _) = _
      rw [if_pos (hless.mpr hmore), hrest, happend]
      change (if l₁.isWriting c = false then _ else _) = _
      simp only [hwriting, hmore, ne_eq, not_false_eq_true, true_and]
      rfl

/-- What a completed `sendInLoop` leaves behind. -/
structure SendStep (l l' : IoLoop ι) (c : ι) (message : List Byte) (r : WriteResult) : Prop
    extends OutputStep l l' c (l.sendCalls c message r) (l.sendCompletes c message r) where
  readable : (l'.conn c).outputBuffer.readable =
    (l.conn c).outputBuffer.readable ++ l.sendRest c message r
  poller : if l.sendRest c message r ≠ [] ∧ l.isWriting c = false then
      Poller.InterestSet l.poller l'.poller (.conn c) .enableWriting
    else l'.poller = l.poller

/-- Inversion of `sendInLoop`. -/
theorem sendInLoop_eq_ok {message : List Byte} {r : WriteResult} (hp : l.poller.Wf)
    (hb : (l.conn c).outputBuffer.Wf) (h : l.sendInLoop c message r = .ok l') :
    SendStep l l' c message r := by
  obtain ⟨l₁, hstep, hpoller, hreadable, hsend⟩ := sendInLoop_eq l c message r hb
  rw [hsend] at h
  by_cases hask : l.sendRest c message r ≠ [] ∧ l.isWriting c = false
  · rw [if_pos hask] at h
    obtain ⟨hset, heq⟩ := setInterest_eq_ok (hpoller ▸ hp) h
    refine ⟨hstep.of_poller heq, ?_, ?_⟩
    · rw [heq]
      exact hreadable
    · rw [if_pos hask, ← hpoller]
      exact hset
  · rw [if_neg hask] at h
    cases h
    exact ⟨hstep, hreadable, (if_neg hask).mpr hpoller⟩

/-- `sendInLoop` succeeds if it finds the channel registered when it asks for events. -/
theorem exists_sendInLoop (message : List Byte) (r : WriteResult) (hp : l.poller.Wf)
    (hb : (l.conn c).outputBuffer.Wf)
    (hc : l.sendRest c message r ≠ [] ∧ l.isWriting c = false → l.poller.Registered (.conn c)) :
    ∃ l', l.sendInLoop c message r = .ok l' := by
  obtain ⟨l₁, _, hpoller, _, hsend⟩ := sendInLoop_eq l c message r hb
  rw [hsend]
  split
  · rename_i hask
    exact exists_setInterest (hpoller ▸ hp) (hpoller ▸ hc hask) _
  · exact ⟨l₁, rfl⟩

/-! ### `shutdownInLoop` and `handleWrite` -/

/-- The calls that `shutdownInLoop` makes on the socket. -/
def shutdownCalls (l : IoLoop ι) (c : ι) : List SocketCall :=
  if l.isWriting c = false then [.shutdownWrite] else []

/-- The frame extends over `shutdownInLoop`. -/
theorem OutputStep.shutdownInLoop {calls : List SocketCall} {complete : Bool}
    (h : OutputStep l l' c calls complete) :
    OutputStep l (l'.shutdownInLoop c) c (calls ++ l'.shutdownCalls c) complete := by
  unfold IoLoop.shutdownInLoop shutdownCalls
  split
  · exact h.callSocket .shutdownWrite
  · rwa [List.append_nil]

/-- `shutdownInLoop` leaves the Poller alone. -/
@[simp] theorem shutdownInLoop_poller (l : IoLoop ι) (c : ι) :
    (l.shutdownInLoop c).poller = l.poller := by
  unfold shutdownInLoop
  split <;> rfl

/-- `shutdownInLoop` leaves the buffer alone. -/
@[simp] theorem shutdownInLoop_outputBuffer (l : IoLoop ι) (c : ι) :
    ((l.shutdownInLoop c).conn c).outputBuffer = (l.conn c).outputBuffer := by
  unfold shutdownInLoop
  split
  · rw [callSocket, modifyConn_conn_self]
  · rfl

/-- The value of the `::write` in `handleWrite`. -/
def writeReturned (l : IoLoop ι) (c : ι) (r : WriteResult) : ℤ :=
  r.returned (l.conn c).outputBuffer.readable.length

/-- The `::write` in `handleWrite` empties the output buffer. -/
def WriteDrains (l : IoLoop ι) (c : ι) (r : WriteResult) : Prop :=
  l.writeReturned c r = (l.conn c).outputBuffer.readable.length

instance (l : IoLoop ι) (c : ι) (r : WriteResult) : Decidable (l.WriteDrains c r) :=
  inferInstanceAs (Decidable (_ = _))

/-- The calls that `handleWrite` makes on the socket. -/
def writeCalls (l : IoLoop ι) (c : ι) (r : WriteResult) : List SocketCall :=
  .write (l.conn c).outputBuffer.readable (l.writeReturned c r) ::
    if l.WriteDrains c r ∧ (l.conn c).state = .kDisconnecting then [.shutdownWrite] else []

/-- What a completed `handleWrite` of a writing connection leaves behind. -/
structure WriteStep (l l' : IoLoop ι) (c : ι) (r : WriteResult) : Prop
    extends OutputStep l l' c (l.writeCalls c r) (decide (l.WriteDrains c r)) where
  returned_pos : 0 < l.writeReturned c r
  readable : (l'.conn c).outputBuffer.readable =
    (l.conn c).outputBuffer.readable.drop (l.writeReturned c r).toNat
  poller : if l.WriteDrains c r then
      Poller.InterestSet l.poller l'.poller (.conn c) .disableWriting
    else l'.poller = l.poller

/-- When its `::write` accepts bytes, `handleWrite` drops them from the buffer, and
goes on with `drained` if none are left. -/
theorem handleWrite_eq (r : WriteResult) (hb : (l.conn c).outputBuffer.Wf)
    (hwriting : l.isWriting c = true) (hpos : 0 < l.writeReturned c r) :
    ∃ l₁, OutputStep l l₁ c [.write (l.conn c).outputBuffer.readable (l.writeReturned c r)] false ∧
      l₁.poller = l.poller ∧
      (l₁.conn c).outputBuffer.readable =
        (l.conn c).outputBuffer.readable.drop (l.writeReturned c r).toNat ∧
      l.handleWrite c r = if l.WriteDrains c r then l₁.drained c else .ok l₁ := by
  have hle := r.returned_le (l.conn c).outputBuffer.readable.length
  have hlen := hb.length_readable
  have hbuffer : ((l.callSocket c (.write (l.conn c).outputBuffer.readable
      (l.writeReturned c r))).conn c).outputBuffer = (l.conn c).outputBuffer := by
    rw [callSocket, modifyConn_conn_self]
  have hcount : (l.writeReturned c r).toNat ≤ (l.conn c).outputBuffer.readableBytes := by
    unfold writeReturned
    omega
  obtain ⟨out, hretrieve, hwf, hreadable⟩ := hb.retrieve hcount
  have hempty : out.readableBytes = 0 ↔ l.WriteDrains c r := by
    rw [hwf.readableBytes_eq_zero_iff, hreadable, List.drop_eq_nil_iff]
    unfold WriteDrains writeReturned at *
    omega
  refine ⟨(l.callSocket c (.write (l.conn c).outputBuffer.readable (l.writeReturned c r))).setOutput
    c out, ((OutputStep.refl hb).callSocket _).setOutput hwf, rfl, ?_, ?_⟩
  · rw [setOutput, modifyConn_conn_self, hreadable]
  · unfold handleWrite
    rw [if_pos hwriting]
    change (if 0 < l.writeReturned c r then _ else _) = _
    rw [if_pos hpos]
    change ((l.callSocket c (.write _ (l.writeReturned c r))).conn c).outputBuffer.retrieve
      (l.writeReturned c r).toNat >>= _ = _
    rw [hbuffer, hretrieve]
    change (if out.readableBytes = 0 then _ else _) = _
    simp only [hempty]
    rfl

/-- What `drained` does. -/
theorem drained_eq_ok {l₀ : IoLoop ι} {calls : List SocketCall} (hp : l.poller.Wf)
    (hstep : OutputStep l₀ l c calls false) (h : l.drained c = .ok l') :
    OutputStep l₀ l' c
        (calls ++ if (l₀.conn c).state = .kDisconnecting then [.shutdownWrite] else []) true ∧
      Poller.InterestSet l.poller l'.poller (.conn c) .disableWriting ∧
      (l'.conn c).outputBuffer = (l.conn c).outputBuffer := by
  unfold drained at h
  rw [bind_eq_ok] at h
  obtain ⟨l₁, hset, hok⟩ := h
  obtain ⟨hinterest, heq⟩ := setInterest_eq_ok hp hset
  have hstep₁ := (hstep.of_poller heq).queueWriteComplete
  have hwriting : (l₁.queueWriteComplete c).isWriting c = false := by
    unfold isWriting channel
    rw [queueWriteComplete_poller]
    exact hinterest.isWriting
  have hstate : ((l₁.queueWriteComplete c).conn c).state = (l₀.conn c).state := by
    rw [hstep₁.self]
  have hbuffer : ((l₁.queueWriteComplete c).conn c).outputBuffer = (l.conn c).outputBuffer := by
    rw [queueWriteComplete_conn, heq]
  simp only [hstate] at hok
  by_cases hclosing : (l₀.conn c).state = .kDisconnecting
  · rw [if_pos hclosing] at hok
    cases hok
    refine ⟨?_, ?_, ?_⟩
    · have hlast := hstep₁.shutdownInLoop
      rw [shutdownCalls, if_pos hwriting] at hlast
      rwa [if_pos hclosing]
    · rw [shutdownInLoop_poller, queueWriteComplete_poller]
      exact hinterest
    · rw [shutdownInLoop_outputBuffer, hbuffer]
  · rw [if_neg hclosing] at hok
    cases hok
    refine ⟨?_, ?_, hbuffer⟩
    · rwa [if_neg hclosing, List.append_nil]
    · rw [queueWriteComplete_poller]
      exact hinterest

/-- Inversion of `handleWrite`. -/
theorem handleWrite_eq_ok {r : WriteResult} (hp : l.poller.Wf) (hb : (l.conn c).outputBuffer.Wf)
    (h : l.handleWrite c r = .ok l') :
    (l.isWriting c = false ∧ l' = l) ∨ (l.isWriting c = true ∧ WriteStep l l' c r) := by
  cases hwriting : l.isWriting c with
  | false =>
    unfold handleWrite at h
    rw [hwriting, if_neg Bool.false_ne_true] at h
    cases h
    exact Or.inl ⟨rfl, rfl⟩
  | true =>
    have hpos : 0 < l.writeReturned c r := by
      by_contra hnot
      unfold handleWrite at h
      rw [if_pos hwriting] at h
      change (if 0 < l.writeReturned c r then _ else _) = _ at h
      rw [if_neg hnot] at h
      cases h
    obtain ⟨l₁, hstep, hpoller, hreadable, heq⟩ := handleWrite_eq r hb hwriting hpos
    rw [heq] at h
    refine Or.inr ⟨rfl, ?_⟩
    by_cases hdrains : l.WriteDrains c r
    · rw [if_pos hdrains] at h
      obtain ⟨hstep', hinterest, hbuffer⟩ := drained_eq_ok (hpoller ▸ hp) hstep h
      refine ⟨?_, hpos, ?_, ?_⟩
      · simpa only [writeCalls, hdrains, decide_true, true_and, List.singleton_append] using hstep'
      · rw [hbuffer, hreadable]
      · rw [if_pos hdrains, ← hpoller]
        exact hinterest
    · rw [if_neg hdrains] at h
      cases h
      refine ⟨?_, hpos, hreadable, (if_neg hdrains).mpr hpoller⟩
      simpa only [writeCalls, hdrains, decide_false, false_and, if_false] using hstep

/-- `handleWrite` of a writing connection whose channel is registered succeeds if its
`::write` accepts bytes. -/
theorem exists_handleWrite {r : WriteResult} (hp : l.poller.Wf)
    (hb : (l.conn c).outputBuffer.Wf) (hc : l.poller.Registered (.conn c))
    (hwriting : l.isWriting c = true) (hpos : 0 < l.writeReturned c r) :
    ∃ l', l.handleWrite c r = .ok l' := by
  obtain ⟨l₁, _, hpoller, _, heq⟩ := handleWrite_eq r hb hwriting hpos
  rw [heq]
  split
  · obtain ⟨l₂, hset⟩ := exists_setInterest (hpoller ▸ hp) (hpoller ▸ hc) .disableWriting
    unfold drained
    rw [hset]
    change ∃ l', (if ((l₂.queueWriteComplete c).conn c).state = .kDisconnecting then Except.ok _
      else Except.ok _) = .ok l'
    split <;> exact ⟨_, rfl⟩
  · exact ⟨l₁, rfl⟩

/-- A `::write` that accepts nothing makes `handleWrite` call `abort`. -/
theorem handleWrite_abort {r : WriteResult} (hwriting : l.isWriting c = true)
    (hnone : l.writeReturned c r ≤ 0) :
    l.handleWrite c r = .error (.abort "Failed in TcpConnection::handleWrite()") := by
  unfold handleWrite
  rw [if_pos hwriting]
  change (if 0 < l.writeReturned c r then _ else _) = _
  rw [if_neg (Int.not_lt.mpr hnone)]

/-- What `shutdown` of a connected connection leaves behind. -/
structure ShutdownStep (l l' : IoLoop ι) (c : ι) (inLoop : Bool) : Prop where
  others : ∀ c', c' ≠ c → l'.conn c' = l.conn c'
  self : l'.conn c = { l.conn c with
    state := .kDisconnecting
    socketCalls := (l.conn c).socketCalls ++ if inLoop then l.shutdownCalls c else [] }
  poller : l'.poller = l.poller
  pendingFunctors : l'.pendingFunctors =
    l.pendingFunctors ++ if inLoop then [] else [.shutdownInLoop c]
  baseFunctors : l'.baseFunctors = l.baseFunctors

/-- `shutdown` acts on a connected connection only. -/
theorem shutdown_cases (l : IoLoop ι) (inLoop : Bool) (c : ι) :
    ((l.conn c).state ≠ .kConnected ∧ l.shutdown inLoop c = l) ∨
    ((l.conn c).state = .kConnected ∧ ShutdownStep l (l.shutdown inLoop c) c inLoop) := by
  unfold shutdown
  by_cases hstate : (l.conn c).state = .kConnected
  · rw [if_pos hstate]
    refine Or.inr ⟨hstate, ?_⟩
    have hothers {c' : ι} (hne : c' ≠ c) : (l.setState c .kDisconnecting).conn c' = l.conn c' :=
      modifyConn_conn_of_ne l hne _
    have hself : (l.setState c .kDisconnecting).conn c =
        { l.conn c with state := .kDisconnecting } := modifyConn_conn_self l c _
    cases inLoop with
    | false =>
      refine ⟨fun c' hne => hothers hne, ?_, rfl, rfl, rfl⟩
      change (l.setState c .kDisconnecting).conn c = _
      rw [hself]
      simp
    | true =>
      unfold shutdownInLoop
      have hwriting : (l.setState c .kDisconnecting).isWriting c = l.isWriting c := rfl
      simp only [hwriting, if_true]
      by_cases hw : l.isWriting c = false
      · rw [if_pos hw]
        refine ⟨fun c' hne => ?_, ?_, rfl, (List.append_nil _).symm, rfl⟩
        · rw [callSocket, modifyConn_conn_of_ne _ hne, hothers hne]
        · rw [callSocket, modifyConn_conn_self, hself]
          simp [shutdownCalls, hw]
      · rw [if_neg hw]
        refine ⟨fun c' hne => hothers hne, ?_, rfl, (List.append_nil _).symm, rfl⟩
        rw [hself]
        simp [shutdownCalls, hw]
  · exact Or.inl ⟨hstate, if_neg hstate⟩

/-! ### Opening and closing -/

/-- What a change of `state_` and an interest call leave behind. -/
structure StateStep (l l' : IoLoop ι) (c : ι) (s : StateE) (i : Interest) : Prop where
  interest : Poller.InterestSet l.poller l'.poller (.conn c) i
  others : ∀ c', c' ≠ c → l'.conn c' = l.conn c'
  self : l'.conn c = { l.conn c with state := s }
  pendingFunctors : l'.pendingFunctors = l.pendingFunctors
  baseFunctors : l'.baseFunctors = l.baseFunctors

/-- A change of `state_` followed by a completed interest call. -/
theorem stateStep_of_eq_ok {s : StateE} {i : Interest} (hp : l.poller.Wf)
    (h : (l.setState c s).setInterest c i = .ok l') : StateStep l l' c s i := by
  obtain ⟨hset, heq⟩ := setInterest_eq_ok (l := l.setState c s) hp h
  have hconn : l'.conn = (l.setState c s).conn := by rw [heq]
  refine ⟨hset, fun c' hne => ?_, ?_, ?_, ?_⟩
  · rw [hconn]
    exact modifyConn_conn_of_ne l hne _
  · rw [hconn]
    exact modifyConn_conn_self l c _
  · rw [heq]
    rfl
  · rw [heq]
    rfl

/-- Inversion of `connectEstablished`. -/
theorem connectEstablished_eq_ok (hp : l.poller.Wf) (h : l.connectEstablished c = .ok l') :
    (l.conn c).state = .kConnecting ∧ StateStep l l' c .kConnected .enableReading := by
  unfold connectEstablished at h
  rw [require_bind_eq_ok] at h
  exact ⟨h.1, stateStep_of_eq_ok hp h.2⟩

/-- Inversion of `connectDestroyed`. -/
theorem connectDestroyed_eq_ok (hp : l.poller.Wf) (h : l.connectDestroyed c = .ok l') :
    ((l.conn c).state = .kConnected ∨ (l.conn c).state = .kDisconnecting) ∧
      StateStep l l' c .kDisconnected .disableAll := by
  unfold connectDestroyed at h
  rw [require_bind_eq_ok] at h
  exact ⟨h.1, stateStep_of_eq_ok hp h.2⟩

/-- Inversion of the removal of the channel. -/
theorem removeChannel_eq_ok (hp : l.poller.Wf) (h : l.removeChannel c = .ok l') :
    Poller.Removed l.poller l'.poller (.conn c) ∧ l' = { l with poller := l'.poller } := by
  unfold removeChannel at h
  rw [bind_eq_ok] at h
  obtain ⟨p, hremove, hok⟩ := h
  cases hok
  exact ⟨hp.removeChannel_eq_ok hremove, rfl⟩

/-- The holder erases its entry in another thread, in a functor of its base loop. -/
def viaBase : Holder → Bool
  | .server sameLoop => !sameLoop
  | .client => false

/-- What a completed `handleClose` leaves behind. -/
structure CloseStep (l l' : IoLoop ι) (c : ι) : Prop where
  state : (l.conn c).state = .kConnected ∨ (l.conn c).state = .kDisconnecting
  interest : Poller.InterestSet l.poller l'.poller (.conn c) .disableAll
  held : viaBase (l.conn c).holder = false → (l.conn c).entry = .held
  others : ∀ c', c' ≠ c → l'.conn c' = l.conn c'
  self : l'.conn c = { l.conn c with
    closes := (l.conn c).closes + 1
    entry := if viaBase (l.conn c).holder then (l.conn c).entry else .erased }
  pendingFunctors : l'.pendingFunctors =
    l.pendingFunctors ++ if viaBase (l.conn c).holder then [] else [.connectDestroyed c]
  baseFunctors : l'.baseFunctors =
    l.baseFunctors ++ if viaBase (l.conn c).holder then [c] else []

/-- `dropEntry` asserts the entry, erases it and queues `connectDestroyed`. -/
theorem dropEntry_eq_ok {assertion : String} (h : l.dropEntry c assertion = .ok l') :
    (l.conn c).entry = .held ∧
      l' = (l.modifyConn c fun conn => { conn with entry := .erased }).queueInLoop
        (.connectDestroyed c) := by
  unfold dropEntry at h
  rw [require_bind_eq_ok] at h
  exact ⟨h.1, (Except.ok.inj h.2).symm⟩

/-- An entry that is there can be erased. -/
theorem dropEntry_of_held (assertion : String) (h : (l.conn c).entry = .held) :
    l.dropEntry c assertion =
      .ok ((l.modifyConn c fun conn => { conn with entry := .erased }).queueInLoop
        (.connectDestroyed c)) := by
  unfold dropEntry
  rw [require_of_true h]
  rfl

/-- `closeCallback_` either queues the removal in the base loop or drops the entry. -/
theorem closeCallback_eq (l : IoLoop ι) (c : ι) :
    ∃ assertion, l.closeCallback c =
      let l := l.modifyConn c fun conn => { conn with closes := conn.closes + 1 }
      if viaBase (l.conn c).holder then .ok { l with baseFunctors := l.baseFunctors ++ [c] }
      else l.dropEntry c assertion := by
  unfold closeCallback serverRemoveConnection removeConnectionInLoop clientRemoveConnection
  simp only [modifyConn_conn_self]
  cases (l.conn c).holder with
  | client => exact ⟨_, rfl⟩
  | server sameLoop =>
    cases sameLoop with
    | true => exact ⟨_, rfl⟩
    | false => exact ⟨"n == 1", rfl⟩

/-- Inversion of `handleClose`. -/
theorem handleClose_eq_ok (hp : l.poller.Wf) (h : l.handleClose c = .ok l') :
    CloseStep l l' c := by
  unfold handleClose at h
  rw [require_bind_eq_ok, bind_eq_ok] at h
  obtain ⟨hstate, l₁, hset, hclose⟩ := h
  obtain ⟨hinterest, heq⟩ := setInterest_eq_ok hp hset
  have hconn : l₁.conn = l.conn := by rw [heq]
  have hpending : l₁.pendingFunctors = l.pendingFunctors := by rw [heq]
  have hbase : l₁.baseFunctors = l.baseFunctors := by rw [heq]
  obtain ⟨assertion, hcallback⟩ := closeCallback_eq l₁ c
  rw [hcallback] at hclose
  simp only [modifyConn_conn_self, hconn] at hclose
  cases hvia : viaBase (l.conn c).holder with
  | true =>
    rw [hvia, if_pos rfl] at hclose
    cases hclose
    refine ⟨hstate, hinterest, fun hnot => ?_, fun c' hne => ?_, ?_, ?_, ?_⟩
    · rw [hvia] at hnot
      cases hnot
    · change (l₁.modifyConn c fun conn => { conn with closes := conn.closes + 1 }).conn c' = _
      rw [modifyConn_conn_of_ne l₁ hne, hconn]
    · change (l₁.modifyConn c fun conn => { conn with closes := conn.closes + 1 }).conn c = _
      rw [modifyConn_conn_self, hconn, hvia]
      rfl
    · rw [hvia]
      change l₁.pendingFunctors = _
      simp [hpending]
    · rw [hvia]
      change l₁.baseFunctors ++ [c] = _
      simp [hbase]
  | false =>
    rw [hvia, if_neg Bool.false_ne_true] at hclose
    obtain ⟨hheld, rfl⟩ := dropEntry_eq_ok hclose
    rw [modifyConn_conn_self, hconn] at hheld
    refine ⟨hstate, hinterest, fun _ => hheld, fun c' hne => ?_, ?_, ?_, ?_⟩
    · rw [queueInLoop_conn, modifyConn_conn_of_ne _ hne, modifyConn_conn_of_ne _ hne, hconn]
    · rw [queueInLoop_conn, modifyConn_conn_self, modifyConn_conn_self, hconn, hvia]
      rfl
    · rw [hvia]
      change l₁.pendingFunctors ++ [.connectDestroyed c] = _
      simp [hpending]
    · rw [hvia]
      change l₁.baseFunctors = _
      simp [hbase]

/-- `handleClose` of an open connection with a registered channel succeeds, provided
its entry is still there when its own thread is to erase it. -/
theorem exists_handleClose (hp : l.poller.Wf) (hc : l.poller.Registered (.conn c))
    (hstate : (l.conn c).state = .kConnected ∨ (l.conn c).state = .kDisconnecting)
    (hheld : viaBase (l.conn c).holder = false → (l.conn c).entry = .held) :
    ∃ l', l.handleClose c = .ok l' := by
  obtain ⟨l₁, hset⟩ := exists_setInterest hp hc .disableAll
  have hconn : l₁.conn = l.conn := by rw [(setInterest_eq_ok hp hset).2]
  obtain ⟨assertion, hcallback⟩ := closeCallback_eq l₁ c
  unfold handleClose
  rw [require_of_true hstate, hset]
  change ∃ l', l₁.closeCallback c = .ok l'
  rw [hcallback]
  simp only [modifyConn_conn_self, hconn]
  cases hvia : viaBase (l.conn c).holder with
  | true => exact ⟨_, rfl⟩
  | false =>
    rw [if_neg Bool.false_ne_true]
    refine ⟨_, dropEntry_of_held assertion ?_⟩
    rw [modifyConn_conn_self, hconn]
    exact hheld hvia

/-- The read that finds the end of the stream. -/
def endOfStream : ReadResult → Bool
  | .data [] => true
  | _ => false

/-- `handleRead` keeps what has arrived and closes at the end of the stream. -/
theorem handleRead_eq (l : IoLoop ι) (c : ι) (r : ReadResult)
    (hb : (l.conn c).inputBuffer.Wf) :
    ∃ input : Buffer, input.Wf ∧ l.handleRead c r =
      let l := l.modifyConn c fun conn => { conn with inputBuffer := input }
      if endOfStream r then l.handleClose c else .ok l := by
  obtain ⟨input, n, e, hread, hwf, hspec⟩ := hb.readFd 0 r
  refine ⟨input, hwf, ?_⟩
  unfold handleRead
  rw [hread]
  change (if 0 < n then _ else _) = _
  match r with
  | .failed errno =>
    obtain ⟨_, rfl, _⟩ := hspec
    rfl
  | .data [] =>
    obtain ⟨_, hn, _⟩ := hspec
    have hzero : n = 0 := by simpa using hn
    subst hzero
    rfl
  | .data (byte :: bytes) =>
    obtain ⟨_, hn, _⟩ := hspec
    have hpos : 0 < n := by
      rw [hn, List.length_take, List.length_cons]
      have : 0 < Buffer.extraSize := by decide
      omega
    rw [if_pos hpos]
    rfl

end IoLoop

end Dalin.Net
