import Dalin.Net.ByteQueue
import Dalin.Net.ConnectionLife

/-!
# Delivery of the input

The bytes that a `readv` has found pass through `inputBuffer_` to the message
callback, which takes as many of them out as it likes. The time that `Poller::poll`
returns passes through `EventLoop::loop` and `Channel::handleEvent` to
`TcpConnection::handleRead`, which does not hand it on: its third argument for
`messageCallback_` is the number of bytes, and converts to a `Timestamp`. This
file follows both through the runs of a loop.
-/

set_option autoImplicit false

namespace Dalin.Net

open Transition

/-- A call of `messageCallback_`: the readable bytes of the buffer that it is given, and the
microseconds of its `Timestamp`. -/
structure MessageCall where
  readable : List Byte
  timestamp : ℤ
  deriving DecidableEq

/-- How user code takes bytes out of a buffer. The argument of `retrieveUntil` is the distance of
its `end` from `peek()`. -/
inductive Retrieval
  | retrieve (len : ℕ)
  | retrieveUntil (distance : ℕ)
  | retrieveAll
  | retrieveAsString

namespace Buffer

variable {b b' : Buffer}

/-- The buffer after a retrieval. -/
def takeOut (b : Buffer) : Retrieval → Except Failure Buffer
  | .retrieve len => b.retrieve len
  | .retrieveUntil distance => b.retrieveUntil (b.peek + distance)
  | .retrieveAll => .ok b.retrieveAll
  | .retrieveAsString => .ok b.retrieveAsString.2

/-- How many bytes a retrieval takes out. -/
def amount (b : Buffer) : Retrieval → ℕ
  | .retrieve len => len
  | .retrieveUntil distance => distance
  | _ => b.readableBytes

/-- The bytes that `::readv` puts into the buffer and into `extraBuf`. -/
def bytesRead (b : Buffer) : ReadResult → List Byte
  | .failed _ => []
  | .data arrived => arrived.take (b.writableBytes + extraSize)

/-- Every retrieval of bytes that are there drops them from the front. -/
theorem Wf.takeOut (h : b.Wf) (hsize : kCheapPrepend ≤ b.buffer.length) {r : Retrieval}
    (hr : b.amount r ≤ b.readableBytes) :
    ∃ b', b.takeOut r = .ok b' ∧ b'.Wf ∧ kCheapPrepend ≤ b'.buffer.length ∧
      b'.readable = b.readable.drop (b.amount r) := by
  have hall : b.retrieveAll.Wf ∧ b.retrieveAll.readable = b.readable.drop b.readableBytes := by
    refine ⟨⟨Nat.le_refl _, hsize⟩, ?_⟩
    rw [readable_retrieveAll, ← h.length_readable, List.drop_length]
  cases r with
  | retrieve len =>
    obtain ⟨b', hok, hwf, hreadable⟩ := h.retrieve hr
    exact ⟨b', hok, hwf, hsize.trans (spares_retrieve hok).size_le, hreadable⟩
  | retrieveUntil distance =>
    have hstop : b.peek + distance ≤ b.beginWrite := by
      have hle := h.reader_le_writer
      change distance ≤ b.writerIndex - b.readerIndex at hr
      change b.readerIndex + distance ≤ b.writerIndex
      omega
    obtain ⟨b', hok, hwf, hreadable⟩ := h.retrieveUntil (Nat.le_add_right ..) hstop
    rw [Nat.add_sub_cancel_left] at hreadable
    exact ⟨b', hok, hwf, hsize.trans (spares_retrieveUntil hok).size_le, hreadable⟩
  | retrieveAll => exact ⟨b.retrieveAll, rfl, hall.1, hsize, hall.2⟩
  | retrieveAsString =>
    refine ⟨b.retrieveAll, ?_, hall.1, hsize, hall.2⟩
    change Except.ok b.retrieveAsString.2 = _
    rw [h.retrieveAsString]

/-- `readFd` does not shrink the storage. -/
theorem Wf.size_le_of_readFd (h : b.Wf) {savedErrno e : ℕ} {r : ReadResult} {n : ℤ}
    (hread : b.readFd savedErrno r = .ok (b', n, e)) : b.buffer.length ≤ b'.buffer.length := by
  cases r with
  | failed errno =>
    cases hread
    exact Nat.le_refl _
  | data arrived =>
    have hrw := h.reader_le_writer
    have hws := h.writer_le_size
    have hfits : b.writerIndex + ((arrived.take (b.writableBytes + extraSize)).take
        b.writableBytes).length ≤ b.buffer.length := by
      have hle := List.length_take_le b.writableBytes (arrived.take (b.writableBytes + extraSize))
      unfold writableBytes at hle ⊢
      omega
    simp only [Buffer.readFd] at hread
    split at hread
    · cases hread
      exact Nat.le_of_eq (Slice.length_overwrite hfits).symm
    · obtain ⟨b₁, happend, heq⟩ := bind_eq_ok.mp hread
      cases heq
      have hfull : Wf ⟨Slice.overwrite b.buffer b.writerIndex
          ((arrived.take (b.writableBytes + extraSize)).take b.writableBytes),
          b.readerIndex, b.buffer.length⟩ :=
        ⟨by show b.readerIndex ≤ b.buffer.length; omega,
          Nat.le_of_eq (Slice.length_overwrite hfits).symm⟩
      have hsize := (hfull.spares_append happend).size_le
      rwa [Slice.length_overwrite hfits] at hsize

end Buffer

/-- A read event that was handled. -/
structure ReadEvent (ι : Type) where
  c : ι
  /-- `n`, the result of `readFd`. -/
  n : ℤ
  /-- What `Poller::poll` returned last. -/
  pollReturnTime : ℤ
  /-- The argument of `handleRead`. -/
  receive : ℤ
  /-- The bytes that the connection had received then, those of this event included. -/
  received : List Byte
  /-- How many of them had been retrieved. -/
  retrieved : ℕ
  /-- `inputBuffer_` before and after. -/
  before : Buffer
  after : Buffer
  /-- The calls of `messageCallback_`. -/
  calls : List MessageCall

namespace ReadEvent

variable {ι : Type}

/-- The event passes the bytes on as it should, and the time up to `handleRead`. The `Timestamp`
of its call is the count of the bytes. -/
structure Received (e : ReadEvent ι) : Prop where
  calls : 0 < e.n → e.calls = [⟨e.received.drop e.retrieved, e.n⟩]
  failed : e.n = -1 → e.calls = [] ∧ e.after = e.before
  receive : e.receive = e.pollReturnTime

/-- The event passes the bytes and the time on to `messageCallback_`. -/
structure Delivered (e : ReadEvent ι) : Prop where
  calls : 0 < e.n → e.calls = [⟨e.received.drop e.retrieved, e.pollReturnTime⟩]
  failed : e.n = -1 → e.calls = [] ∧ e.after = e.before

/-- The time arrives where it happens to be the count. -/
theorem Received.delivered_iff {e : ReadEvent ι} (h : e.Received) :
    e.Delivered ↔ (0 < e.n → e.n = e.pollReturnTime) := by
  constructor
  · intro hdelivered hpos
    have hcalls := hdelivered.calls hpos
    rw [h.calls hpos] at hcalls
    exact (MessageCall.mk.inj (List.singleton_inj.mp hcalls)).2
  · intro htime
    refine ⟨fun hpos => ?_, h.failed⟩
    rw [h.calls hpos, ← htime hpos]

end ReadEvent

/-- A step of a loop, with the reading of the clock for `Poller::poll`, or a retrieval by user
code. -/
inductive InputAction (ι : Type)
  | step (a : LoopAction ι) (now : ℤ)
  | takeOut (c : ι) (r : Retrieval)

/-- A loop, with its times and with the histories of the input. -/
structure InputRun (ι : Type) where
  run : LoopRun ι
  /-- `pollReturnTime_`. -/
  pollReturnTime : ℤ
  /-- The argument of the last `Channel::handleEvent`. -/
  receiveTime : ℤ
  /-- The bytes that each connection has received. -/
  received : ι → List Byte
  /-- How many of them user code has retrieved. -/
  retrieved : ι → ℕ
  /-- The handled read events, oldest first. -/
  reads : List (ReadEvent ι)

variable {ι : Type} [DecidableEq ι]

/-- `TcpConnection::handleRead`, with `n` and the calls of `messageCallback_`. Its argument is not
used, and `n` becomes the `Timestamp`. -/
def IoLoop.handleReadAt (l : IoLoop ι) (c : ι) (_receive : ℤ) (r : ReadResult) :
    Except Failure (IoLoop ι × ℤ × List MessageCall) := do
  let (input, n, _) ← (l.conn c).inputBuffer.readFd 0 r
  let l := l.modifyConn c fun conn => { conn with inputBuffer := input }
  if 0 < n then return (l, n, [⟨input.readable, n⟩])
  else if n = 0 then do
    let l ← l.handleClose c
    return (l, n, [])
  else return (l.handleError c, n, [])

namespace IoLoop

variable {l l' : IoLoop ι} {c : ι}

/-- What `handleRead` does to the input and which calls it makes. -/
structure ReadStep (l l' : IoLoop ι) (c : ι) (r : ReadResult) (n : ℤ) (calls : List MessageCall) :
    Prop where
  readable : (l'.conn c).inputBuffer.readable =
    (l.conn c).inputBuffer.readable ++ (l.conn c).inputBuffer.bytesRead r
  size_le : (l.conn c).inputBuffer.buffer.length ≤ (l'.conn c).inputBuffer.buffer.length
  count : n = -1 ∧ (l.conn c).inputBuffer.bytesRead r = [] ∨
    n = ((l.conn c).inputBuffer.bytesRead r).length
  failed : n = -1 → (l'.conn c).inputBuffer = (l.conn c).inputBuffer
  calls : calls = if 0 < n then [⟨(l'.conn c).inputBuffer.readable, n⟩] else []

/-- The function with the calls does what the one without them does. -/
theorem handleReadAt_eq_ok {r : ReadResult} (hl : l.Wf) (receive : ℤ)
    (h : l.handleRead c r = .ok l') : ∃ n calls, l.handleReadAt c receive r = .ok (l', n, calls) ∧
      ReadStep l l' c r n calls := by
  obtain ⟨input, n, e, hread, hwf, hspec⟩ := (hl.buffers c).1.readFd 0 r
  have hsize := (hl.buffers c).1.size_le_of_readFd hread
  have hstep (hinput : (l'.conn c).inputBuffer = input) (calls : List MessageCall)
      (hcalls : calls = if 0 < n then [⟨input.readable, n⟩] else []) :
      ReadStep l l' c r n calls := by
    cases r with
    | failed errno =>
      obtain ⟨hsame, hn, _⟩ := hspec
      refine ⟨?_, hinput ▸ hsize, Or.inl ⟨hn, rfl⟩, fun _ => hinput.trans hsame, hinput ▸ hcalls⟩
      rw [hinput, hsame]
      exact (List.append_nil _).symm
    | data arrived =>
      obtain ⟨hreadable, hn, _⟩ := hspec
      refine ⟨hinput ▸ hreadable, hinput ▸ hsize, Or.inr hn, fun hfailed => ?_, hinput ▸ hcalls⟩
      omega
  unfold handleRead at h
  unfold handleReadAt
  rw [hread] at h ⊢
  change (if 0 < n then _ else _) = _ at h
  change ∃ n' calls, (if 0 < n then _ else _) = _ ∧ _
  by_cases hpos : 0 < n
  · rw [if_pos hpos] at h ⊢
    cases h
    refine ⟨n, _, rfl, hstep ?_ _ (if_pos hpos).symm⟩
    rw [modifyConn_conn_self]
  · rw [if_neg hpos] at h ⊢
    by_cases hzero : n = 0
    · rw [if_pos hzero] at h ⊢
      refine ⟨n, _, bind_eq_ok.mpr ⟨_, h, rfl⟩, hstep ?_ _ (if_neg hpos).symm⟩
      have hwf' : (l.modifyConn c fun conn => { conn with inputBuffer := input }).Wf :=
        hl.modifyConn ⟨hwf, (hl.buffers c).2⟩
      rw [(handleClose_eq_ok hwf'.poller h).self, modifyConn_conn_self]
    · rw [if_neg hzero] at h ⊢
      cases h
      refine ⟨n, _, rfl, hstep ?_ _ (if_neg hpos).symm⟩
      change ((l.modifyConn c _).conn c).inputBuffer = input
      rw [modifyConn_conn_self]

end IoLoop

namespace InputRun

/-- The read that a step makes. -/
def readBy : LoopAction ι → Phase ι → Option (ι × ReadResult)
  | .readCallback r, .handling c _ _ => some (c, r)
  | _, _ => none

/-- `pollReturnTime_` after a step. -/
def pollReturnTimeAfter (s : InputRun ι) (now : ℤ) : LoopAction ι → ℤ
  | .poll _ => now
  | .pollFailed => now
  | _ => s.pollReturnTime

/-- The argument of `Channel::handleEvent` after a step. -/
def receiveTimeAfter (s : InputRun ι) : LoopAction ι → ℤ
  | .handleEvent => s.pollReturnTime
  | _ => s.receiveTime

/-- A handled read event enters the histories. -/
def record (s : InputRun ι) (run : LoopRun ι) (c : ι) (r : ReadResult) (n : ℤ)
    (calls : List MessageCall) : InputRun ι :=
  let before := (s.run.loop.conn c).inputBuffer
  let received := s.received c ++ before.bytesRead r
  { s with
    run := run
    received := Function.update s.received c received
    reads := s.reads ++ [⟨c, n, s.pollReturnTime, s.receiveTime, received, s.retrieved c, before,
      (run.loop.conn c).inputBuffer, calls⟩] }

/-- A retrieval that leaves this buffer. -/
def took (s : InputRun ι) (c : ι) (r : Retrieval) (input : Buffer) : InputRun ι :=
  let before := (s.run.loop.conn c).inputBuffer
  let loop := s.run.loop.modifyConn c fun conn => { conn with inputBuffer := input }
  { s with
    run := ⟨loop, s.run.phase, s.run.userCode⟩
    retrieved := Function.update s.retrieved c (s.retrieved c + before.amount r) }

/-- Which steps may come next. User code retrieves bytes that are there. -/
def enabled (s : InputRun ι) : InputAction ι → Prop
  | .step a _ => (loopSystem ι).enabled s.run a
  | .takeOut c r => s.run.userCode = true ∧
    (s.run.loop.conn c).inputBuffer.amount r ≤ (s.run.loop.conn c).inputBuffer.readableBytes

instance (s : InputRun ι) (a : InputAction ι) : Decidable (s.enabled a) := by
  cases a <;> unfold enabled <;> infer_instance

/-- The effect of a step. -/
def exec (s : InputRun ι) : InputAction ι → Except Failure (InputRun ι)
  | .step a now => do
    let run ← (loopSystem ι).exec s.run a
    match readBy a s.run.phase with
    | some (c, r) => do
      let (_, n, calls) ← s.run.loop.handleReadAt c s.receiveTime r
      return s.record run c r n calls
    | none => return { s with
        run := run
        pollReturnTime := s.pollReturnTimeAfter now a
        receiveTime := s.receiveTimeAfter a }
  | .takeOut c r => do
    let input ← (s.run.loop.conn c).inputBuffer.takeOut r
    return s.took c r input

end InputRun

/-- All runs of a loop whose user code retrieves input. -/
def inputSystem (ι : Type) [DecidableEq ι] : System (InputRun ι) (InputAction ι) Failure where
  init s := (loopSystem ι).init s.run ∧ s.received = (fun _ => []) ∧ s.retrieved = (fun _ => 0) ∧
    s.reads = []
  enabled := InputRun.enabled
  exec := InputRun.exec

instance (s : InputRun ι) (a : InputAction ι) : Decidable ((inputSystem ι).enabled s a) :=
  inferInstanceAs (Decidable (s.enabled a))

namespace InputRun

variable {s s' : InputRun ι}

/-- Only a read changes the input buffer of a connection. -/
theorem inputBuffer_of_not_read {t u : LoopRun ι} {a : LoopAction ι} (h : t.loop.Wf)
    (henabled : (loopSystem ι).enabled t a) (hexec : (loopSystem ι).exec t a = .ok u) {c : ι}
    (hnot : ∀ r, readBy a t.phase ≠ some (c, r)) :
    (u.loop.conn c).inputBuffer = (t.loop.conn c).inputBuffer := by
  have hnone {r : ReadResult} {rest : List Callback} (ha : a = .readCallback r)
      (hactivity : (t.view c).activity = .handling (.read :: rest)) : False := by
    obtain ⟨active, hphase⟩ := LoopRun.phase_of_handling hactivity
    refine hnot r ?_
    rw [ha, hphase]
    rfl
  have hview := (LoopRun.views_step h henabled hexec).2 c
  change (u.view c).conn.inputBuffer = (t.view c).conn.inputBuffer
  generalize u.view c = v' at hview
  cases hview with
  | readClose hactivity => exact (hnone rfl hactivity).elim
  | read hactivity => exact (hnone rfl hactivity).elim
  | sendInLoop => simp
  | send =>
    rw [ConnectionView.send_conn]
    rfl
  | write => simp
  | _ => rfl

omit [DecidableEq ι] in
/-- A read is the step `readCallback` of the handled connection. -/
theorem readBy_eq_some {a : LoopAction ι} {φ : Phase ι} {c : ι} {r : ReadResult}
    (h : readBy a φ = some (c, r)) :
    a = .readCallback r ∧ ∃ cbs active, φ = .handling c cbs active := by
  unfold readBy at h
  split at h
  · cases h
    exact ⟨rfl, _, _, rfl⟩
  · cases h

/-- A handled read event of a run. -/
theorem exists_record (h : s.run.loop.Wf) {a : LoopAction ι} {now : ℤ} {c : ι} {r : ReadResult}
    (henabled : (loopSystem ι).enabled s.run a) (hread : readBy a s.run.phase = some (c, r))
    (hexec : s.exec (.step a now) = .ok s') : ∃ run n calls,
      (loopSystem ι).exec s.run a = .ok run ∧ s' = s.record run c r n calls ∧
        s.run.loop.ReadStep run.loop c r n calls := by
  obtain ⟨run, hrun, hrest⟩ := bind_eq_ok.mp hexec
  simp only [hread] at hrest
  obtain ⟨⟨l, n, calls⟩, hcalls, heq⟩ := bind_eq_ok.mp hrest
  refine ⟨run, n, calls, hrun, (Except.ok.inj heq).symm, ?_⟩
  obtain ⟨rfl, cbs, active, hphase⟩ := readBy_eq_some hread
  obtain ⟨c', rest, active', hphase'⟩ := LoopRun.phase_of_callback henabled rfl
  obtain ⟨rfl, -, -⟩ := Phase.handling.inj (hphase.symm.trans hphase')
  change LoopRun.exec ⟨s.run.loop, s.run.phase, s.run.userCode⟩ (.readCallback r) = _ at hrun
  rw [hphase'] at hrun
  obtain ⟨l', hhandle, hrun⟩ := bind_eq_ok.mp hrun
  cases hrun
  obtain ⟨n', calls', hcalls', hstep⟩ := IoLoop.handleReadAt_eq_ok h s.receiveTime hhandle
  rw [hcalls'] at hcalls
  obtain ⟨-, rfl, rfl⟩ := Prod.mk.inj (Except.ok.inj hcalls) |>.imp id Prod.mk.inj
  exact hstep

omit [DecidableEq ι] in
/-- The thread handles a channel only after `handleEvent`. -/
theorem handling_of_step {v v' : ConnectionView ι} {c : ι} {a : LoopAction ι}
    {callbacks : List Callback} (h : ConnectionView.Step c v a v')
    (hactivity : v'.activity = .handling callbacks) :
    a = .handleEvent ∨ ∃ callbacks', v.activity = .handling callbacks' := by
  cases h with
  | stutter => exact Or.inr ⟨_, hactivity⟩
  | handleEvent => exact Or.inl rfl
  | closeCallback hwas | errorCallback hwas | readClose hwas | read hwas | writeIdle hwas
  | write hwas => exact Or.inr ⟨_, hwas⟩
  | send =>
    rw [(ConnectionView.send_rest ..).2.2.2] at hactivity
    exact Or.inr ⟨_, hactivity⟩
  | sendInLoop hwas =>
    change (ConnectionView.send ..).activity = _ at hactivity
    rw [(ConnectionView.send_rest ..).2.2.2, hwas] at hactivity
    cases hactivity
  | handled | connectDestroyed | removeChannel => cases hactivity
  | _ => exact Or.inr ⟨_, hactivity⟩

/-- What a run keeps of the input. -/
structure Kept (s : InputRun ι) : Prop where
  wf : s.run.loop.Wf
  stored : ∀ c, Buffer.kCheapPrepend ≤ (s.run.loop.conn c).inputBuffer.buffer.length
  retrieved_le : ∀ c, s.retrieved c ≤ (s.received c).length
  readable : ∀ c, (s.run.loop.conn c).inputBuffer.readable = (s.received c).drop (s.retrieved c)
  receiveTime : ∀ c callbacks, (s.run.view c).activity = .handling callbacks →
    s.receiveTime = s.pollReturnTime
  reads : ∀ e ∈ s.reads, e.Received

/-- It holds when the run begins. -/
theorem Kept.of_init (h : (inputSystem ι).init s) : s.Kept := by
  obtain ⟨hinit, hreceived, hretrieved, hreads⟩ := h
  obtain ⟨hwf, hnew⟩ := LoopRun.views_init hinit
  have hinput (c : ι) : (s.run.loop.conn c).inputBuffer = .new := by
    change (s.run.view c).conn.inputBuffer = _
    rw [(hnew c).conn]
    rfl
  refine ⟨hwf, fun c => ?_, fun c => ?_, fun c => ?_, fun c callbacks hactivity => ?_, ?_⟩
  · rw [hinput c]
    simp [Buffer.new]
  · rw [hretrieved]
    exact Nat.zero_le _
  · rw [hinput c, hreceived, Buffer.readable_new, List.drop_nil]
  · rw [(hnew c).activity] at hactivity
    cases hactivity
  · rw [hreads]
    exact fun e he => absurd he List.not_mem_nil

/-- A read adds its bytes to those that are there. -/
theorem Kept.record (h : s.Kept) {run : LoopRun ι} {a : LoopAction ι} {c : ι} {r : ReadResult}
    {n : ℤ} {calls : List MessageCall} (henabled : (loopSystem ι).enabled s.run a)
    (hread : readBy a s.run.phase = some (c, r)) (hexec : (loopSystem ι).exec s.run a = .ok run)
    (hstep : s.run.loop.ReadStep run.loop c r n calls) : (s.record run c r n calls).Kept := by
  obtain ⟨hwf, hviews⟩ := LoopRun.views_step h.wf henabled hexec
  have hothers (c' : ι) (hne : c' ≠ c) :
      (run.loop.conn c').inputBuffer = (s.run.loop.conn c').inputBuffer := by
    refine inputBuffer_of_not_read h.wf henabled hexec fun r' hr' => hne ?_
    exact (Prod.mk.inj (Option.some.inj (hr'.symm.trans hread))).1
  have hreadable : (run.loop.conn c).inputBuffer.readable =
      (s.received c ++ (s.run.loop.conn c).inputBuffer.bytesRead r).drop (s.retrieved c) := by
    rw [hstep.readable, h.readable c, List.drop_append_of_le_length (h.retrieved_le c)]
  refine ⟨hwf, fun c' => ?_, fun c' => ?_, fun c' => ?_, fun c' callbacks hactivity => ?_, ?_⟩
  · change Buffer.kCheapPrepend ≤ (run.loop.conn c').inputBuffer.buffer.length
    by_cases hne : c' = c
    · exact hne ▸ (h.stored c).trans hstep.size_le
    · rw [hothers c' hne]
      exact h.stored c'
  · change s.retrieved c' ≤ (Function.update s.received c _ c').length
    by_cases hne : c' = c
    · rw [hne, Function.update_self, List.length_append]
      exact (h.retrieved_le c).trans (Nat.le_add_right ..)
    · rw [Function.update_of_ne hne]
      exact h.retrieved_le c'
  · change (run.loop.conn c').inputBuffer.readable = (Function.update s.received c _ c').drop _
    by_cases hne : c' = c
    · rw [hne, Function.update_self]
      exact hreadable
    · rw [Function.update_of_ne hne, hothers c' hne]
      exact h.readable c'
  · change s.receiveTime = s.pollReturnTime
    obtain ⟨rfl, -⟩ := readBy_eq_some hread
    rcases handling_of_step (hviews c') hactivity with heq | ⟨callbacks', hwas⟩
    · cases heq
    · exact h.receiveTime c' callbacks' hwas
  · intro e he
    rcases List.mem_append.mp he with hold | hnew
    · exact h.reads e hold
    · cases List.mem_singleton.mp hnew
      obtain ⟨rfl, callbacks, active, hphase⟩ := readBy_eq_some hread
      refine ⟨fun hpos => ?_, fun hfailed => ⟨?_, hstep.failed hfailed⟩, ?_⟩
      · rw [hstep.calls, if_pos hpos, hreadable]
      · replace hfailed : n = -1 := hfailed
        rw [hstep.calls, if_neg (by omega)]
      · refine h.receiveTime c callbacks ?_
        change s.run.phase.activity c = _
        rw [hphase]
        exact LoopRun.activity_handling c callbacks active

/-- A step without a read leaves the input alone. -/
theorem Kept.other (h : s.Kept) {run : LoopRun ι} {a : LoopAction ι} (now : ℤ)
    (henabled : (loopSystem ι).enabled s.run a) (hread : readBy a s.run.phase = none)
    (hexec : (loopSystem ι).exec s.run a = .ok run) : Kept { s with
      run := run
      pollReturnTime := s.pollReturnTimeAfter now a
      receiveTime := s.receiveTimeAfter a } := by
  obtain ⟨hwf, hviews⟩ := LoopRun.views_step h.wf henabled hexec
  have hinput (c : ι) : (run.loop.conn c).inputBuffer = (s.run.loop.conn c).inputBuffer :=
    inputBuffer_of_not_read h.wf henabled hexec fun r hr => by
      rw [hread] at hr
      cases hr
  refine ⟨hwf, fun c => ?_, h.retrieved_le, fun c => ?_, fun c callbacks hactivity => ?_, h.reads⟩
  · change Buffer.kCheapPrepend ≤ (run.loop.conn c).inputBuffer.buffer.length
    rw [hinput c]
    exact h.stored c
  · change (run.loop.conn c).inputBuffer.readable = _
    rw [hinput c]
    exact h.readable c
  · change s.receiveTimeAfter a = s.pollReturnTimeAfter now a
    rcases handling_of_step (hviews c) hactivity with rfl | ⟨callbacks', hwas⟩
    · rfl
    · have htime := h.receiveTime c callbacks' hwas
      obtain ⟨active, hphase⟩ := LoopRun.phase_of_handling hwas
      change LoopRun.enabledIn s.run.loop s.run.userCode a s.run.phase at henabled
      rw [hphase] at henabled
      cases a with
      | poll | pollFailed | handleEvent => exact henabled.elim
      | _ => exact htime

/-- A retrieval drops the first bytes that are there. -/
theorem Kept.took (h : s.Kept) {c : ι} {r : Retrieval} {input : Buffer}
    (hr : (s.run.loop.conn c).inputBuffer.amount r ≤
      (s.run.loop.conn c).inputBuffer.readableBytes)
    (hok : (s.run.loop.conn c).inputBuffer.takeOut r = .ok input) : (s.took c r input).Kept := by
  have hbuffer := (h.wf.buffers c).1
  obtain ⟨b, hb, hwf, hsize, hreadable⟩ := hbuffer.takeOut (h.stored c) hr
  cases hb.symm.trans hok
  have hlength := hbuffer.length_readable
  rw [h.readable c, List.length_drop] at hlength
  have hle := h.retrieved_le c
  have hloop : (s.took c r input).run.loop =
      s.run.loop.modifyConn c fun conn => { conn with inputBuffer := input } := rfl
  have hself : ((s.took c r input).run.loop.conn c).inputBuffer = input := by
    rw [hloop, IoLoop.modifyConn_conn_self]
  have hothers (c' : ι) (hne : c' ≠ c) :
      (s.took c r input).run.loop.conn c' = s.run.loop.conn c' := by
    rw [hloop, IoLoop.modifyConn_conn_of_ne _ hne]
  refine ⟨?_, fun c' => ?_, fun c' => ?_, fun c' => ?_,
    fun c' callbacks hactivity => h.receiveTime c' callbacks hactivity, h.reads⟩
  · rw [hloop]
    exact h.wf.modifyConn ⟨hwf, (h.wf.buffers c).2⟩
  · by_cases hne : c' = c
    · rw [hne, hself]
      exact hsize
    · rw [hothers c' hne]
      exact h.stored c'
  · change Function.update s.retrieved c _ c' ≤ (s.received c').length
    by_cases hne : c' = c
    · rw [hne, Function.update_self]
      omega
    · rw [Function.update_of_ne hne]
      exact h.retrieved_le c'
  · change _ = (s.received c').drop (Function.update s.retrieved c _ c')
    by_cases hne : c' = c
    · rw [hne, hself, Function.update_self, ← List.drop_drop, ← h.readable c]
      exact hreadable
    · rw [hothers c' hne, Function.update_of_ne hne]
      exact h.readable c'

/-- Every step keeps it. -/
theorem Kept.step (h : s.Kept) {a : InputAction ι} (henabled : (inputSystem ι).enabled s a)
    (hexec : (inputSystem ι).exec s a = .ok s') : s'.Kept := by
  cases a with
  | takeOut c r =>
    obtain ⟨input, hok, heq⟩ := bind_eq_ok.mp hexec
    cases heq
    exact h.took henabled.2 hok
  | step a now =>
    cases hread : readBy a s.run.phase with
    | some read =>
      obtain ⟨run, n, calls, hrun, rfl, hstep⟩ := exists_record h.wf henabled hread hexec
      exact h.record henabled hread hrun hstep
    | none =>
      obtain ⟨run, hrun, hrest⟩ := bind_eq_ok.mp hexec
      simp only [hread] at hrest
      cases hrest
      exact h.other now henabled hread hrun

/-- Every read event so far has passed the bytes and the time on. -/
def Delivered (s : InputRun ι) : Prop := ∀ e ∈ s.reads, e.Delivered

/-- A read that finds bytes finds as many of them as `pollReturnTime_` has microseconds. -/
def CountIsTime (s : InputRun ι) : InputAction ι → Prop
  | .step a _ =>
    match readBy a s.run.phase with
    | some (c, r) =>
      let bytes := (s.run.loop.conn c).inputBuffer.bytesRead r
      bytes ≠ [] → (bytes.length : ℤ) = s.pollReturnTime
    | none => True
  | .takeOut _ _ => True

omit [DecidableEq ι] in
/-- The condition for a read. -/
theorem countIsTime_iff {a : LoopAction ι} {now : ℤ} {c : ι} {r : ReadResult}
    (hread : readBy a s.run.phase = some (c, r)) : s.CountIsTime (.step a now) ↔
      ((s.run.loop.conn c).inputBuffer.bytesRead r ≠ [] →
        (((s.run.loop.conn c).inputBuffer.bytesRead r).length : ℤ) = s.pollReturnTime) := by
  simp only [CountIsTime, hread]

omit [DecidableEq ι] in
instance (s : InputRun ι) (a : InputAction ι) : Decidable (s.CountIsTime a) := by
  unfold CountIsTime
  split
  · split <;> infer_instance
  · infer_instance

instance (s : InputRun ι) (a : InputAction ι) :
    Decidable (((inputSystem ι).restrict CountIsTime).enabled s a) :=
  inferInstanceAs (Decidable ((inputSystem ι).enabled s a ∧ s.CountIsTime a))

/-- A step passes the time on exactly if it meets this condition. -/
theorem Kept.delivered_step (h : s.Kept) {a : InputAction ι}
    (henabled : (inputSystem ι).enabled s a) (hexec : (inputSystem ι).exec s a = .ok s')
    (hdelivered : s.Delivered) : s'.Delivered ↔ s.CountIsTime a := by
  have hkept := h.step henabled hexec
  cases a with
  | takeOut c r =>
    obtain ⟨input, hok, heq⟩ := bind_eq_ok.mp hexec
    cases heq
    exact iff_of_true hdelivered trivial
  | step a now =>
    cases hread : readBy a s.run.phase with
    | none =>
      obtain ⟨run, hrun, hrest⟩ := bind_eq_ok.mp hexec
      simp only [hread] at hrest
      cases hrest
      refine iff_of_true hdelivered ?_
      unfold CountIsTime
      simp only [hread]
    | some read =>
      obtain ⟨c, r⟩ := read
      obtain ⟨run, n, calls, hrun, rfl, hstep⟩ := exists_record h.wf henabled hread hexec
      have hlast := List.mem_append_right s.reads (List.mem_singleton_self
        (ReadEvent.mk c n s.pollReturnTime s.receiveTime
          (s.received c ++ (s.run.loop.conn c).inputBuffer.bytesRead r) (s.retrieved c)
          (s.run.loop.conn c).inputBuffer (run.loop.conn c).inputBuffer calls))
      have hpos : 0 < n ↔ (s.run.loop.conn c).inputBuffer.bytesRead r ≠ [] := by
        rw [← List.length_pos_iff]
        rcases hstep.count with ⟨hn, hnone⟩ | hn
        · rw [hn, hnone]
          exact iff_of_false (by omega) (Nat.lt_irrefl 0)
        · omega
      have hcount (hn : 0 < n) :
          n = ((s.run.loop.conn c).inputBuffer.bytesRead r).length := by
        rcases hstep.count with ⟨hfailed, -⟩ | hcount
        · omega
        · exact hcount
      have htime : (0 < n → n = s.pollReturnTime) ↔ s.CountIsTime (.step a now) := by
        rw [countIsTime_iff hread]
        constructor
        · intro htime hne
          rw [← hcount (hpos.mpr hne)]
          exact htime (hpos.mpr hne)
        · intro hG hn
          rw [hcount hn]
          exact hG (hpos.mp hn)
      constructor
      · intro hall
        exact htime.mp ((hkept.reads _ hlast).delivered_iff.mp (hall _ hlast))
      · intro hG e he
        rcases List.mem_append.mp he with hold | hnew
        · exact hdelivered e hold
        · cases List.mem_singleton.mp hnew
          exact (hkept.reads _ hlast).delivered_iff.mpr (htime.mpr hG)

end InputRun

/-- **Input delivery.** In every run every read event passes its bytes on as it should: one call
with a positive count, whose readable bytes are those received less those retrieved, and no call
and no change with a failed read. The time arrives at `handleRead`; it arrives in the callbacks
throughout exactly if every count happens to be the time. -/
theorem input_delivered_iff {s t : InputRun ι} {as : List (InputAction ι)}
    (hinit : (inputSystem ι).init s) (hrun : (inputSystem ι).Run s as t) :
    (∀ e ∈ t.reads, e.Received) ∧
      ((inputSystem ι).Always InputRun.Delivered s as ↔
        (inputSystem ι).Throughout InputRun.CountIsTime s as) := by
  have hkept := hrun.invariant (InputRun.Kept.of_init hinit)
    fun h henabled hexec => h.step henabled hexec
  refine ⟨hkept.reads, hrun.always_iff_throughout (InputRun.Kept.of_init hinit) ?_
    (fun h henabled hexec => h.step henabled hexec)
    fun h hP henabled hexec => h.delivered_step henabled hexec hP⟩
  intro e he
  rw [hinit.2.2.2] at he
  cases he

/-- One byte that arrives when the clock shows five microseconds. -/
def lateByte : List (InputAction Unit) :=
  [.step (.newConnection ()) 0, .step (.poll [0x001]) 5, .step .handleEvent 0,
    .step (.readCallback (.data [7])) 0]

/-- A run before its first step. -/
def beforeInput : InputRun Unit :=
  ⟨⟨oneConnection, .polling, true⟩, 0, 0, fun _ => [], fun _ => 0, []⟩

/-- The callback is given the time of one microsecond. -/
theorem input_delivered_lateByte : ∃ s t : InputRun Unit, ∃ as, (inputSystem Unit).init s ∧
    (inputSystem Unit).Run s as t ∧ ∃ e ∈ t.reads, e.n = 1 ∧ e.pollReturnTime = 5 ∧
      e.calls = [⟨[7], 1⟩] ∧ ¬e.Delivered := by
  have hcheck : ((inputSystem Unit).replay beforeInput lateByte).any (fun t =>
      t.reads.any fun e => decide (e.n = 1 ∧ e.pollReturnTime = 5 ∧ e.calls = [⟨[7], 1⟩])) =
        true := by decide +kernel
  obtain ⟨t, hrun, ht⟩ := System.exists_run_of_replay hcheck
  obtain ⟨e, he, hchecked⟩ := List.any_eq_true.mp ht
  obtain ⟨hn, htime, hcalls⟩ := of_decide_eq_true hchecked
  refine ⟨beforeInput, t, lateByte, ⟨⟨oneConnection_fresh, rfl, rfl⟩, rfl, rfl, rfl⟩, hrun, e, he,
    hn, htime, hcalls, fun hdelivered => ?_⟩
  have hcalls' := hdelivered.calls (by omega)
  rw [hcalls, htime] at hcalls'
  cases (MessageCall.mk.inj (List.singleton_inj.mp hcalls')).2

/-- Two chunks, each of as many bytes as the clock shows microseconds, and a retrieval between
them. -/
def timelyBytes : List (InputAction Unit) :=
  [.step (.newConnection ()) 0, .step (.poll [0x001]) 2, .step .handleEvent 0,
    .step (.readCallback (.data [7, 8])) 0, .takeOut () (.retrieve 1), .step .handled 0,
    .step .doPendingFunctors 0, .step .batchDone 0, .step (.poll [0x001]) 3,
    .step .handleEvent 0, .step (.readCallback (.data [9, 10, 11])) 0]

/-- The delivery in that run. -/
theorem input_delivered_timelyBytes : ∃ t, (inputSystem Unit).Run beforeInput timelyBytes t ∧
    (∃ e ∈ t.reads, e.Received ∧ e.calls = [⟨[8, 9, 10, 11], 3⟩]) ∧
      (inputSystem Unit).Always InputRun.Delivered beforeInput timelyBytes := by
  have hcheck : (((inputSystem Unit).restrict InputRun.CountIsTime).replay beforeInput
      timelyBytes).any (fun t =>
        t.reads.any fun e => decide (e.calls = [⟨[8, 9, 10, 11], 3⟩])) = true := by
    decide +kernel
  obtain ⟨t, hrestricted, ht⟩ := System.exists_run_of_replay hcheck
  obtain ⟨hrun, hthroughout⟩ := hrestricted.throughout_of_restrict
  obtain ⟨e, he, hcalls⟩ := List.any_eq_true.mp ht
  obtain ⟨hreceived, hiff⟩ := input_delivered_iff (s := beforeInput)
    ⟨⟨oneConnection_fresh, rfl, rfl⟩, rfl, rfl, rfl⟩ hrun
  exact ⟨t, hrun, ⟨e, he, hreceived e he, of_decide_eq_true hcalls⟩, hiff.mpr hthroughout⟩

end Dalin.Net
