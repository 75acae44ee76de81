import Dalin.Net.PollerInterest
import Dalin.Net.TcpConnectionSteps

/-!
# The output stream of a connection

`sendInLoop` writes directly when nothing is queued and buffers otherwise, and
`handleWrite` drains the buffer. Whatever the results of `::write`, the bytes
the kernel has accepted, followed by the readable bytes of the output buffer,
are the messages given to `sendInLoop` in call order; and the notification of a
finished write is queued by the right steps.
-/

set_option autoImplicit false

namespace Dalin.Net

open Transition

variable {ι : Type} [DecidableEq ι]

/-- A loop as it is built: no registered channels, new connections, empty queues. -/
structure IoLoop.Fresh (l : IoLoop ι) : Prop where
  poller : l.poller.Fresh
  conn : ∀ c, l.conn c = .new (l.conn c).writeCompleteCallback (l.conn c).holder
  pendingFunctors : l.pendingFunctors = []
  baseFunctors : l.baseFunctors = []

/-- A call of a member function of a connection. -/
inductive OutputOp (ι : Type)
  | connectEstablished (c : ι)
  | sendInLoop (c : ι) (message : List Byte) (r : WriteResult)
  | handleWrite (c : ι) (r : WriteResult)
  | handleRead (c : ι) (r : ReadResult)
  | handleClose (c : ι)
  | shutdown (c : ι) (inLoop : Bool)
  | shutdownInLoop (c : ι)

/-- The connection of a call. -/
def OutputOp.target : OutputOp ι → ι
  | connectEstablished c | sendInLoop c _ _ | handleWrite c _ | handleRead c _ | handleClose c
  | shutdown c _ | shutdownInLoop c => c

/-- A call starts the life of its connection. -/
def OutputOp.establishes : OutputOp ι → Bool
  | connectEstablished _ => true
  | _ => false

/-- Calls on established connections in any order, up to `connectDestroyed`. -/
def outputSystem (ι : Type) [DecidableEq ι] : System (IoLoop ι) (OutputOp ι) Failure where
  init := IoLoop.Fresh
  enabled l op := op.establishes = true ↔ (l.conn op.target).state = .kConnecting
  exec
    | l, .connectEstablished c => l.connectEstablished c
    | l, .sendInLoop c message r => l.sendInLoop c message r
    | l, .handleWrite c r => l.handleWrite c r
    | l, .handleRead c r => l.handleRead c r
    | l, .handleClose c => l.handleClose c
    | l, .shutdown c inLoop => .ok (l.shutdown inLoop c)
    | l, .shutdownInLoop c => .ok (l.shutdownInLoop c)

instance (l : IoLoop ι) (op : OutputOp ι) : Decidable ((outputSystem ι).enabled l op) :=
  inferInstanceAs (Decidable (_ ↔ _))

/-- The message that a call gives to `sendInLoop` of a connection. -/
def OutputOp.message (c : ι) : OutputOp ι → List Byte
  | .sendInLoop c' message _ => if c' = c then message else []
  | _ => []

/-- All messages given to `sendInLoop` of a connection, in call order. -/
def given (c : ι) (ops : List (OutputOp ι)) : List Byte := ops.flatMap (OutputOp.message c)

/-- A `::write` among these calls did not fail. -/
def wrote (calls : List SocketCall) : Bool :=
  calls.any fun
    | .write _ returned => decide (0 ≤ returned)
    | .shutdownWrite => false

/-- The calls that a step made on the socket of a connection. -/
def newCalls (l l' : IoLoop ι) (c : ι) : List SocketCall :=
  (l'.conn c).socketCalls.drop (l.conn c).socketCalls.length

/-- A step whose `::write` does not fail and leaves everything given accepted. -/
def Finishes (l l' : IoLoop ι) (c : ι) (given : List Byte) : Prop :=
  wrote (newCalls l l' c) = true ∧ (l'.conn c).accepted = given

instance (l l' : IoLoop ι) (c : ι) (given : List Byte) : Decidable (Finishes l l' c given) :=
  inferInstanceAs (Decidable (_ ∧ _))

/-- The output of a connection to which these bytes were given. -/
structure Intact (l : IoLoop ι) (c : ι) (given : List Byte) : Prop where
  stream : (l.conn c).accepted ++ (l.conn c).outputBuffer.readable = given
  readable_of_writing : l.isWriting c = true → (l.conn c).outputBuffer.readable ≠ []
  writing_of_readable : (l.conn c).closes = 0 → (l.conn c).outputBuffer.readable ≠ [] →
    l.isWriting c = true

/-- A step as one connection sees it: which bytes the step gives to it, and when the
step queues its notification. -/
structure Progress (l l' : IoLoop ι) (c : ι) (message : List Byte) : Prop where
  buffers : (l.conn c).inputBuffer.Wf ∧ (l.conn c).outputBuffer.Wf →
    (l'.conn c).inputBuffer.Wf ∧ (l'.conn c).outputBuffer.Wf
  intact : ∀ g, Intact l c g → Intact l' c (g ++ message)
  notified : ∀ g, Intact l c g → (l.conn c).writeCompleteCallback = true →
    l'.pendingFunctors.count (.writeComplete c) = l.pendingFunctors.count (.writeComplete c) +
      if Finishes l l' c (g ++ message) then 1 else 0

omit [DecidableEq ι] in
/-- The new calls of a step that only adds calls. -/
theorem newCalls_of_append {l l' : IoLoop ι} {c : ι} {calls : List SocketCall}
    (h : (l'.conn c).socketCalls = (l.conn c).socketCalls ++ calls) : newCalls l l' c = calls := by
  rw [newCalls, h, List.drop_left]

omit [DecidableEq ι] in
/-- The bytes accepted after a step that only adds calls. -/
theorem accepted_of_append {l l' : IoLoop ι} {c : ι} {calls : List SocketCall}
    (h : (l'.conn c).socketCalls = (l.conn c).socketCalls ++ calls) :
    (l'.conn c).accepted = (l.conn c).accepted ++ calls.flatMap SocketCall.accepted := by
  unfold TcpConnection.accepted
  rw [h, List.flatMap_append]

/-- A step that leaves the output of a connection alone, whatever else it does: it
may shut the socket down, and close the connection. -/
theorem Progress.of_quiet {l l' : IoLoop ι} {c : ι} (calls : List SocketCall)
    (hinput : (l.conn c).inputBuffer.Wf → (l'.conn c).inputBuffer.Wf)
    (houtput : (l'.conn c).outputBuffer = (l.conn c).outputBuffer)
    (hcalls : (l'.conn c).socketCalls = (l.conn c).socketCalls ++ calls)
    (hshut : ∀ call ∈ calls, call = .shutdownWrite)
    (hwriting : l'.isWriting c = true → l.isWriting c = true)
    (hopen : (l'.conn c).closes = 0 → (l.conn c).closes = 0 ∧ l'.isWriting c = l.isWriting c)
    (hcount : l'.pendingFunctors.count (.writeComplete c) =
      l.pendingFunctors.count (.writeComplete c)) : Progress l l' c [] := by
  have hnone : calls.flatMap SocketCall.accepted = [] := by
    rw [List.flatMap_eq_nil_iff]
    intro call hcall
    rw [hshut call hcall]
    rfl
  have hnotwrote : wrote calls = false := by
    rw [wrote, List.any_eq_false]
    intro call hcall
    rw [hshut call hcall]
    exact Bool.false_ne_true
  have haccepted : (l'.conn c).accepted = (l.conn c).accepted := by
    rw [accepted_of_append hcalls, hnone, List.append_nil]
  refine ⟨fun hb => ⟨hinput hb.1, houtput ▸ hb.2⟩, fun g h => ⟨?_, fun hw => ?_, fun hzero => ?_⟩,
    fun g _ _ => ?_⟩
  · rw [haccepted, houtput, h.stream, List.append_nil]
  · rw [houtput]
    exact h.readable_of_writing (hwriting hw)
  · rw [houtput, (hopen hzero).2]
    exact h.writing_of_readable (hopen hzero).1
  · have hnot : ¬Finishes l l' c (g ++ []) := by
      rintro ⟨hwrote, _⟩
      rw [newCalls_of_append hcalls, hnotwrote] at hwrote
      cases hwrote
    rw [if_neg hnot, hcount, Nat.add_zero]

/-- The notification queued by a step of the frame `OutputStep`. -/
theorem IoLoop.OutputStep.count {l l' : IoLoop ι} {c : ι} {calls : List SocketCall}
    {complete : Bool} (h : l.OutputStep l' c calls complete)
    (hset : (l.conn c).writeCompleteCallback = true) :
    l'.pendingFunctors.count (.writeComplete c) = l.pendingFunctors.count (.writeComplete c) +
      if complete = true then 1 else 0 := by
  rw [h.pendingFunctors, notifications, hset, Bool.and_true, List.count_append]
  cases complete with
  | true => rw [if_pos rfl, if_pos rfl, List.count_singleton_self]
  | false => rfl

/-- A completed `sendInLoop` adds its message to the stream. -/
theorem IoLoop.SendStep.progress {l l' : IoLoop ι} {c : ι} {message : List Byte}
    {r : WriteResult} (h : l.SendStep l' c message r) (hb : (l.conn c).outputBuffer.Wf) :
    Progress l l' c message := by
  have haccepted := accepted_of_append h.socketCalls
  have hcloses : (l'.conn c).closes = (l.conn c).closes := by rw [h.self]
  have hinput : (l'.conn c).inputBuffer = (l.conn c).inputBuffer := by rw [h.self]
  have hle := r.returned_le message.length
  have hzero := hb.readableBytes_eq_zero_iff
  -- After the call the interest is there exactly if something is left or it was there before.
  have hwriting : l'.isWriting c = true ↔ l.isWriting c = true ∨ l.sendRest c message r ≠ [] := by
    have hpoller := h.poller
    by_cases hask : l.sendRest c message r ≠ [] ∧ l.isWriting c = false
    · rw [if_pos hask] at hpoller
      have hnow : l'.isWriting c = true := hpoller.isWriting
      simp [hnow, hask.1]
    · rw [if_neg hask] at hpoller
      have hsame : l'.isWriting c = l.isWriting c := by
        unfold isWriting channel
        rw [hpoller]
      rw [hsame]
      constructor
      · exact Or.inl
      · rintro (hw | hrest)
        · exact hw
        · by_contra hnot
          exact hask ⟨hrest, Bool.eq_false_iff.mpr hnot⟩
  have hintact (g : List Byte) (hg : Intact l c g) : Intact l' c (g ++ message) := by
    refine ⟨?_, fun hw => ?_, fun hopen hne => ?_⟩
    · rw [haccepted, h.readable, ← hg.stream]
      unfold sendCalls sendRest
      by_cases hdirect : l.WritesDirectly c
      · rw [if_pos hdirect, if_pos hdirect, hzero.mp hdirect.2]
        simp [SocketCall.accepted]
      · rw [if_neg hdirect, if_neg hdirect]
        simp
    · rw [h.readable]
      rcases hwriting.mp hw with hwas | hrest
      · exact List.append_ne_nil_of_left_ne_nil (hg.readable_of_writing hwas) _
      · exact List.append_ne_nil_of_right_ne_nil _ hrest
    · rw [h.readable] at hne
      rw [hwriting]
      by_cases hrest : l.sendRest c message r = []
      · rw [hrest, List.append_nil] at hne
        exact Or.inl (hg.writing_of_readable (hcloses ▸ hopen) hne)
      · exact Or.inr hrest
  refine ⟨fun hbuf => ⟨hinput ▸ hbuf.1, h.wf⟩, hintact, fun g hg hset => ?_⟩
  rw [h.count hset]
  have hiff : l.sendCompletes c message r = true ↔ Finishes l l' c (g ++ message) := by
    unfold Finishes
    rw [newCalls_of_append h.socketCalls, ← (hintact g hg).stream, List.self_eq_append_right,
      h.readable, List.append_eq_nil_iff, ← hzero]
    unfold sendCompletes sendCalls sendRest
    by_cases hdirect : l.WritesDirectly c
    · simp only [hdirect, true_and, if_true, decide_eq_true_eq, wrote, List.any_cons, List.any_nil,
        Bool.or_false, List.drop_eq_nil_iff, hdirect.2]
      omega
    · simp [hdirect, wrote]
  simp only [hiff]

/-- A completed `handleWrite` moves bytes from the buffer to the kernel. -/
theorem IoLoop.WriteStep.progress {l l' : IoLoop ι} {c : ι} {r : WriteResult}
    (h : l.WriteStep l' c r) (hwas : l.isWriting c = true) : Progress l l' c [] := by
  have haccepted := accepted_of_append h.socketCalls
  have hcloses : (l'.conn c).closes = (l.conn c).closes := by rw [h.self]
  have hinput : (l'.conn c).inputBuffer = (l.conn c).inputBuffer := by rw [h.self]
  have hpos := h.returned_pos
  have hempty : (l'.conn c).outputBuffer.readable = [] ↔ l.WriteDrains c r := by
    have hle := r.returned_le (l.conn c).outputBuffer.readable.length
    rw [h.readable, List.drop_eq_nil_iff]
    unfold WriteDrains writeReturned at *
    omega
  have hcalls : (l.writeCalls c r).flatMap SocketCall.accepted =
      (l.conn c).outputBuffer.readable.take (l.writeReturned c r).toNat := by
    unfold writeCalls
    split <;> simp [SocketCall.accepted]
  -- The write interest goes exactly when the buffer becomes empty.
  have hwriting : l'.isWriting c = true ↔ (l'.conn c).outputBuffer.readable ≠ [] := by
    have hpoller := h.poller
    rw [ne_eq, hempty]
    by_cases hdrains : l.WriteDrains c r
    · rw [if_pos hdrains] at hpoller
      have hnow : l'.isWriting c = false := hpoller.isWriting
      simp [hnow, hdrains]
    · rw [if_neg hdrains] at hpoller
      have hsame : l'.isWriting c = l.isWriting c := by
        unfold isWriting channel
        rw [hpoller]
      simp [hsame, hwas, hdrains]
  have hintact (g : List Byte) (hg : Intact l c g) : Intact l' c (g ++ []) := by
    refine ⟨?_, hwriting.mp, fun _ => hwriting.mpr⟩
    rw [haccepted, hcalls, h.readable, List.append_assoc, List.take_append_drop, hg.stream,
      List.append_nil]
  refine ⟨fun hbuf => ⟨hinput ▸ hbuf.1, h.wf⟩, hintact, fun g hg hset => ?_⟩
  rw [h.count hset]
  have hiff : decide (l.WriteDrains c r) = true ↔ Finishes l l' c (g ++ []) := by
    have hwrote : wrote (l.writeCalls c r) = true := by
      have hnonneg : 0 ≤ l.writeReturned c r := by omega
      simp [wrote, writeCalls, hnonneg]
    unfold Finishes
    rw [newCalls_of_append h.socketCalls, hwrote, ← (hintact g hg).stream,
      List.self_eq_append_right, hempty, decide_eq_true_eq]
    simp
  simp only [hiff]

/-- A step of the frame `OutputStep` seen from every connection. -/
theorem Progress.of_outputStep {l l' : IoLoop ι} {c : ι} {calls : List SocketCall}
    {complete : Bool} {i : Interest} {message : List Byte} (hp : l.poller.Wf)
    (h : l.OutputStep l' c calls complete)
    (hpoller : l'.poller = l.poller ∨ Poller.InterestSet l.poller l'.poller (.conn c) i)
    (hself : Progress l l' c message) :
    l'.poller.Wf ∧ ∀ c', Progress l l' c' (if c = c' then message else []) := by
  constructor
  · rcases hpoller with heq | hset
    · rwa [heq]
    · exact hset.wf
  intro c'
  by_cases hne : c = c'
  · rwa [if_pos hne, ← hne]
  rw [if_neg hne]
  have hsame := h.others c' (Ne.symm hne)
  have hwriting : l'.isWriting c' = l.isWriting c' := by
    rcases hpoller with heq | hset
    · unfold IoLoop.isWriting IoLoop.channel
      rw [heq]
    · exact IoLoop.isWriting_of_interestSet (Ne.symm hne) hset
  refine .of_quiet [] (fun hb => hsame ▸ hb) (by rw [hsame])
    (by rw [hsame, List.append_nil]) (fun _ hnil => by cases hnil) (fun hw => hwriting ▸ hw)
    (fun hzero => ⟨hsame ▸ hzero, hwriting⟩) ?_
  rw [h.pendingFunctors, List.count_append, IoLoop.notifications]
  split <;> simp [hne]

/-- A step that changes fields of a connection other than its output. -/
theorem Progress.of_self {l l' : IoLoop ι} {c : ι} (calls : List SocketCall) (c' : ι)
    (hothers : ∀ c', c' ≠ c → l'.conn c' = l.conn c')
    (hinput : (l.conn c).inputBuffer.Wf → (l'.conn c).inputBuffer.Wf)
    (houtput : (l'.conn c).outputBuffer = (l.conn c).outputBuffer)
    (hcalls : (l'.conn c).socketCalls = (l.conn c).socketCalls ++ calls)
    (hshut : ∀ call ∈ calls, call = .shutdownWrite)
    (hwriting : l'.isWriting c = true → l.isWriting c = true)
    (hopen : (l'.conn c).closes = 0 → (l.conn c).closes = 0 ∧ l'.isWriting c = l.isWriting c)
    (hrest : ∀ c', c' ≠ c → l'.isWriting c' = l.isWriting c')
    (hcount : l'.pendingFunctors.count (.writeComplete c') =
      l.pendingFunctors.count (.writeComplete c')) : Progress l l' c' [] := by
  by_cases hne : c' = c
  · subst hne
    exact .of_quiet calls hinput houtput hcalls hshut hwriting hopen hcount
  · have hsame := hothers c' hne
    exact .of_quiet [] (fun hb => hsame ▸ hb) (by rw [hsame])
      (by rw [hsame, List.append_nil]) (fun _ hnil => by cases hnil) (fun hw => hrest c' hne ▸ hw)
      (fun hzero => ⟨hsame ▸ hzero, hrest c' hne⟩) hcount

/-- A step that does nothing. -/
theorem Progress.refl (l : IoLoop ι) (c : ι) : Progress l l c [] :=
  .of_quiet [] id rfl (List.append_nil _).symm (fun _ hnil => by cases hnil) id
    (fun hzero => ⟨hzero, rfl⟩) rfl

omit [DecidableEq ι] in
/-- `shutdownInLoop` makes no other call on the socket. -/
theorem shutdownWrite_of_mem_shutdownCalls {l : IoLoop ι} {c : ι} {call : SocketCall}
    (h : call ∈ l.shutdownCalls c) : call = .shutdownWrite := by
  unfold IoLoop.shutdownCalls at h
  split at h
  · exact List.mem_singleton.mp h
  · cases h

/-- A step that closes a connection. -/
theorem Progress.of_closeStep {l l₁ l' : IoLoop ι} {c : ι} (c' : ι) (h : l₁.CloseStep l' c)
    {input : Buffer} (hinput : input.Wf)
    (hl₁ : l₁ = l.modifyConn c fun conn => { conn with inputBuffer := input }) :
    Progress l l' c' [] := by
  have hself : l₁.conn c = { l.conn c with inputBuffer := input } := by
    rw [hl₁, IoLoop.modifyConn_conn_self]
  have hclosed : (l'.conn c).closes = (l.conn c).closes + 1 := by rw [h.self, hself]
  have hwriting : l'.isWriting c = false := h.interest.isWriting
  refine .of_self (c := c) [] c' (fun c' hne => ?_) (fun _ => ?_) ?_ ?_
    (fun _ hnil => by cases hnil) (fun hw => ?_) (fun hzero => ?_) (fun c' hne => ?_) ?_
  · rw [h.others c' hne, hl₁, IoLoop.modifyConn_conn_of_ne l hne]
  · rw [h.self, hself]
    exact hinput
  · rw [h.self, hself]
  · rw [h.self, hself, List.append_nil]
  · rw [hwriting] at hw
    cases hw
  · omega
  · rw [IoLoop.isWriting_of_interestSet hne h.interest, hl₁]
    rfl
  · have hpending : l₁.pendingFunctors = l.pendingFunctors := by
      rw [hl₁]
      rfl
    rw [h.pendingFunctors, List.count_append, hpending]
    split <;> simp

/-- What a call on a connection does to the output of every connection. -/
theorem outputSystem_progress {l l' : IoLoop ι} {op : OutputOp ι} (hp : l.poller.Wf)
    (hb : ∀ c, (l.conn c).inputBuffer.Wf ∧ (l.conn c).outputBuffer.Wf)
    (h : (outputSystem ι).exec l op = .ok l') :
    l'.poller.Wf ∧ ∀ c, Progress l l' c (op.message c) := by
  cases op with
  | connectEstablished c₀ =>
    obtain ⟨_, hstep⟩ := IoLoop.connectEstablished_eq_ok hp h
    have hset := hstep.interest
    have hwriting : l'.isWriting c₀ = l.isWriting c₀ := hset.isWriting
    refine ⟨hset.wf, fun c => .of_self [] c hstep.others ?_ ?_ ?_
      (fun _ hnil => by cases hnil) (fun hw => hwriting ▸ hw) ?_
      (fun c' hne => IoLoop.isWriting_of_interestSet hne hset) (by rw [hstep.pendingFunctors])⟩
    · rw [hstep.self]
      exact id
    · rw [hstep.self]
    · rw [hstep.self, List.append_nil]
    · rw [hstep.self]
      exact fun hzero => ⟨hzero, hwriting⟩
  | sendInLoop c₀ message r =>
    have hstep := IoLoop.sendInLoop_eq_ok hp (hb c₀).2 h
    refine Progress.of_outputStep (i := .enableWriting) hp hstep.toOutputStep ?_
      (hstep.progress (hb c₀).2)
    have hpoller := hstep.poller
    split at hpoller
    · exact Or.inr hpoller
    · exact Or.inl hpoller
  | handleWrite c₀ r =>
    rcases IoLoop.handleWrite_eq_ok hp (hb c₀).2 h with ⟨_, rfl⟩ | ⟨hwriting, hstep⟩
    · exact ⟨hp, fun c => .refl l' c⟩
    · have hall := Progress.of_outputStep (i := .disableWriting) hp hstep.toOutputStep ?_
        (hstep.progress hwriting)
      · simpa only [ite_self, OutputOp.message] using hall
      · have hpoller := hstep.poller
        split at hpoller
        · exact Or.inr hpoller
        · exact Or.inl hpoller
  | handleRead c₀ r =>
    obtain ⟨input, hinput, heq⟩ := IoLoop.handleRead_eq l c₀ r (hb c₀).1
    change l.handleRead c₀ r = .ok l' at h
    rw [heq] at h
    simp only at h
    by_cases hend : IoLoop.endOfStream r = true
    · rw [if_pos hend] at h
      have hstep := IoLoop.handleClose_eq_ok
        (l := l.modifyConn c₀ fun conn => { conn with inputBuffer := input }) hp h
      exact ⟨hstep.interest.wf, fun c => .of_closeStep c hstep hinput rfl⟩
    · rw [if_neg hend] at h
      cases h
      refine ⟨hp, fun c => .of_self (c := c₀) [] c ?_ ?_ ?_ ?_
        (fun _ hnil => by cases hnil) id (fun hzero => ⟨?_, rfl⟩) (fun _ _ => rfl) rfl⟩
      · exact fun c' hne => IoLoop.modifyConn_conn_of_ne l hne _
      · rw [IoLoop.modifyConn_conn_self]
        exact fun _ => hinput
      · rw [IoLoop.modifyConn_conn_self]
      · rw [IoLoop.modifyConn_conn_self, List.append_nil]
      · rwa [IoLoop.modifyConn_conn_self] at hzero
  | handleClose c₀ =>
    have hstep := IoLoop.handleClose_eq_ok hp h
    exact ⟨hstep.interest.wf, fun c => .of_closeStep c hstep (hb c₀).1
      (IoLoop.modifyConn_eq_self rfl).symm⟩
  | shutdown c₀ inLoop =>
    cases h
    rcases l.shutdown_cases inLoop c₀ with ⟨_, heq⟩ | ⟨_, hstep⟩
    · rw [heq]
      exact ⟨hp, fun c => .refl l c⟩
    · have hwriting (c : ι) : (l.shutdown inLoop c₀).isWriting c = l.isWriting c := by
        unfold IoLoop.isWriting IoLoop.channel
        rw [hstep.poller]
      refine ⟨hstep.poller ▸ hp, fun c => .of_self (if inLoop then l.shutdownCalls c₀ else []) c
        hstep.others ?_ ?_ ?_ ?_ (fun hw => hwriting c₀ ▸ hw) ?_ (fun c' _ => hwriting c') ?_⟩
      · rw [hstep.self]
        exact id
      · rw [hstep.self]
      · rw [hstep.self]
      · split
        · exact fun _ => shutdownWrite_of_mem_shutdownCalls
        · exact fun _ hnil => by cases hnil
      · rw [hstep.self]
        exact fun hzero => ⟨hzero, hwriting c₀⟩
      · rw [hstep.pendingFunctors, List.count_append]
        split <;> simp
  | shutdownInLoop c₀ =>
    cases h
    have hstep := (IoLoop.OutputStep.refl (hb c₀).2).shutdownInLoop
    have hpoller := l.shutdownInLoop_poller c₀
    have hwriting : (l.shutdownInLoop c₀).isWriting c₀ = l.isWriting c₀ := by
      unfold IoLoop.isWriting IoLoop.channel
      rw [hpoller]
    have hself : Progress l (l.shutdownInLoop c₀) c₀ [] := by
      refine .of_quiet (l.shutdownCalls c₀) ?_ (l.shutdownInLoop_outputBuffer c₀)
        hstep.socketCalls (fun _ => shutdownWrite_of_mem_shutdownCalls) (fun hw => hwriting ▸ hw)
        ?_ ?_
      · rw [hstep.self]
        exact id
      · rw [hstep.self]
        exact fun hzero => ⟨hzero, hwriting⟩
      · rw [hstep.pendingFunctors, IoLoop.notifications, Bool.false_and,
          if_neg Bool.false_ne_true, List.append_nil]
    have hall := Progress.of_outputStep (i := .disableAll) hp hstep (Or.inl hpoller) hself
    simpa only [ite_self, OutputOp.message] using hall

/-- **Output stream integrity.** After any calls on established connections, the
bytes accepted from a connection followed by its readable bytes are the bytes
given to it, its write interest is there only while bytes wait, and until it is
closed whenever bytes wait. A next call queues the notification exactly if its
`::write` does not fail and leaves everything given so far accepted. -/
theorem output_intact {l₀ l : IoLoop ι} {ops : List (OutputOp ι)} (hfresh : l₀.Fresh)
    (hrun : (outputSystem ι).Run l₀ ops l) (c : ι) :
    Intact l c (given c ops) ∧
      ∀ op l', (outputSystem ι).enabled l op → (outputSystem ι).exec l op = .ok l' →
        (l.conn c).writeCompleteCallback = true →
        l'.pendingFunctors.count (.writeComplete c) =
          l.pendingFunctors.count (.writeComplete c) +
            if Finishes l l' c (given c (ops ++ [op])) then 1 else 0 := by
  have hgiven (ops : List (OutputOp ι)) (op : OutputOp ι) (c : ι) :
      given c (ops ++ [op]) = given c ops ++ op.message c := by
    unfold given
    rw [List.flatMap_append, List.flatMap_singleton]
  have hinv : l.poller.Wf ∧
      (∀ c, (l.conn c).inputBuffer.Wf ∧ (l.conn c).outputBuffer.Wf) ∧
      ∀ c, Intact l c (given c ops) := by
    refine hrun.history (I := fun ops l => l.poller.Wf ∧
      (∀ c, (l.conn c).inputBuffer.Wf ∧ (l.conn c).outputBuffer.Wf) ∧
      ∀ c, Intact l c (given c ops)) ⟨hfresh.poller.sound.wf, fun c => ?_, fun c => ?_⟩ ?_
    · rw [hfresh.conn]
      exact ⟨Buffer.new_wf, Buffer.new_wf⟩
    · have hnot : l₀.isWriting c = false := by
        unfold IoLoop.isWriting IoLoop.channel
        rw [hfresh.poller.channel, Channel.isWriting_new]
      have hempty : (l₀.conn c).outputBuffer.readable = [] := by
        rw [hfresh.conn]
        exact Buffer.readable_new
      refine ⟨?_, fun hw => ?_, fun _ hne => absurd hempty hne⟩
      · rw [hempty, hfresh.conn]
        rfl
      · rw [hnot] at hw
        cases hw
    · rintro ops l op l' ⟨hp, hb, hintact⟩ _ hexec
      obtain ⟨hp', hprogress⟩ := outputSystem_progress hp hb hexec
      refine ⟨hp', fun c => (hprogress c).buffers (hb c), fun c => ?_⟩
      rw [hgiven]
      exact (hprogress c).intact _ (hintact c)
  obtain ⟨hp, hb, hintact⟩ := hinv
  refine ⟨hintact c, fun op l' _ hexec hset => ?_⟩
  rw [hgiven]
  exact ((outputSystem_progress hp hb hexec).2 c).notified _ (hintact c) hset

/-- A loop with one new connection, on descriptor 5, that wants notifications. -/
def oneConnection : IoLoop Unit where
  poller := ⟨[], ∅, fun | .conn _ => .new 5 | .other k => .new (6 + k), []⟩
  conn _ := .new true .client
  pendingFunctors := []
  baseFunctors := []

/-- Its connection is new. -/
theorem oneConnection_fresh : oneConnection.Fresh where
  poller := by
    refine ⟨rfl, rfl, fun c => ?_, fun c => ?_, fun c c' heq => ?_, rfl⟩
    · cases c <;> rfl
    · cases c with
      | conn => exact (by decide : (0 : ℤ) ≤ 5)
      | other k =>
        change (0 : ℤ) ≤ 6 + k
        omega
    · cases c <;> cases c' <;> simp [oneConnection, Channel.new] at heq ⊢ <;> omega
  conn _ := rfl
  pendingFunctors := rfl
  baseFunctors := rfl

/-- A partial direct write, a message that has to wait, and a write that leaves one
byte in the buffer. -/
def partialWrites : List (OutputOp Unit) :=
  [.connectEstablished (), .sendInLoop () [1, 2, 3] (.room 1), .sendInLoop () [4] (.room 9),
    .handleWrite () (.room 2)]

/-- The integrity of that output, and of the notification by the write that follows
and drains the buffer. -/
theorem output_intact_partialWrites :
    ∃ l l', (outputSystem Unit).Run oneConnection partialWrites l ∧
      l.handleWrite () (.room 9) = .ok l' ∧ Intact l () [1, 2, 3, 4] ∧
      l'.pendingFunctors.count (.writeComplete ()) =
        l.pendingFunctors.count (.writeComplete ()) + 1 := by
  have hcheck : ((outputSystem Unit).replay oneConnection partialWrites).any (fun l =>
      (l.handleWrite () (.room 9)).toOption.any fun l' =>
        decide ((l.conn ()).state = .kConnected ∧ Finishes l l' () [1, 2, 3, 4] ∧
          (l.conn ()).writeCompleteCallback = true)) = true := by decide +kernel
  obtain ⟨l, hrun, hl⟩ := System.exists_run_of_replay hcheck
  have hgiven : given () partialWrites = [1, 2, 3, 4] := by decide
  obtain ⟨l', hexec, hl⟩ := exists_ok_of_any hl
  obtain ⟨hstate, hfinishes, hset⟩ := of_decide_eq_true hl
  obtain ⟨hintact, hnotified⟩ := output_intact oneConnection_fresh hrun ()
  have henabled : (outputSystem Unit).enabled l (.handleWrite () (.room 9)) := by
    change (false = true ↔ (l.conn ()).state = .kConnecting)
    rw [hstate]
    decide
  have hcount := hnotified (.handleWrite () (.room 9)) l' henabled hexec hset
  rw [if_pos (by simpa [given, partialWrites, OutputOp.message] using hfinishes)] at hcount
  exact ⟨l, l', hrun, hexec, hgiven ▸ hintact, hcount⟩

end Dalin.Net
