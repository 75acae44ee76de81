import Dalin.Net.SentMessages

/-!
# Streams from end to end

Some event loops, in one process or in several, have connections with each other.
What one of two connected connections reads is what the kernel has accepted from
the other one, in order, in pieces of any size; the end of the stream comes after
a `shutdownWrite`, when everything before it has been read. This file composes
the runs of the loops to a network and follows the messages from `send` on one
side to the message callback on the other.
-/

set_option autoImplicit false

namespace Dalin.Net

open SameOrder Transition

/-- The connections of some loops and the links between them. -/
structure Links (Λ ι : Type) where
  /-- The other end of the link, for a connection to a loop of the network. -/
  peer : Λ → ι → Option (Λ × ι)

/-- Some loops, with the messages handed to each connection in the order of their `send`s. -/
structure Network (Λ ι : Type) where
  loop : Λ → InputRun ι
  sent : Λ → ι → List SentMessage

/-- A step of one loop. -/
structure NetworkAction (Λ ι : Type) where
  loop : Λ
  action : InputAction ι

variable {Λ ι : Type}

/-- The messages that a step hands to a connection. -/
def InputAction.handed (before after : TcpConnection) : InputAction ι → List SentMessage
  | .step a _ => handedBy a before after
  | .takeOut _ _ => []

/-- The `::readv` that a step makes, and its connection. -/
def InputRun.readOf (s : InputRun ι) : InputAction ι → Option (ι × ReadResult)
  | .step a _ => InputRun.readBy a s.run.phase
  | .takeOut _ _ => none

namespace Network

/-- What the kernel may give to a connection of a loop: a part of what its peer has written, or
the end of the stream. A read may also fail. -/
def Arrives (links : Links Λ ι) (s : Network Λ ι) (l : Λ) : Option (ι × ReadResult) → Prop
  | some (c, .data arrived) =>
    match links.peer l c with
    | some (l', c') =>
      let sender := (s.loop l').run.loop.conn c'
      arrived <+: sender.accepted.drop ((s.loop l).received c).length ∧
        (arrived = [] → .shutdownWrite ∈ sender.socketCalls ∧
          sender.accepted.length ≤ ((s.loop l).received c).length)
    | none => True
  | _ => True

instance (links : Links Λ ι) (s : Network Λ ι) (l : Λ) (read : Option (ι × ReadResult)) :
    Decidable (s.Arrives links l read) := by
  unfold Arrives
  apply @Option.casesOn _ _ read
  · exact isTrue trivial
  · intro cr
    apply @Prod.casesOn _ _ _ cr
    intro c r
    apply @ReadResult.casesOn _ r
    · intro
      exact isTrue trivial
    · intro arrived
      dsimp only
      generalize links.peer l c = p
      apply @Option.casesOn _ _ p
      · exact isTrue trivial
      · intro lc
        dsimp only
        infer_instance

/-- A step of a loop of the network. -/
def exec [DecidableEq Λ] [DecidableEq ι] (s : Network Λ ι) (a : NetworkAction Λ ι) :
    Except Failure (Network Λ ι) := do
  let now ← (inputSystem ι).exec (s.loop a.loop) a.action
  return {
    loop := Function.update s.loop a.loop now
    sent := Function.update s.sent a.loop fun c => s.sent a.loop c ++
      a.action.handed ((s.loop a.loop).run.loop.conn c) (now.run.loop.conn c) }

end Network

/-- All runs of the loops of a network, with the steps of the loops in any order. -/
def networkSystem [DecidableEq Λ] [DecidableEq ι] (links : Links Λ ι) :
    System (Network Λ ι) (NetworkAction Λ ι) Failure where
  init s := (∀ l, (inputSystem ι).init (s.loop l)) ∧ s.sent = fun _ _ => []
  enabled s a := (inputSystem ι).enabled (s.loop a.loop) a.action ∧
    s.Arrives links a.loop ((s.loop a.loop).readOf a.action)
  exec := Network.exec

instance [DecidableEq Λ] [DecidableEq ι] (links : Links Λ ι) (s : Network Λ ι)
    (a : NetworkAction Λ ι) : Decidable ((networkSystem links).enabled s a) :=
  inferInstanceAs (Decidable (_ ∧ _))

/-! ### The steps of one loop -/

namespace InputRun

variable [DecidableEq ι] {s s' : InputRun ι} {a : InputAction ι}

/-- A step of the input, as one connection sees it. -/
inductive ViewStep (c : ι) (v : ConnectionView ι) : InputAction ι → ConnectionView ι → Prop
  | step {a : LoopAction ι} {now : ℤ} {v' : ConnectionView ι} :
      ConnectionView.Step c v a v' → ViewStep c v (.step a now) v'
  | takeOut {c' : ι} {r : Retrieval} (input : Buffer) : ViewStep c v (.takeOut c' r)
      (v.modify fun conn => { conn with inputBuffer := input })

/-- The step of the loop in a step of the input. -/
theorem exec_step {b : LoopAction ι} {now : ℤ} (hexec : s.exec (.step b now) = .ok s') :
    (loopSystem ι).exec s.run b = .ok s'.run := by
  obtain ⟨run, hrun, hrest⟩ := bind_eq_ok.mp hexec
  have heq : s'.run = run := by
    split at hrest
    · obtain ⟨⟨l, n, calls⟩, -, hnow⟩ := bind_eq_ok.mp hrest
      cases hnow
      rfl
    · cases hrest
      rfl
  rw [heq]
  exact hrun

/-- Every connection sees one of these steps. -/
theorem Kept.viewStep (h : s.Kept) (henabled : (inputSystem ι).enabled s a)
    (hexec : (inputSystem ι).exec s a = .ok s') (c : ι) :
    ViewStep c (s.run.view c) a (s'.run.view c) := by
  cases a with
  | step b now => exact .step ((LoopRun.views_step h.wf henabled (exec_step hexec)).2 c)
  | takeOut c' r =>
    obtain ⟨input, -, hnow⟩ := bind_eq_ok.mp hexec
    cases hnow
    by_cases hne : c = c'
    · subst hne
      have hview : (s.took c r input).run.view c =
          (s.run.view c).modify fun conn => { conn with inputBuffer := input } := by
        change (s.run.loop.modifyConn c fun conn => { conn with inputBuffer := input }).view
          s.run.phase c = (s.run.loop.view s.run.phase c).modify _
        exact LoopRun.modifyConn_view ..
      rw [hview]
      exact .takeOut input
    · have hview : (s.took c' r input).run.view c = s.run.view c :=
        LoopRun.view_of_apart (IoLoop.apart_modifyConn _ hne _)
      rw [hview]
      exact .takeOut (s.run.view c).conn.inputBuffer

/-- The bytes that a step brings to a connection. -/
def arrivedAt (s : InputRun ι) (a : InputAction ι) (c : ι) : List Byte :=
  match s.readOf a with
  | some (c', r) => if c' = c then (s.run.loop.conn c).inputBuffer.bytesRead r else []
  | none => []

/-- They enter the history. -/
theorem Kept.received_step (h : s.Kept) (henabled : (inputSystem ι).enabled s a)
    (hexec : (inputSystem ι).exec s a = .ok s') (c : ι) :
    s'.received c = s.received c ++ s.arrivedAt a c := by
  unfold arrivedAt
  cases a with
  | takeOut c' r =>
    obtain ⟨input, -, hnow⟩ := bind_eq_ok.mp hexec
    cases hnow
    exact (List.append_nil _).symm
  | step b now =>
    simp only [readOf]
    cases hread : readBy b s.run.phase with
    | none =>
      obtain ⟨run, hrun, hrest⟩ := bind_eq_ok.mp hexec
      simp only [hread] at hrest
      cases hrest
      exact (List.append_nil _).symm
    | some read =>
      obtain ⟨c', r⟩ := read
      obtain ⟨run, n, calls, hrun, rfl, hstep⟩ := exists_record h.wf henabled hread hexec
      change Function.update s.received c' _ c = _
      rw [Function.update_apply]
      by_cases heq : c = c'
      · rw [if_pos heq, heq]
        simp
      · rw [if_neg heq]
        simp [Ne.symm heq]

/-- The read that a new read event records. It is the end of the stream if it counts no bytes. -/
theorem Kept.reads_step (h : s.Kept) (henabled : (inputSystem ι).enabled s a)
    (hexec : (inputSystem ι).exec s a = .ok s') {e : ReadEvent ι} (he : e ∈ s'.reads) :
    e ∈ s.reads ∨ ∃ r, s.readOf a = some (e.c, r) ∧ (e.n = 0 → r = .data []) := by
  cases a with
  | takeOut c' r =>
    obtain ⟨input, -, hnow⟩ := bind_eq_ok.mp hexec
    cases hnow
    exact .inl he
  | step b now =>
    cases hread : readBy b s.run.phase with
    | none =>
      obtain ⟨run, hrun, hrest⟩ := bind_eq_ok.mp hexec
      simp only [hread] at hrest
      cases hrest
      exact .inl he
    | some read =>
      obtain ⟨c, r⟩ := read
      obtain ⟨run, hrun, hrest⟩ := bind_eq_ok.mp hexec
      simp only [hread] at hrest
      obtain ⟨⟨l, n, calls⟩, hcalls, hnow⟩ := bind_eq_ok.mp hrest
      cases hnow
      rcases List.mem_append.mp he with hold | hnew
      · exact .inl hold
      · cases List.mem_singleton.mp hnew
        refine .inr ⟨r, hread, fun hzero => ?_⟩
        replace hzero : n = 0 := hzero
        obtain ⟨input, n', e', hfd, -, hspec⟩ := (h.wf.buffers c).1.readFd 0 r
        unfold IoLoop.handleReadAt at hcalls
        rw [hfd] at hcalls
        have hn : n = n' := by
          change (if 0 < n' then _ else _) = _ at hcalls
          split at hcalls
          · cases hcalls
            rfl
          · split at hcalls
            · obtain ⟨l', -, hrest⟩ := bind_eq_ok.mp hcalls
              cases hrest
              rfl
            · cases hcalls
              rfl
        cases r with
        | failed errno =>
          obtain ⟨-, hn', -⟩ := hspec
          omega
        | data arrived =>
          obtain ⟨-, hn', -⟩ := hspec
          rw [List.length_take] at hn'
          have hextra : 0 < Buffer.extraSize := by decide
          have hempty : arrived.length = 0 := by omega
          rw [List.length_eq_zero_iff.mp hempty]

end InputRun

namespace Network

/-! ### The steps of a network -/

variable {links : Links Λ ι} {s s' : Network Λ ι} {l l' : Λ} {c c' : ι}

/-- The bytes that the kernel has accepted from a connection. -/
def accepted (s : Network Λ ι) (l : Λ) (c : ι) : List Byte := ((s.loop l).run.loop.conn c).accepted

/-- What a network keeps of its streams. -/
structure Conveys [DecidableEq ι] (links : Links Λ ι) (s : Network Λ ι) : Prop where
  kept : ∀ l, (s.loop l).Kept
  carries : ∀ l c, ∃ order, ((s.loop l).run.view c).Carries (s.sent l c) order
  received : ∀ l c l' c', links.peer l c = some (l', c') →
    (s.loop l).received c <+: s.accepted l' c'

variable [DecidableEq Λ] [DecidableEq ι] {a : NetworkAction Λ ι}

/-- The network before its first step. -/
theorem Conveys.of_init (h : (networkSystem links).init s) : s.Conveys links := by
  obtain ⟨hinit, hsent⟩ := h
  refine ⟨fun l => .of_init (hinit l), fun l c => ⟨[], ?_⟩, fun l c l' c' _ => ?_⟩
  · rw [hsent]
    exact ((LoopRun.views_init (hinit l).1).2 c).carries
  · rw [(hinit l).2.1]
    exact List.nil_prefix

/-- A step of a network is a step of one of its loops. -/
theorem exec_eq_ok (hexec : (networkSystem links).exec s a = .ok s') :
    ∃ now, (inputSystem ι).exec (s.loop a.loop) a.action = .ok now ∧
      s'.loop = Function.update s.loop a.loop now ∧
      s'.sent = Function.update s.sent a.loop fun c => s.sent a.loop c ++
        a.action.handed ((s.loop a.loop).run.loop.conn c) (now.run.loop.conn c) := by
  obtain ⟨now, hnow, heq⟩ := bind_eq_ok.mp hexec
  cases heq
  exact ⟨now, hnow, rfl, rfl⟩

omit [DecidableEq Λ] [DecidableEq ι] in
/-- What is read has been written. -/
theorem Arrives.written {read : ι × ReadResult}
    (h : s.Arrives links l (some read)) (hpeer : links.peer l read.1 = some (l', c'))
    (hreceived : (s.loop l).received read.1 <+: s.accepted l' c') (b : Buffer) :
    (s.loop l).received read.1 ++ b.bytesRead read.2 <+: s.accepted l' c' := by
  obtain ⟨c, r⟩ := read
  obtain ⟨rest, hrest⟩ := hreceived
  cases r with
  | failed errno =>
    change _ ++ [] <+: _
    rw [List.append_nil]
    exact ⟨rest, hrest⟩
  | data arrived =>
    simp only [Arrives, hpeer] at h
    have harrived := h.1
    change arrived <+: (s.accepted l' c').drop _ at harrived
    rw [← hrest, List.drop_left] at harrived
    rw [← hrest]
    exact (List.prefix_append_right_inj _).mpr ((List.take_prefix ..).trans harrived)

/-- The calls on a socket are never taken back. -/
theorem Conveys.socketCalls_kept (h : s.Conveys links)
    (henabled : (networkSystem links).enabled s a)
    (hexec : (networkSystem links).exec s a = .ok s') (l : Λ) (c : ι) :
    ((s.loop l).run.loop.conn c).socketCalls <+: ((s'.loop l).run.loop.conn c).socketCalls := by
  obtain ⟨now, hnow, hloop, -⟩ := exec_eq_ok hexec
  rw [hloop, Function.update_apply]
  split
  · rename_i hl
    subst hl
    have hview := (h.kept a.loop).viewStep henabled.1 hnow c
    change ((s.loop a.loop).run.view c).conn.socketCalls <+: (now.run.view c).conn.socketCalls
    generalize now.run.view c = v at hview
    obtain ⟨l₀, b⟩ := a
    cases hview with
    | step hstep => exact ConnectionView.socketCalls_kept hstep
    | takeOut => exact List.prefix_rfl
  · exact List.prefix_rfl

/-- More calls do not take back what was accepted. -/
theorem accepted_kept {conn conn' : TcpConnection} (h : conn.socketCalls <+: conn'.socketCalls) :
    conn.accepted <+: conn'.accepted := by
  obtain ⟨calls, hcalls⟩ := h
  unfold TcpConnection.accepted
  rw [← hcalls, List.flatMap_append]
  exact List.prefix_append ..

/-- Every step of a network keeps its streams. -/
theorem Conveys.step (h : s.Conveys links) (henabled : (networkSystem links).enabled s a)
    (hexec : (networkSystem links).exec s a = .ok s') : s'.Conveys links := by
  have hcalls := h.socketCalls_kept henabled hexec
  obtain ⟨now, hnow, hloop, hsent⟩ := exec_eq_ok hexec
  refine ⟨fun l => ?_, fun l c => ?_, fun l c l' c' hpeer => ?_⟩
  · rw [hloop, Function.update_apply]
    split
    · exact (h.kept a.loop).step henabled.1 hnow
    · exact h.kept l
  · rw [hloop, hsent, Function.update_apply, Function.update_apply]
    split
    · rename_i hl
      obtain ⟨order, hcarries⟩ := h.carries a.loop c
      have hview := (h.kept a.loop).viewStep henabled.1 hnow c
      change ∃ order, (now.run.view c).Carries (s.sent a.loop c ++ a.action.handed
        ((s.loop a.loop).run.view c).conn (now.run.view c).conn) order
      generalize now.run.view c = v at hview
      obtain ⟨l₀, b⟩ := a
      cases hview with
      | step hstep => exact hcarries.step hstep
      | takeOut input =>
        refine ⟨order, ?_⟩
        change ConnectionView.Carries _ (s.sent l₀ c ++ []) order
        rw [List.append_nil]
        exact hcarries.quiet rfl rfl rfl
    · exact h.carries l c
  · have haccepted := accepted_kept (hcalls l' c')
    have hreceived := h.received l c l' c' hpeer
    refine List.IsPrefix.trans ?_ haccepted
    rw [hloop, Function.update_apply]
    split
    · rename_i hl
      subst hl
      rw [(h.kept a.loop).received_step henabled.1 hnow c]
      unfold InputRun.arrivedAt
      have harrives := henabled.2
      cases hread : (s.loop a.loop).readOf a.action with
      | none =>
        dsimp only
        rw [List.append_nil]
        exact hreceived
      | some read =>
        obtain ⟨c₁, r⟩ := read
        dsimp only
        split
        · rename_i hc
          subst hc
          rw [hread] at harrives
          exact harrives.written hpeer hreceived _
        · rw [List.append_nil]
          exact hreceived
    · exact hreceived

/-- The order of the messages on a stream: those of each sender in the order of their `send`s. -/
def InSendOrder (order sent : List SentMessage) : Prop := Merged SentMessage.sender order sent

/-- **What arrives is what was sent.** In every reachable state of a network, at each end of a
link, the bytes read so far begin the stream of the other end, whose messages are those handed to
`send` there, in the order of the sends of each sender; and what user code has not retrieved of
them is in the input buffer. -/
theorem received_as_sent (h : (networkSystem links).Reachable s)
    (hpeer : links.peer l c = some (l', c')) :
    ∃ order, InSendOrder order (s.sent l' c') ∧ (s.loop l).received c <+: bytesOf order ∧
      ((s.loop l).run.loop.conn c).inputBuffer.readable =
        ((s.loop l).received c).drop ((s.loop l).retrieved c) := by
  have hconveys := h.invariant Conveys.of_init fun hI henabled hexec => hI.step henabled hexec
  obtain ⟨order, hcarries⟩ := hconveys.carries l' c'
  refine ⟨_, hcarries.merged, ?_, (hconveys.kept l).readable c⟩
  rw [bytesOf_append, ← hcarries.stream, List.append_assoc]
  exact (hconveys.received l c l' c' hpeer).trans (List.prefix_append ..)

/-! ### The end of a stream -/

/-- The connection is shut down by other threads and not closed, and when `handleWrite` empties its
buffer while it is being shut down, no message is queued for it any more. -/
def ShutsLast (l : Λ) (c : ι) (s : Network Λ ι) (a : NetworkAction Λ ι) : Prop :=
  match a.action with
  | .step b _ => a.loop = l → LoopRun.ShutsLast c (s.loop l).run b
  | .takeOut _ _ => True

/-- A connection has met the end of its stream. -/
def Ended (s : Network Λ ι) (l : Λ) (c : ι) : Prop := ∃ e ∈ (s.loop l).reads, e.c = c ∧ e.n = 0

/-- A connection that is shut down last, and those that read from it. -/
structure Ends (links : Links Λ ι) (l' : Λ) (c' : ι) (s : Network Λ ι) : Prop where
  conveys : s.Conveys links
  linked : ConnectionView.Linked c' ((s.loop l').run.view c')
  graceful : ConnectionView.Graceful c' ((s.loop l').run.view c')
  ended : ∀ l c, links.peer l c = some (l', c') → s.Ended l c →
    .shutdownWrite ∈ ((s.loop l').run.loop.conn c').socketCalls ∧
      (s.loop l).received c = s.accepted l' c'

/-- Nobody has read anything in a new network. -/
theorem Ends.of_init (h : (networkSystem links).init s) : s.Ends links l' c' := by
  have hnew := (LoopRun.views_init (h.1 l').1).2 c'
  refine ⟨.of_init h, hnew.linked, hnew.graceful, fun l c _ hended => ?_⟩
  obtain ⟨e, he, -⟩ := hended
  rw [(h.1 l).2.2.2] at he
  cases he

/-- After a `shutdownWrite` the kernel accepts no more. -/
theorem accepted_of_shut {conn conn' : TcpConnection}
    (h : conn.socketCalls <+: conn'.socketCalls) (hshut : .shutdownWrite ∈ conn.socketCalls)
    (hsealed : ConnectionView.Sealed conn'.socketCalls) : conn'.accepted = conn.accepted := by
  obtain ⟨calls, hcalls⟩ := h
  refine ConnectionView.accepted_append_of_shut hcalls.symm fun call hcall => ?_
  rw [← hcalls] at hsealed
  have hwrite := (List.pairwise_append.mp hsealed).2.2 _ hshut call hcall rfl
  cases call with
  | write => cases hwrite
  | shutdownWrite => rfl

/-- A step of the network keeps the connection graceful. -/
theorem Ends.graceful_step (h : s.Ends links l' c') (henabled : (networkSystem links).enabled s a)
    (hlast : ShutsLast l' c' s a) (hexec : (networkSystem links).exec s a = .ok s') :
    ConnectionView.Linked c' ((s'.loop l').run.view c') ∧
      ConnectionView.Graceful c' ((s'.loop l').run.view c') := by
  obtain ⟨now, hnow, hloop, -⟩ := exec_eq_ok hexec
  obtain ⟨l₀, b⟩ := a
  rw [hloop, Function.update_apply]
  split
  · rename_i hl
    obtain rfl : l' = l₀ := hl
    cases b with
    | step b now' =>
      have hview := (LoopRun.views_step (h.conveys.kept l').wf henabled.1
        (InputRun.exec_step hnow)).2 c'
      exact ⟨h.linked.step hview, LoopRun.graceful_step h.graceful h.linked (hlast rfl) hview⟩
    | takeOut c r =>
      have hview := (h.conveys.kept l').viewStep henabled.1 hnow c'
      change InputRun.ViewStep c' _ (.takeOut c r) _ at hview
      generalize now.run.view c' = v at hview ⊢
      cases hview with
      | takeOut input =>
        obtain ⟨hunheld, hopening, hcloses, hdestroyed⟩ := h.linked
        obtain ⟨hunclosed, ⟨given, hperm, hbuffer, hstream, hwriting⟩, horder, hrequested, hshut,
          hsealed⟩ := h.graceful
        exact ⟨⟨hunheld, hopening, hcloses, hdestroyed⟩, ⟨hunclosed,
          ⟨given, hperm, hbuffer, hstream, hwriting⟩, horder, hrequested, hshut, hsealed⟩⟩
  · exact ⟨h.linked, h.graceful⟩

/-- A step of the network keeps its ends. -/
theorem Ends.step (h : s.Ends links l' c') (henabled : (networkSystem links).enabled s a)
    (hlast : ShutsLast l' c' s a) (hexec : (networkSystem links).exec s a = .ok s') :
    s'.Ends links l' c' := by
  have hconveys := h.conveys.step henabled hexec
  have hcalls := h.conveys.socketCalls_kept henabled hexec l' c'
  obtain ⟨hlinked, hgraceful⟩ := h.graceful_step henabled hlast hexec
  refine ⟨hconveys, hlinked, hgraceful, fun l c hpeer hended => ?_⟩
  have hreceived := hconveys.received l c l' c' hpeer
  -- What was received before the step is all there is.
  have hall (hshut : .shutdownWrite ∈ ((s.loop l').run.loop.conn c').socketCalls)
      (hle : (s.accepted l' c').length ≤ ((s'.loop l).received c).length) :
      .shutdownWrite ∈ ((s'.loop l').run.loop.conn c').socketCalls ∧
        (s'.loop l).received c = s'.accepted l' c' := by
    have haccepted : s'.accepted l' c' = s.accepted l' c' :=
      accepted_of_shut hcalls hshut hgraceful.sealed
    refine ⟨hcalls.subset hshut, hreceived.eq_of_length_le ?_⟩
    rw [haccepted]
    exact hle
  obtain ⟨now, hnow, hloop, -⟩ := exec_eq_ok hexec
  have hgrows : ((s.loop l).received c).length ≤ ((s'.loop l).received c).length := by
    rw [hloop, Function.update_apply]
    split
    · rename_i hl
      subst hl
      rw [(h.conveys.kept a.loop).received_step henabled.1 hnow c, List.length_append]
      exact Nat.le_add_right ..
    · exact Nat.le_refl _
  by_cases hwas : s.Ended l c
  · obtain ⟨hshut, heq⟩ := h.ended l c hpeer hwas
    exact hall hshut (heq ▸ hgrows)
  · obtain ⟨e, he, rfl, hzero⟩ := hended
    rw [hloop, Function.update_apply] at he
    split at he
    · rename_i hl
      subst hl
      rcases (h.conveys.kept a.loop).reads_step henabled.1 hnow he with hold | ⟨r, hread, hend⟩
      · exact absurd ⟨e, hold, rfl, hzero⟩ hwas
      · have harrives := henabled.2
        rw [hread, hend hzero] at harrives
        simp only [Arrives, hpeer] at harrives
        obtain ⟨hshut, hle⟩ := harrives.2 trivial
        exact hall hshut (hle.trans hgrows)
    · exact absurd ⟨e, he, rfl, hzero⟩ hwas

instance (c : ι) (s : LoopRun ι) (a : LoopAction ι) : Decidable (LoopRun.ShutsLast c s a) :=
  inferInstanceAs (Decidable (_ ∧ _))

instance (l : Λ) (c : ι) (s : Network Λ ι) (a : NetworkAction Λ ι) :
    Decidable (ShutsLast l c s a) := by
  unfold ShutsLast
  generalize a.action = b
  apply @InputAction.casesOn _ _ b <;> intros <;> dsimp only <;> infer_instance

instance (l : Λ) (c : ι) (s : Network Λ ι) (a : NetworkAction Λ ι) :
    Decidable (((networkSystem links).restrict (ShutsLast l c)).enabled s a) :=
  inferInstanceAs (Decidable ((networkSystem links).enabled s a ∧ ShutsLast l c s a))

/-- Two loops, each with one connection, which are linked. -/
def oneLink : Links Bool Unit where
  peer l _ := some (!l, ())

/-- The two loops before their first step. -/
def apart : Network Bool Unit := ⟨fun _ => beforeInput, fun _ _ => []⟩

/-- The loop `true` sends two bytes, of which one is written. Another thread sends a third one and
shuts the connection down. -/
def sendThree : List (NetworkAction Bool Unit) :=
  [LoopAction.newConnection (), .send () [1, 2] (.room 1), .foreignSend () [3],
    .foreignShutdown ()].map fun a => ⟨true, .step a 0⟩

/-- The loop `true` writes the rest and shuts the socket down. -/
def writeRest : List (NetworkAction Bool Unit) :=
  [LoopAction.pollFailed, .doPendingFunctors, .runFunctor (.room 0), .runFunctor (.room 0),
    .batchDone, .poll [0x004], .handleEvent, .writeCallback (.room 9)].map
      fun a => ⟨true, .step a 0⟩

/-- The loop `false` reads what there is in one iteration. -/
def readOnce (arrived : List Byte) : List (NetworkAction Bool Unit) :=
  [LoopAction.poll [0x001], .handleEvent, .readCallback (.data arrived), .handled,
    .doPendingFunctors, .batchDone].map fun a => ⟨false, .step a 0⟩

/-- The first byte is read before the others are written, and then the rest up to the end. -/
def readAll : List (NetworkAction Bool Unit) :=
  sendThree ++ [⟨false, .step (.newConnection ()) 0⟩] ++ readOnce [1] ++ writeRest ++
    readOnce [2, 3] ++ [⟨false, .step (.poll [0x001]) 0⟩, ⟨false, .step .handleEvent 0⟩,
      ⟨false, .step (.readCallback (.data [])) 0⟩]

/-- Nothing has happened in them. -/
theorem apart_init : (networkSystem oneLink).init apart :=
  ⟨fun _ => ⟨⟨oneConnection_fresh, rfl, rfl⟩, rfl, rfl, rfl⟩, rfl⟩

/-- The other side has read all three bytes. -/
theorem received_as_sent_readAll : ∃ s : Network Bool Unit, (s.loop false).received () = [1, 2, 3] ∧
    ∃ order, InSendOrder order (s.sent true ()) ∧
      (s.loop false).received () <+: bytesOf order := by
  have hcheck : ((networkSystem oneLink).replay apart readAll).any
      (fun s => decide ((s.loop false).received () = [1, 2, 3])) = true := by decide +kernel
  obtain ⟨s, hrun, hs⟩ := System.exists_run_of_replay hcheck
  obtain ⟨order, horder, hreceived, -⟩ :=
    received_as_sent (l := false) (c := ()) ⟨_, _, apart_init, hrun⟩ rfl
  exact ⟨s, of_decide_eq_true hs, order, horder, hreceived⟩

end Network

end Dalin.Net
