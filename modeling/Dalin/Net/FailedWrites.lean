import Dalin.Net.CloseOnce
import Dalin.Net.RemovedChannel

/-!
# Failed writes

What a `::write` that accepts no byte does to the process. `sendInLoop` keeps the
whole message and asks for write events, so one failed connection does not harm
the others. This file puts together what is known of the functions that use the
socket: none of them fails, where `handleWrite` gets some bytes out, reads end a
connection once, and no late send touches a removed channel.
-/

set_option autoImplicit false

namespace Dalin.Net

open Transition

namespace IoLoop

variable {ι : Type} [DecidableEq ι] {l l' : IoLoop ι} {c : ι}

/-- A direct `::write` that accepts nothing leaves the whole message in the output buffer,
asks for write events if there is something in it, and does not touch other connections. -/
theorem sendInLoop_of_refused {message : List Byte} {r : WriteResult} (hwf : l.Wf)
    (h : l.sendInLoop c message r = .ok l') (hrefused : r.returned message.length ≤ 0) :
    (l'.conn c).outputBuffer.readable = (l.conn c).outputBuffer.readable ++ message ∧
      l'.isWriting c = (l.isWriting c || !message.isEmpty) ∧
      ∀ c', c' ≠ c → Apart l l' c' := by
  have hstep := sendInLoop_eq_ok hwf.poller (hwf.buffers c).2 h
  obtain ⟨_, hpoller⟩ := wf_of_poller hwf.poller hstep.poller
  have hrest : l.sendRest c message r = message := by
    unfold sendRest
    split
    · rw [Int.toNat_of_nonpos hrefused]
      rfl
    · rfl
  refine ⟨?_, ?_, fun c' hne => hstep.toOutputStep.apart hne hwf.poller hpoller⟩
  · rw [hstep.readable, hrest]
  · have hset := hstep.poller
    rw [hrest] at hset
    by_cases hask : message ≠ [] ∧ l.isWriting c = false
    · rw [if_pos hask] at hset
      have hwriting : l'.isWriting c = true := hset.isWriting
      rw [hwriting, hask.2]
      simp [hask.1]
    · rw [if_neg hask] at hset
      have hwriting : l'.isWriting c = l.isWriting c := by
        unfold isWriting channel
        rw [hset]
      rw [hwriting]
      cases message with
      | nil => simp
      | cons => simpa using hask

end IoLoop

namespace LoopRun

variable {ι : Type} [DecidableEq ι] {s s' : LoopRun ι} {a : LoopAction ι}

/-- `handleWrite` gets some bytes out when it calls `::write`. -/
def WritesAccepted (s : LoopRun ι) (a : LoopAction ι) : Prop :=
  match a, s.phase with
  | .writeCallback r, .handling c _ _ =>
    s.loop.isWriting c = true → 0 < s.loop.writeReturned c r
  | _, _ => True

/-- No `handleWrite` fails to get bytes out, no read ends a connection twice, and no late
send leaves bytes. -/
def Benign (s : LoopRun ι) (a : LoopAction ι) : Prop :=
  WritesAccepted s a ∧ EndsOnce s a ∧ LeavesNothing s a

instance (s : LoopRun ι) (a : LoopAction ι) : Decidable (Benign s a) := by
  unfold Benign WritesAccepted
  refine @instDecidableAnd _ _ ?_ _
  generalize s.phase = phase
  apply @LoopAction.casesOn _ _ a <;> intros <;> apply @Phase.casesOn _ _ phase <;> intros <;>
    infer_instance

instance (s : LoopRun ι) (a : LoopAction ι) :
    Decidable (((loopSystem ι).restrict Benign).enabled s a) :=
  inferInstanceAs (Decidable (LoopRun.enabledIn .. ∧ Benign s a))

/-- The step runs `sendInLoop` with this message. -/
def RunsSend (s : LoopRun ι) (a : LoopAction ι) (c : ι) (message : List Byte) (r : WriteResult) :
    Prop :=
  (a = .send c message r ∧ (s.loop.conn c).state = .kConnected) ∨
    (a = .runFunctor r ∧ ∃ rest, s.phase = .running (.sendInLoop c message :: rest))

/-- The step runs `sendInLoop`, `handleRead`, `handleWrite`, `handleClose` or `handleError`. -/
def UsesSocket (s : LoopRun ι) (a : LoopAction ι) : Prop :=
  (∃ cb, callbackOf a = some cb) ∨ ∃ c message r, RunsSend s a c message r

/-- A connection that runs `sendInLoop` does so successfully. -/
theorem exists_exec_of_runsSend {c : ι} {message : List Byte} {r : WriteResult}
    (h : ((loopSystem ι).restrict LeavesNothing).Reachable s) (hleaves : LeavesNothing s a)
    (hruns : RunsSend s a c message r) : ∃ s', (loopSystem ι).exec s a = .ok s' := by
  obtain ⟨hwf, hall⟩ := retired_of_reachable h
  obtain ⟨⟨hlinked, hplaced⟩, hretired⟩ := hall c
  obtain ⟨l, φ, u⟩ := s
  rcases hruns with ⟨rfl, hstate⟩ | ⟨rfl, rest, hphase⟩
  · have hwf' : (l.modifyConn c fun conn => { conn with handed := conn.handed ++ [message] }).Wf :=
      hwf.modifyConn (hwf.buffers c)
    obtain ⟨l', hok⟩ := IoLoop.exists_sendInLoop message r hwf'.poller (hwf'.buffers c).2 fun _ =>
      registered_of_open hplaced (Or.inl hstate)
    exact ⟨_, bind_eq_ok.mpr ⟨l', (if_pos hstate).trans hok, rfl⟩⟩
  · cases hphase
    obtain ⟨l', hok⟩ := exists_sendInLoop_next hwf hlinked hplaced hretired hleaves
    exact ⟨_, bind_eq_ok.mpr ⟨l', hok, rfl⟩⟩

/-- A handler succeeds if its `::write` gets bytes out and it does not end a connection
twice. -/
theorem exists_exec_of_callback {cb : Callback}
    (h : ((loopSystem ι).restrict EndsOnce).Reachable s) (henabled : (loopSystem ι).enabled s a)
    (hends : EndsOnce s a) (haccepted : WritesAccepted s a) (ha : callbackOf a = some cb) :
    ∃ s', (loopSystem ι).exec s a = .ok s' := by
  obtain ⟨hwf, hall⟩ := silenced_of_reachable h
  cases a with
  | closeCallback => exact exists_exec_of_mayClose h rfl ⟨henabled, hends⟩
  | readCallback r => exact exists_exec_of_mayClose h rfl ⟨henabled, hends⟩
  | errorCallback =>
    obtain ⟨l, φ, u⟩ := s
    obtain ⟨c, rest, active, rfl⟩ := phase_of_callback henabled rfl
    exact ⟨_, rfl⟩
  | writeCallback r =>
    obtain ⟨l, φ, u⟩ := s
    obtain ⟨c, rest, active, rfl⟩ := phase_of_callback henabled rfl
    have hregistered := registered_of_handling (hall c).1.2
    have hwrite : ∃ l', l.handleWrite c r = .ok l' := by
      cases hwriting : l.isWriting c with
      | false =>
        unfold IoLoop.handleWrite
        rw [hwriting, if_neg Bool.false_ne_true]
        exact ⟨l, rfl⟩
      | true =>
        exact IoLoop.exists_handleWrite hwf.poller (hwf.buffers c).2 hregistered hwriting
          (haccepted hwriting)
    obtain ⟨l', hok⟩ := hwrite
    exact ⟨_, bind_eq_ok.mpr ⟨l', hok, rfl⟩⟩
  | _ => cases ha

/-- What a `::write` of `sendInLoop` that accepts nothing does in a step. -/
theorem view_of_refused {c : ι} {message : List Byte} {r : WriteResult} (hwf : s.loop.Wf)
    (hruns : RunsSend s a c message r) (hrefused : r.returned message.length ≤ 0)
    (hok : (loopSystem ι).exec s a = .ok s') :
    (s'.loop.conn c).outputBuffer.readable = (s.loop.conn c).outputBuffer.readable ++ message ∧
      s'.loop.isWriting c = (s.loop.isWriting c || !message.isEmpty) ∧
      ∀ c', c' ≠ c → s'.view c' = s.view c' := by
  obtain ⟨l, φ, u⟩ := s
  rcases hruns with ⟨rfl, hstate⟩ | ⟨rfl, rest, hphase⟩
  · change (l.send true c message r >>= _) = _ at hok
    rw [bind_eq_ok] at hok
    obtain ⟨l', hsend, heq⟩ := hok
    cases heq
    have hwf' : (l.modifyConn c fun conn => { conn with handed := conn.handed ++ [message] }).Wf :=
      hwf.modifyConn (hwf.buffers c)
    obtain ⟨hbuffer, hwriting, hothers⟩ :=
      IoLoop.sendInLoop_of_refused hwf' ((if_pos hstate).symm.trans hsend) hrefused
    rw [IoLoop.modifyConn_conn_self] at hbuffer
    exact ⟨hbuffer, hwriting, fun c' hne =>
      view_of_apart ((IoLoop.apart_modifyConn l hne _).trans (hothers c' hne))⟩
  · cases hphase
    change (l.sendInLoop c message r >>= _) = _ at hok
    rw [bind_eq_ok] at hok
    obtain ⟨l', hsend, heq⟩ := hok
    cases heq
    obtain ⟨hbuffer, hwriting, hothers⟩ := IoLoop.sendInLoop_of_refused hwf hsend hrefused
    exact ⟨hbuffer, hwriting, fun c' hne =>
      view_functor_of_ne (Functor.connection_ne rfl hne) (hothers c' hne)⟩

/-- **Failed socket operations are survived.** In every run that is benign, no step of
`sendInLoop`, `handleRead`, `handleWrite`, `handleClose` or `handleError` ends the process,
whatever the results of the direct writes and of the reads. A `::write` of `sendInLoop`
that accepts nothing leaves the buffered bytes, puts the message behind them, asks for
write events if there is a message, and leaves every other connection as it was. -/
theorem failed_write_survived (h : ((loopSystem ι).restrict Benign).Reachable s) :
    (∀ a, UsesSocket s a → ((loopSystem ι).restrict Benign).enabled s a →
      ∃ s', (loopSystem ι).exec s a = .ok s') ∧
    ∀ a c message r s', RunsSend s a c message r → r.returned message.length ≤ 0 →
      (loopSystem ι).exec s a = .ok s' →
      (s'.loop.conn c).outputBuffer.readable =
          (s.loop.conn c).outputBuffer.readable ++ message ∧
        s'.loop.isWriting c = (s.loop.isWriting c || !message.isEmpty) ∧
        ∀ c', c' ≠ c → s'.view c' = s.view c' := by
  have hends : ((loopSystem ι).restrict EndsOnce).Reachable s := h.mono fun _ _ hG => hG.2.1
  have hleaves : ((loopSystem ι).restrict LeavesNothing).Reachable s :=
    h.mono fun _ _ hG => hG.2.2
  constructor
  · rintro a (⟨cb, ha⟩ | ⟨c, message, r, hruns⟩) ⟨henabled, hbenign⟩
    · exact exists_exec_of_callback hends henabled hbenign.2.1 hbenign.1 ha
    · exact exists_exec_of_runsSend hleaves hbenign.2.2 hruns
  · intro a c message r s' hruns hrefused hok
    exact view_of_refused (retired_of_reachable hleaves).1 hruns hrefused hok

/-- The loop has established its connection, and a direct `::write` of one byte fails. -/
def failedSend : List (LoopAction Unit) := [.newConnection (), .send () [7] (.failed 32)]

/-- The connection after that failure is writing, and its handler gets the byte out. -/
theorem failed_write_survived_failedSend :
    ∃ s s', ((loopSystem Unit).restrict Benign).Reachable s ∧
      (loopSystem Unit).exec s (.send () [7] (.failed 32)) = .ok s' ∧
      (s'.loop.conn ()).outputBuffer.readable = (s.loop.conn ()).outputBuffer.readable ++ [7] := by
  have hcheck : (((loopSystem Unit).restrict Benign).replay ⟨oneConnection, .polling, true⟩
      [.newConnection ()]).any (fun s => decide ((s.loop.conn ()).state = .kConnected ∧
        ((loopSystem Unit).restrict Benign).enabled s (.send () [7] (.failed 32)))) = true := by
    decide +kernel
  obtain ⟨s, hrun, hs⟩ := System.exists_run_of_replay hcheck
  obtain ⟨hstate, henabled⟩ := of_decide_eq_true hs
  have hreach : ((loopSystem Unit).restrict Benign).Reachable s :=
    ⟨_, _, ⟨oneConnection_fresh, rfl, rfl⟩, hrun⟩
  have hruns : RunsSend s (.send () [7] (.failed 32)) () [7] (.failed 32) :=
    Or.inl ⟨rfl, hstate⟩
  obtain ⟨hsafe, hrefused⟩ := failed_write_survived hreach
  obtain ⟨s', hok⟩ := hsafe _ (Or.inr ⟨_, _, _, hruns⟩) henabled
  exact ⟨s, s', hreach, hok, (hrefused _ _ _ _ _ hruns (by decide) hok).1⟩

/-- A direct `::write` that fails is not without effect: it fills the output buffer and asks
for write events. When the next `::write` fails too, `handleWrite` calls `abort`. -/
theorem failed_write_aborts :
    ∃ s, (loopSystem Unit).Run ⟨oneConnection, .polling, true⟩
        (failedSend ++ [LoopAction.poll [0x004], .handleEvent]) s ∧
      (s.loop.conn ()).outputBuffer.readable = [7] ∧ s.loop.isWriting () = true ∧
      (loopSystem Unit).enabled s (.writeCallback (.failed 32)) ∧
      (loopSystem Unit).exec s (.writeCallback (.failed 32)) =
        .error (.abort "Failed in TcpConnection::handleWrite()") := by
  have hcheck : ((loopSystem Unit).replay ⟨oneConnection, .polling, true⟩
      (failedSend ++ [LoopAction.poll [0x004], .handleEvent])).any (fun s =>
        decide ((s.loop.conn ()).outputBuffer.readable = [7] ∧ s.loop.isWriting () = true ∧
          (loopSystem Unit).enabled s (.writeCallback (.failed 32)) ∧
          (loopSystem Unit).exec s (.writeCallback (.failed 32)) =
            .error (.abort "Failed in TcpConnection::handleWrite()"))) = true := by
    decide +kernel
  obtain ⟨s, hrun, hs⟩ := System.exists_run_of_replay hcheck
  exact ⟨s, hrun, of_decide_eq_true hs⟩

end LoopRun

end Dalin.Net
