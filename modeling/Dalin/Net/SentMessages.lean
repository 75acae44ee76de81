import Dalin.Library.SameOrder
import Dalin.Net.GracefulShutdown
import Dalin.Net.InputDelivery

/-!
# The order of the messages

The thread of the loop sends at once, and other threads send through the queue of
the loop, so messages may overtake each other on their way to the kernel. Those of
the loop's thread stay in order among themselves, and so do those of the others.
This holds over all runs, with a close of the connection, a shutdown or a failed
`::write` at any point.
-/

set_option autoImplicit false

namespace Dalin.Net

open SameOrder Transition

/-- Who calls `send`. -/
inductive Sender
  | loopThread
  | otherThread
  deriving DecidableEq

/-- A message that was handed to a connection. -/
structure SentMessage where
  sender : Sender
  message : List Byte
  deriving DecidableEq

/-- The bytes of some messages. -/
def bytesOf (messages : List SentMessage) : List Byte := messages.flatMap SentMessage.message

/-- The bytes of two lists of messages follow each other. -/
@[simp] theorem bytesOf_append (messages messages' : List SentMessage) :
    bytesOf (messages ++ messages') = bytesOf messages ++ bytesOf messages' := List.flatMap_append

/-- The bytes of one message. -/
@[simp] theorem bytesOf_singleton (m : SentMessage) : bytesOf [m] = m.message := by
  simp [bytesOf]

/-- The caller of `send` in a step. -/
def LoopAction.sender {ι : Type} : LoopAction ι → Sender
  | .foreignSend _ _ => .otherThread
  | _ => .loopThread

/-- The messages that a step hands to a connection. -/
def handedBy {ι : Type} (a : LoopAction ι) (before after : TcpConnection) : List SentMessage :=
  (after.handed.drop before.handed.length).map fun message => ⟨a.sender, message⟩

/-- A step that hands nothing over. -/
theorem handedBy_of_same {ι : Type} {a : LoopAction ι} {before after : TcpConnection}
    (h : after.handed = before.handed) : handedBy a before after = [] := by
  unfold handedBy
  rw [h, List.drop_length]
  rfl

/-- A step that hands one message over. -/
theorem handedBy_of_append {ι : Type} {a : LoopAction ι} {before after : TcpConnection}
    (message : List Byte) (h : after.handed = before.handed ++ [message]) :
    handedBy a before after = [⟨a.sender, message⟩] := by
  unfold handedBy
  rw [h, List.drop_left]
  rfl

/-- The messages of a queue. Only other threads queue them. -/
def waitingMessages {ι : Type} (functors : List (Functor ι)) : List SentMessage :=
  (queued functors).map fun message => ⟨.otherThread, message⟩

/-- The messages of functors that are queued later wait behind the others. -/
@[simp] theorem waitingMessages_append {ι : Type} (functors functors' : List (Functor ι)) :
    waitingMessages (functors ++ functors') =
      waitingMessages functors ++ waitingMessages functors' := by
  simp [waitingMessages, queued]

/-- A functor at the head of a queue that sends nothing. -/
theorem waitingMessages_cons_of_none {ι : Type} {f : Functor ι} (h : f.message = none)
    (functors : List (Functor ι)) : waitingMessages (f :: functors) = waitingMessages functors := by
  simp [waitingMessages, queued, h]

/-- A functor at the end of a queue that sends nothing. -/
theorem waitingMessages_append_of_none {ι : Type} {f : Functor ι} (h : f.message = none)
    (functors : List (Functor ι)) :
    waitingMessages (functors ++ [f]) = waitingMessages functors := by
  simp [waitingMessages, queued, h]

namespace ConnectionView

variable {ι : Type} {c : ι} {v v' : ConnectionView ι} {a : LoopAction ι}
  {sent order : List SentMessage}

/-- A connection that was handed these messages has taken them in this order, apart from those that
wait in the queue, and has passed on what it has taken. -/
structure Carries (v : ConnectionView ι) (sent order : List SentMessage) : Prop where
  buffer : v.conn.outputBuffer.Wf
  stream : v.conn.accepted ++ v.conn.outputBuffer.readable = bytesOf order
  merged : Merged SentMessage.sender (order ++ waitingMessages v.queue) sent

/-- A new connection. -/
theorem New.carries (h : v.New) : v.Carries [] [] := by
  have hconn := h.conn
  refine ⟨?_, ?_, ?_⟩
  · rw [hconn]
    exact Buffer.new_wf
  · rw [hconn]
    rfl
  · rw [h.queue]
    exact .refl _

/-- A change that neither hands anything over nor writes. -/
theorem Carries.quiet (h : v.Carries sent order)
    (houtput : v'.conn.outputBuffer = v.conn.outputBuffer)
    (haccepted : v'.conn.accepted = v.conn.accepted)
    (hqueue : waitingMessages v'.queue = waitingMessages v.queue) : v'.Carries sent order := by
  refine ⟨?_, ?_, ?_⟩
  · rw [houtput]
    exact h.buffer
  · rw [houtput, haccepted]
    exact h.stream
  · rw [hqueue]
    exact h.merged

/-- Calls of `shutdownWrite` carry no bytes. -/
theorem accepted_append_of_shut {conn conn' : TcpConnection} {calls : List SocketCall}
    (hcalls : conn'.socketCalls = conn.socketCalls ++ calls)
    (hshut : ∀ call ∈ calls, call = .shutdownWrite) : conn'.accepted = conn.accepted := by
  have hnone : calls.flatMap SocketCall.accepted = [] := by
    refine List.flatMap_eq_nil_iff.mpr fun call hcall => ?_
    rw [hshut call hcall]
    rfl
  unfold TcpConnection.accepted
  rw [hcalls, List.flatMap_append, hnone, List.append_nil]

/-- `shutdownInLoop` calls nothing else. -/
theorem shutdownCalls_eq (v : ConnectionView ι) : ∀ call ∈ v.shutdownCalls,
    call = .shutdownWrite := by
  unfold shutdownCalls
  split <;> simp

/-- `sendInLoop` takes its message. -/
theorem Carries.send (h : v.Carries sent order) {m : SentMessage} {r : WriteResult} {out : Buffer}
    (hwf : out.Wf)
    (hreadable : out.readable = v.conn.outputBuffer.readable ++ v.sendRest m.message r) :
    (v.send m.message r out).conn.outputBuffer.Wf ∧
      (v.send m.message r out).conn.accepted ++
        (v.send m.message r out).conn.outputBuffer.readable = bytesOf (order ++ [m]) := by
  rw [send_conn, bytesOf_append, bytesOf_singleton, ← h.stream]
  refine ⟨hwf, ?_⟩
  unfold TcpConnection.accepted
  simp only [List.flatMap_append, hreadable, List.append_assoc]
  congr 1
  unfold sendCalls sendRest
  by_cases hidle : v.Idle
  · have hempty := h.buffer.readableBytes_eq_zero_iff.mp hidle.2
    rw [if_pos hidle, if_pos hidle, hempty]
    simp [SocketCall.accepted]
  · rw [if_neg hidle, if_neg hidle]
    simp

/-- `handleWrite` passes on what it writes. -/
theorem Carries.write (h : v.Carries sent order) {r : WriteResult} {out : Buffer} (hwf : out.Wf)
    (hreadable : out.readable = v.conn.outputBuffer.readable.drop (v.writeReturned r).toNat) :
    (v.write r out).Carries sent order := by
  have hcalls : (v.writeCalls r).flatMap SocketCall.accepted =
      v.conn.outputBuffer.readable.take (v.writeReturned r).toNat := by
    unfold writeCalls
    split <;> simp [SocketCall.accepted]
  refine ⟨?_, ?_, ?_⟩
  · rwa [write_conn]
  · rw [write_conn, ← h.stream]
    unfold TcpConnection.accepted
    simp only [List.flatMap_append, List.append_assoc]
    rw [hcalls, hreadable, List.take_append_drop]
  · rw [(write_rest v r out).1]
    exact h.merged

/-- A step that hands nothing over and does not write. -/
theorem Carries.of_quiet (h : v.Carries sent order)
    (houtput : v'.conn.outputBuffer = v.conn.outputBuffer)
    (haccepted : v'.conn.accepted = v.conn.accepted) (hhanded : v'.conn.handed = v.conn.handed)
    (hqueue : waitingMessages v'.queue = waitingMessages v.queue) :
    ∃ order', v'.Carries (sent ++ handedBy a v.conn v'.conn) order' := by
  rw [handedBy_of_same hhanded, List.append_nil]
  exact ⟨order, h.quiet houtput haccepted hqueue⟩

/-- A close of the connection. -/
theorem waitingMessages_close (v : ConnectionView ι) (c : ι) :
    waitingMessages (v.close c).queue = waitingMessages v.queue := by
  unfold close
  rw [waitingMessages_append]
  split <;> simp [waitingMessages, queued, Functor.message]

/-- **The messages of a sender stay in order.** Every step of a loop keeps the messages of each of
its connections, together with those that it hands over. -/
theorem Carries.step (h : v.Carries sent order) (hstep : Step c v a v') :
    ∃ order', v'.Carries (sent ++ handedBy a v.conn v'.conn) order' := by
  cases hstep with
  | stutter | poll | handleEvent | errorCallback | read | writeIdle | handled | removeChannel
  | newConnection => exact h.of_quiet rfl rfl rfl rfl
  | closeCallback | readClose => exact h.of_quiet rfl rfl rfl (waitingMessages_close _ c)
  | write hactivity hwriting hpos hwf hreadable =>
    have hwrite := h.write hwf hreadable
    rw [handedBy_of_same (by simp), List.append_nil]
    exact ⟨order, hwrite.quiet rfl rfl rfl⟩
  | connectEstablished hactivity hwaiting hqueue =>
    refine h.of_quiet rfl rfl rfl ?_
    rw [hqueue, waitingMessages_cons_of_none rfl]
  | connectDestroyed hactivity hwaiting hqueue =>
    refine h.of_quiet rfl rfl rfl ?_
    rw [hqueue, waitingMessages_cons_of_none rfl]
  | shutdownInLoop hactivity hwaiting hqueue =>
    refine h.of_quiet rfl (accepted_append_of_shut rfl v.shutdownCalls_eq) rfl ?_
    rw [hqueue, waitingMessages_cons_of_none rfl]
  | @sendInLoop r message rest out hactivity hwaiting hqueue hwf hregistered hreadable =>
    obtain ⟨hbuffer, hstream⟩ := h.send (m := ⟨.otherThread, message⟩) hwf hreadable
    rw [handedBy_of_same (by simp), List.append_nil]
    refine ⟨order ++ [⟨.otherThread, message⟩], hbuffer, hstream, ?_⟩
    have hmerged := h.merged
    rw [hqueue] at hmerged
    rw [List.append_assoc]
    exact hmerged
  | @send message r out hstate hwf hreadable =>
    have hmodify : Carries (v.modify fun conn => { conn with handed := conn.handed ++ [message] })
        sent order := ⟨h.buffer, h.stream, h.merged⟩
    obtain ⟨hbuffer, hstream⟩ := hmodify.send (m := ⟨.loopThread, message⟩) hwf hreadable
    have hhanded : handedBy (.send c message r) v.conn ((v.modify fun conn =>
        { conn with handed := conn.handed ++ [message] }).send message r out).conn =
          [⟨.loopThread, message⟩] := by
      refine handedBy_of_append message ?_
      rw [send_conn]
      rfl
    rw [hhanded]
    refine ⟨order ++ [⟨.loopThread, message⟩], hbuffer, hstream, ?_⟩
    rw [(send_rest _ message r out).1]
    refine h.merged.overtake fun m hm => ?_
    obtain ⟨message', -, rfl⟩ := List.mem_map.mp hm
    exact fun heq => by cases heq
  | shutdown =>
    exact h.of_quiet rfl (accepted_append_of_shut rfl v.shutdownCalls_eq) rfl
      (congrArg waitingMessages (List.append_nil _))
  | @foreignSend message hstate =>
    rw [handedBy_of_append message rfl]
    refine ⟨order, h.buffer, h.stream, ?_⟩
    change Merged _ (order ++ waitingMessages (v.queue ++ [.sendInLoop c message])) _
    rw [waitingMessages_append, ← List.append_assoc]
    exact h.merged.append _
  | foreignShutdown =>
    refine h.of_quiet rfl (accepted_append_of_shut rfl fun _ hnil => (by cases hnil)) rfl ?_
    exact waitingMessages_append_of_none rfl _
  | foreignNewConnection =>
    exact h.of_quiet rfl rfl rfl (waitingMessages_append_of_none rfl _)
  | removeConnectionInLoop =>
    exact h.of_quiet rfl rfl rfl (waitingMessages_append_of_none rfl _)

/-- The calls on a socket are never taken back. -/
theorem socketCalls_kept (hstep : Step c v a v') : v.conn.socketCalls <+: v'.conn.socketCalls := by
  cases hstep with
  | write =>
    rw [write_conn]
    exact List.prefix_append ..
  | sendInLoop =>
    change _ <+: (ConnectionView.send ..).conn.socketCalls
    rw [send_conn]
    exact List.prefix_append ..
  | send =>
    rw [send_conn]
    exact List.prefix_append ..
  | shutdownInLoop | shutdown | foreignShutdown => exact List.prefix_append ..
  | _ => exact List.prefix_rfl

end ConnectionView

end Dalin.Net
