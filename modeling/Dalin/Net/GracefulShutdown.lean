import Dalin.Net.ConnectionLife

/-!
# Shutdown after send

Another thread hands messages to a connection and then shuts it down. Both go
through the queue of the loop, in order, but `state_` changes at once: when
`handleWrite` drains the buffer and finds `kDisconnecting`, it shuts the socket
down although messages may still be queued. Where that does not happen, the
socket is shut down only after all that was handed over, and then not written.
-/

set_option autoImplicit false

namespace Dalin.Net

open Transition

/-- The message of a queued `sendInLoop`. -/
def Functor.message {ι : Type} : Functor ι → Option (List Byte)
  | .sendInLoop _ message => some message
  | _ => none

/-- The messages that wait in a queue. -/
def queued {ι : Type} (functors : List (Functor ι)) : List (List Byte) :=
  functors.filterMap Functor.message

/-- No functor of a queue sends anything. -/
theorem queued_eq_nil_iff {ι : Type} {functors : List (Functor ι)} :
    queued functors = [] ↔ ∀ f ∈ functors, f.message = none := List.filterMap_eq_nil_iff

/-- Functors that send nothing do not add to the waiting messages. -/
theorem queued_append_of_none {ι : Type} {f : Functor ι} (h : f.message = none)
    (functors : List (Functor ι)) : queued (functors ++ [f]) = queued functors := by
  unfold queued
  rw [List.filterMap_append, List.filterMap_cons_none h]
  exact List.append_nil _

/-- A `::write`, whatever it returned. -/
def SocketCall.isWrite : SocketCall → Bool
  | write _ _ => true
  | shutdownWrite => false

namespace ConnectionView

variable {ι : Type} {c : ι} {v v' : ConnectionView ι} {a : LoopAction ι}

/-- No `::write` follows a `shutdownWrite`. -/
def Sealed (calls : List SocketCall) : Prop :=
  calls.Pairwise fun call call' => call = .shutdownWrite → call'.isWrite = false

/-- More calls on a socket that was not shut down before. -/
theorem Sealed.append {calls calls' : List SocketCall} (h : Sealed calls) (h' : Sealed calls')
    (hnot : .shutdownWrite ∉ calls) : Sealed (calls ++ calls') := by
  refine List.pairwise_append.mpr ⟨h, h', fun call hmem call' _ => ?_⟩
  rintro rfl
  exact absurd hmem hnot

/-- The socket may be shut down again. -/
theorem Sealed.shutdown {calls calls' : List SocketCall} (h : Sealed calls)
    (h' : ∀ call ∈ calls', call = .shutdownWrite) : Sealed (calls ++ calls') := by
  refine List.pairwise_append.mpr ⟨h, ?_, fun call _ call' hmem _ => ?_⟩
  · refine List.pairwise_of_forall_mem_list fun call _ call' hmem _ => ?_
    rw [h' call' hmem]
    rfl
  · rw [h' call' hmem]
    rfl

/-- The output of a connection that has taken these messages. -/
structure Streams (v : ConnectionView ι) (given : List (List Byte)) : Prop where
  buffer : v.conn.outputBuffer.Wf
  stream : v.conn.accepted ++ v.conn.outputBuffer.readable = given.flatten
  writing : v.slot.isWriting = true ↔ v.conn.outputBuffer.readable ≠ []

/-- Nothing is in the output queue exactly if the buffer is empty. -/
theorem Streams.idle_iff {given : List (List Byte)} (h : v.Streams given) :
    v.Idle ↔ v.conn.outputBuffer.readable = [] := by
  unfold Idle
  rw [h.buffer.readableBytes_eq_zero_iff]
  constructor
  · exact And.right
  · intro hempty
    refine ⟨Bool.eq_false_iff.mpr fun hwriting => ?_, hempty⟩
    exact h.writing.mp hwriting hempty

/-- An interest call on the read bit does not concern the output. -/
theorem Streams.interest {given : List (List Byte)} (h : v.Streams given) {i : Interest}
    (hwriting : ∀ w, i.writing w = w) : (v.interest i).Streams given := by
  refine ⟨h.buffer, h.stream, ?_⟩
  have hsame : (v.interest i).slot.isWriting = v.slot.isWriting := by
    rw [← hwriting v.slot.isWriting]
    exact Channel.isWriting_apply i v.slot.events
  rw [hsame]
  exact h.writing

/-- `sendInLoop` takes its message. -/
theorem Streams.send {given : List (List Byte)} (h : v.Streams given) {message : List Byte}
    {r : WriteResult} {out : Buffer} (hwf : out.Wf)
    (hreadable : out.readable = v.conn.outputBuffer.readable ++ v.sendRest message r) :
    (v.send message r out).Streams (given ++ [message]) := by
  refine ⟨?_, ?_, ?_⟩
  · rwa [send_conn]
  · have hstream : v.conn.accepted ++ ((v.sendCalls message r).flatMap SocketCall.accepted ++
        out.readable) = given.flatten ++ message := by
      rw [hreadable, ← h.stream]
      unfold sendCalls sendRest
      by_cases hidle : v.Idle
      · rw [if_pos hidle, if_pos hidle, h.idle_iff.mp hidle]
        simp [SocketCall.accepted]
      · rw [if_neg hidle, if_neg hidle]
        simp
    rw [send_conn, List.flatten_append, List.flatten_singleton, ← hstream]
    unfold TcpConnection.accepted
    simp only [List.flatMap_append, List.append_assoc]
  · rw [send_conn, send_slot]
    change _ ↔ out.readable ≠ []
    rw [hreadable]
    by_cases hask : v.sendRest message r ≠ [] ∧ v.slot.isWriting = false
    · rw [if_pos hask]
      have hnow : (v.slot.interest .enableWriting).isWriting = true :=
        Channel.isWriting_apply .enableWriting v.slot.events
      simp [hnow, hask.1]
    · rw [if_neg hask, h.writing]
      constructor
      · exact fun hne => List.append_ne_nil_of_left_ne_nil hne _
      · intro hne hempty
        have hrest : v.sendRest message r ≠ [] := by rwa [hempty, List.nil_append] at hne
        have hsilent : v.slot.isWriting = false :=
          Bool.eq_false_iff.mpr fun hwriting => h.writing.mp hwriting hempty
        exact hask ⟨hrest, hsilent⟩

/-- A `::write` of `handleWrite` empties the buffer exactly if it drains it. -/
theorem readable_eq_nil_iff {r : WriteResult} {out : Buffer} (hpos : 0 < v.writeReturned r)
    (hreadable : out.readable = v.conn.outputBuffer.readable.drop (v.writeReturned r).toNat) :
    out.readable = [] ↔ v.Drains r := by
  have hle := r.returned_le v.conn.outputBuffer.readable.length
  rw [hreadable, List.drop_eq_nil_iff]
  unfold Drains writeReturned at *
  omega

/-- `handleWrite` moves bytes from the buffer to the kernel. -/
theorem Streams.write {given : List (List Byte)} (h : v.Streams given) {r : WriteResult}
    {out : Buffer} (hwriting : v.slot.isWriting = true) (hpos : 0 < v.writeReturned r)
    (hwf : out.Wf)
    (hreadable : out.readable = v.conn.outputBuffer.readable.drop (v.writeReturned r).toNat) :
    (v.write r out).Streams given := by
  have hempty := readable_eq_nil_iff hpos hreadable
  have hcalls : (v.writeCalls r).flatMap SocketCall.accepted =
      v.conn.outputBuffer.readable.take (v.writeReturned r).toNat := by
    unfold writeCalls
    split <;> simp [SocketCall.accepted]
  refine ⟨?_, ?_, ?_⟩
  · rwa [write_conn]
  · rw [write_conn]
    unfold TcpConnection.accepted
    simp only [List.flatMap_append, List.append_assoc]
    rw [hcalls, hreadable, List.take_append_drop]
    exact h.stream
  · rw [write_conn, write_slot]
    change _ ↔ out.readable ≠ []
    rw [ne_eq, hempty]
    by_cases hdrains : v.Drains r
    · rw [if_pos hdrains]
      have hnow : (v.slot.interest .disableWriting).isWriting = false :=
        Channel.isWriting_apply .disableWriting v.slot.events
      simp [hnow, hdrains]
    · rw [if_neg hdrains]
      simp [hwriting, hdrains]

/-- What holds of a connection that is never closed and is shut down by other threads. -/
structure Graceful (c : ι) (v : ConnectionView ι) : Prop where
  unclosed : v.conn.closes = 0
  streams : ∃ given, (given ++ queued v.queue).Perm v.conn.handed ∧ v.Streams given
  order : v.queue.Pairwise fun f g => f = .shutdownInLoop c → g.message = none
  requested : .shutdownInLoop c ∈ v.queue →
    v.conn.state ≠ .kConnecting ∧ v.conn.state ≠ .kConnected
  shut : .shutdownWrite ∈ v.conn.socketCalls →
    (v.conn.state ≠ .kConnecting ∧ v.conn.state ≠ .kConnected) ∧ queued v.queue = [] ∧
      v.conn.outputBuffer.readable = []
  sealed : Sealed v.conn.socketCalls

/-- Everything handed over is accepted once the socket is shut down. -/
theorem Graceful.accepted (h : Graceful c v) (hshut : .shutdownWrite ∈ v.conn.socketCalls) :
    ∃ order : List (List Byte), order.Perm v.conn.handed ∧ v.conn.accepted = order.flatten := by
  obtain ⟨given, hperm, hstreams⟩ := h.streams
  obtain ⟨_, hnone, hempty⟩ := h.shut hshut
  refine ⟨given, ?_, ?_⟩
  · rwa [hnone, List.append_nil] at hperm
  · rw [← hstreams.stream, hempty, List.append_nil]

/-- A step that does not concern the output. -/
theorem Graceful.of_same (h : Graceful c v) (hconn : v'.conn = v.conn)
    (hwriting : v'.slot.isWriting = v.slot.isWriting) (hqueue : v'.queue = v.queue) :
    Graceful c v' := by
  obtain ⟨hunclosed, ⟨given, hperm, hbuffer, hstream, hw⟩, horder, hrequested, hshut, hsealed⟩ := h
  rw [← hconn] at hunclosed hperm hbuffer hstream hw hrequested hshut hsealed
  rw [← hqueue] at hperm horder hrequested hshut
  rw [← hwriting] at hw
  exact ⟨hunclosed, ⟨given, hperm, hbuffer, hstream, hw⟩, horder, hrequested, hshut, hsealed⟩

/-- A connection that is not established yet, or connected, was not shut down. -/
theorem Graceful.not_mem (h : Graceful c v)
    (hstate : v.conn.state = .kConnecting ∨ v.conn.state = .kConnected) :
    .shutdownWrite ∉ v.conn.socketCalls := by
  intro hmem
  obtain ⟨⟨hconnecting, hconnected⟩, _⟩ := h.shut hmem
  rcases hstate with heq | heq
  · exact hconnecting heq
  · exact hconnected heq

/-- The connection becomes connected. -/
theorem Graceful.establish (h : Graceful c v) (hstate : v.conn.state = .kConnecting)
    {queue : List (Functor ι)} (hqueued : queued queue = queued v.queue)
    (hsub : queue.Sublist v.queue) : Graceful c { v.establish with queue := queue } := by
  have hnot := h.not_mem (Or.inl hstate)
  obtain ⟨hunclosed, ⟨given, hperm, hstreams⟩, horder, hrequested, _, hsealed⟩ := h
  have hmodify : (v.modify fun conn => { conn with state := .kConnected }).Streams given :=
    ⟨hstreams.buffer, hstreams.stream, hstreams.writing⟩
  have hinterest := hmodify.interest (i := .enableReading) fun _ => rfl
  refine ⟨hunclosed, ⟨given, hqueued ▸ hperm, ?_⟩, horder.sublist hsub, fun hmem => ?_,
    fun hmem => absurd hmem hnot, hsealed⟩
  · exact ⟨hinterest.buffer, hinterest.stream, hinterest.writing⟩
  · exact absurd hstate (hrequested (hsub.subset hmem)).1

/-- A `sendInLoop` of a connection whose socket was not shut down. -/
theorem Graceful.send {given rest : List (List Byte)} {message : List Byte} {r : WriteResult}
    {out : Buffer} (hunclosed : v.conn.closes = 0) (hstreams : v.Streams given)
    (hperm : (given ++ message :: rest).Perm v.conn.handed)
    (hqueued : queued v.queue = rest)
    (horder : v.queue.Pairwise fun f g => f = .shutdownInLoop c → g.message = none)
    (hrequested : .shutdownInLoop c ∈ v.queue →
      v.conn.state ≠ .kConnecting ∧ v.conn.state ≠ .kConnected)
    (hnot : .shutdownWrite ∉ v.conn.socketCalls) (hsealed : Sealed v.conn.socketCalls)
    (hwf : out.Wf)
    (hreadable : out.readable = v.conn.outputBuffer.readable ++ v.sendRest message r) :
    Graceful c (v.send message r out) := by
  have hcalls : Sealed (v.sendCalls message r) ∧ .shutdownWrite ∉ v.sendCalls message r := by
    unfold sendCalls
    split
    · exact ⟨List.pairwise_singleton .., by simp⟩
    · exact ⟨.nil, List.not_mem_nil⟩
  refine ⟨by simpa using hunclosed, ⟨given ++ [message], ?_, hstreams.send hwf hreadable⟩, ?_, ?_,
    fun hmem => ?_, ?_⟩
  · simpa [hqueued] using hperm
  · simpa using horder
  · simpa using hrequested
  · simp only [send_conn, List.mem_append] at hmem
    rcases hmem with hmem | hmem
    · exact absurd hmem hnot
    · exact absurd hmem hcalls.2
  · simpa using hsealed.append hcalls.1 hnot

/-- Every step keeps the shutdown graceful, if the connection is not closed, only other
threads shut it down, and `handleWrite` does not shut the socket down while messages are
queued. -/
theorem Graceful.step [DecidableEq ι] (h : Graceful c v) (hlinked : Linked c v)
    (hstep : Step c v a v')
    (hclose : ∀ rest, v.activity = .handling (.close :: rest) → a ≠ .closeCallback)
    (hread : ∀ rest r, v.activity = .handling (.read :: rest) → a = .readCallback r →
      IoLoop.endOfStream r = false)
    (hshutdown : a ≠ .shutdown c)
    (hdrain : ∀ rest r, v.activity = .handling (.write :: rest) → a = .writeCallback r →
      v.slot.isWriting = true → v.Drains r → v.conn.state = .kDisconnecting →
        queued v.queue = []) : Graceful c v' := by
  have hall := h
  obtain ⟨hunclosed, ⟨given, hperm, hstreams⟩, horder, hrequested, hshut, hsealed⟩ := h
  cases hstep with
  | stutter => exact hall
  | poll | handleEvent | errorCallback | writeIdle | handled | removeChannel =>
    exact hall.of_same rfl rfl rfl
  | closeCallback hact => exact absurd rfl (hclose _ hact)
  | readClose hact hend =>
    rw [hread _ _ hact rfl] at hend
    cases hend
  | read =>
    exact ⟨hunclosed, ⟨given, hperm, hstreams.buffer, hstreams.stream, hstreams.writing⟩, horder,
      hrequested, hshut, hsealed⟩
  | @write rest r out hact hwriting hpos hwf hreadable =>
    have hnot : .shutdownWrite ∉ v.conn.socketCalls := fun hmem =>
      hstreams.writing.mp hwriting (hshut hmem).2.2
    have hcalls : Sealed (v.writeCalls r) := by
      unfold writeCalls
      split
      · exact List.pairwise_pair.mpr fun heq => (by cases heq)
      · exact List.pairwise_singleton ..
    have hs := hstreams.write hwriting hpos hwf hreadable
    refine ⟨by simpa using hunclosed,
      ⟨given, by simpa using hperm, hs.buffer, hs.stream, hs.writing⟩, by simpa using horder,
      by simpa using hrequested, fun hmem => ?_, ?_⟩
    · simp only [write_conn, List.mem_append] at hmem
      obtain ⟨hdrains, hstate⟩ : v.Drains r ∧ v.conn.state = .kDisconnecting := by
        by_contra hno
        rcases hmem with hmem | hmem
        · exact hnot hmem
        · simp [writeCalls, hno] at hmem
      refine ⟨by simp [hstate], ?_, ?_⟩
      · simpa using hdrain _ _ hact rfl hwriting hdrains hstate
      · simpa using (readable_eq_nil_iff hpos hreadable).mpr hdrains
    · simpa using hsealed.append hcalls hnot
  | connectEstablished hact hwait hqueue hstate =>
    refine hall.establish hstate ?_ ?_
    · rw [hqueue]
      rfl
    · rw [hqueue]
      exact List.sublist_cons_self ..
  | @sendInLoop r message rest out hact hwait hqueue hwf hregistered hreadable =>
    have hnot : .shutdownWrite ∉ v.conn.socketCalls := by
      intro hmem
      have := (hshut hmem).2.1
      rw [hqueue] at this
      cases this
    rw [hqueue] at horder hrequested hperm
    rw [← send_queue]
    exact .send (v := { v with queue := rest }) hunclosed
      ⟨hstreams.buffer, hstreams.stream, hstreams.writing⟩ hperm rfl
      (List.pairwise_cons.mp horder).2
      (fun hmem => hrequested (List.mem_cons_of_mem _ hmem)) hnot hsealed hwf hreadable
  | @shutdownInLoop r rest hact hwait hqueue =>
    rw [hqueue] at horder hrequested hperm
    have hstate := hrequested List.mem_cons_self
    have hnone : queued rest = [] :=
      queued_eq_nil_iff.mpr fun g hg => (List.pairwise_cons.mp horder).1 g hg rfl
    have honly : ∀ call ∈ v.shutdownCalls, call = .shutdownWrite := by
      unfold shutdownCalls
      split <;> simp
    have haccepted : v.shutdownCalls.flatMap SocketCall.accepted = [] := by
      unfold shutdownCalls
      split <;> rfl
    refine ⟨hunclosed, ⟨given, hperm, hstreams.buffer, ?_, hstreams.writing⟩,
      (List.pairwise_cons.mp horder).2, fun _ => hstate, fun hmem => ⟨hstate, hnone, ?_⟩,
      hsealed.shutdown honly⟩
    · unfold output modify TcpConnection.accepted
      simp only [List.flatMap_append, haccepted, List.append_nil]
      exact hstreams.stream
    · by_contra hne
      have hwriting := hstreams.writing.mpr hne
      have hnil : v.shutdownCalls = [] := by simp [shutdownCalls, hwriting]
      simp only [output, modify, hnil, List.append_nil] at hmem
      exact hne (hshut hmem).2.2
  | connectDestroyed hact hwait hqueue hopen =>
    have hdestroyed := hlinked.destroyed
    have hcloses := hlinked.closes
    rw [hqueue, List.count_cons_self] at hdestroyed
    omega
  | @send message r out hstate hwf hreadable =>
    refine .send (v := v.modify fun conn => { conn with handed := conn.handed ++ [message] })
      hunclosed ⟨hstreams.buffer, hstreams.stream, hstreams.writing⟩ ?_ rfl horder hrequested
      (hall.not_mem (Or.inr hstate)) hsealed hwf hreadable
    exact (List.perm_middle.trans (hperm.cons message)).trans
      (List.perm_append_singleton message _).symm
  | shutdown => exact absurd rfl hshutdown
  | newConnection hentry hstate =>
    have hmodify : Graceful c (v.modify fun conn => { conn with entry := .held }) :=
      ⟨hunclosed, ⟨given, hperm, hstreams.buffer, hstreams.stream, hstreams.writing⟩, horder,
        hrequested, hshut, hsealed⟩
    exact hmodify.establish hstate rfl (.refl _)
  | @foreignSend message hstate =>
    have hno : .shutdownInLoop c ∉ v.queue := fun hmem => (hrequested hmem).2 hstate
    refine ⟨hunclosed, ⟨given, ?_, hstreams.buffer, hstreams.stream, hstreams.writing⟩, ?_,
      fun hmem => ?_, fun hmem => absurd hstate (hshut hmem).1.2, hsealed⟩
    · unfold queued
      rw [List.filterMap_append, ← List.append_assoc]
      exact hperm.append_right [message]
    · refine List.pairwise_append.mpr ⟨horder, List.pairwise_singleton .., fun f hf g _ => ?_⟩
      rintro rfl
      exact absurd hf hno
    · rcases List.mem_append.mp hmem with hmem | hmem
      · exact absurd hmem hno
      · simp at hmem
  | foreignShutdown hstate =>
    have hqueued := queued_append_of_none (f := .shutdownInLoop c) rfl v.queue
    refine ⟨hunclosed, ⟨given, hqueued.symm ▸ hperm, hstreams.buffer, ?_, hstreams.writing⟩, ?_,
      fun _ => by simp [ConnectionView.shutdown, modify], fun hmem => ?_, ?_⟩
    · simpa [ConnectionView.shutdown, modify, TcpConnection.accepted] using hstreams.stream
    · refine List.pairwise_append.mpr ⟨horder, List.pairwise_singleton .., fun f _ g hg _ => ?_⟩
      rw [List.mem_singleton.mp hg]
      rfl
    · simp only [ConnectionView.shutdown, modify, Bool.false_eq_true, if_false,
        List.append_nil] at hmem
      exact absurd hstate (hshut hmem).1.2
    · simpa [ConnectionView.shutdown, modify] using hsealed
  | foreignNewConnection hentry =>
    have hqueued := queued_append_of_none (f := .connectEstablished c) rfl v.queue
    refine ⟨hunclosed, ⟨given, hqueued.symm ▸ hperm, hstreams.buffer, hstreams.stream,
      hstreams.writing⟩, ?_, fun hmem => ?_, fun hmem => ?_, hsealed⟩
    · refine List.pairwise_append.mpr ⟨horder, List.pairwise_singleton .., fun f _ g hg _ => ?_⟩
      rw [List.mem_singleton.mp hg]
      rfl
    · rcases List.mem_append.mp hmem with hmem | hmem
      · exact hrequested hmem
      · simp at hmem
    · obtain ⟨hstate, hnone, hempty⟩ := hshut hmem
      exact ⟨hstate, hqueued.trans hnone, hempty⟩
  | removeConnectionInLoop hbase =>
    have hcloses := hlinked.closes
    omega

/-- It holds of a new connection. -/
theorem New.graceful (h : v.New) : Graceful c v := by
  have hcalls : v.conn.socketCalls = [] := by
    rw [h.conn]
    rfl
  have hbuffer : v.conn.outputBuffer = .new := by
    rw [h.conn]
    rfl
  refine ⟨?_, ⟨[], ?_, ?_, ?_, ?_⟩, ?_, fun hmem => ?_, fun hmem => ?_, ?_⟩
  · rw [h.conn]
    rfl
  · rw [h.conn, h.queue]
    exact .refl _
  · rw [hbuffer]
    exact Buffer.new_wf
  · unfold TcpConnection.accepted
    rw [hcalls, hbuffer]
    rfl
  · rw [h.silent, hbuffer]
    decide
  · rw [h.queue]
    exact .nil
  · rw [h.queue] at hmem
    exact absurd hmem List.not_mem_nil
  · rw [hcalls] at hmem
    exact absurd hmem List.not_mem_nil
  · rw [hcalls]
    exact .nil

/-- What the kernel had accepted before a `shutdownWrite`, and what is called after it. -/
theorem Graceful.split (h : Graceful c v) {pre post : List SocketCall}
    (hcalls : v.conn.socketCalls = pre ++ .shutdownWrite :: post) :
    (∃ order : List (List Byte), order.Perm v.conn.handed ∧
      pre.flatMap SocketCall.accepted = order.flatten) ∧ ∀ call ∈ post, call = .shutdownWrite := by
  have honly : ∀ call ∈ post, call = .shutdownWrite := by
    intro call hcall
    have hsealed := h.sealed
    rw [hcalls] at hsealed
    have hnot := (List.pairwise_cons.mp (List.pairwise_append.mp hsealed).2.1).1 call hcall rfl
    cases call with
    | write => cases hnot
    | shutdownWrite => rfl
  obtain ⟨order, hperm, haccepted⟩ := h.accepted (hcalls ▸ by simp)
  refine ⟨⟨order, hperm, ?_⟩, honly⟩
  have hnone : post.flatMap SocketCall.accepted = [] := by
    rw [List.flatMap_eq_nil_iff]
    intro call hcall
    rw [honly call hcall]
    rfl
  rw [← haccepted]
  unfold TcpConnection.accepted
  rw [hcalls, List.flatMap_append, List.flatMap_cons, hnone]
  exact (List.append_nil _).symm

end ConnectionView

namespace LoopRun

variable {ι : Type} [DecidableEq ι] {c : ι} {s : LoopRun ι}

/-- The peer does not close the connection, and only other threads shut it down. -/
def KeptOpen (c : ι) (s : LoopRun ι) (a : LoopAction ι) : Prop :=
  match a, s.phase with
  | .closeCallback, .handling c' _ _ => c' ≠ c
  | .readCallback r, .handling c' _ _ => c' = c → IoLoop.endOfStream r = false
  | .shutdown c', _ => c' ≠ c
  | _, _ => True

/-- When `handleWrite` drains the buffer of a connection that is being shut down, no
message is queued for it. -/
def DrainsLast (c : ι) (s : LoopRun ι) (a : LoopAction ι) : Prop :=
  match a, s.phase with
  | .writeCallback r, .handling c' _ _ => c' = c → s.loop.isWriting c = true →
    s.loop.WriteDrains c r → (s.loop.conn c).state = .kDisconnecting →
    queued (functorsOf c s.loop.pendingFunctors) = []
  | _, _ => True

/-- Other threads send and shut down, and the shutdown does not overtake a send. -/
def ShutsLast (c : ι) (s : LoopRun ι) (a : LoopAction ι) : Prop :=
  KeptOpen c s a ∧ DrainsLast c s a

instance (c : ι) (s : LoopRun ι) (a : LoopAction ι) : Decidable (KeptOpen c s a) := by
  unfold KeptOpen
  generalize s.phase = phase
  apply @LoopAction.casesOn _ _ a <;> intros <;> apply @Phase.casesOn _ _ phase <;> intros <;>
    infer_instance

instance (c : ι) (s : LoopRun ι) (a : LoopAction ι) : Decidable (DrainsLast c s a) := by
  unfold DrainsLast
  generalize s.phase = phase
  apply @LoopAction.casesOn _ _ a <;> intros <;> apply @Phase.casesOn _ _ phase <;> intros <;>
    infer_instance

instance (c : ι) (s : LoopRun ι) (a : LoopAction ι) :
    Decidable (((loopSystem ι).restrict (KeptOpen c)).enabled s a) :=
  inferInstanceAs (Decidable (LoopRun.enabledIn .. ∧ KeptOpen c s a))

instance (c : ι) (s : LoopRun ι) (a : LoopAction ι) :
    Decidable (((loopSystem ι).restrict (ShutsLast c)).enabled s a) :=
  inferInstanceAs (Decidable (LoopRun.enabledIn .. ∧ KeptOpen c s a ∧ DrainsLast c s a))

/-- A step of such a run keeps what holds of the connection. -/
theorem graceful_step {t u : LoopRun ι} {a : LoopAction ι}
    (hgraceful : ConnectionView.Graceful c (t.view c))
    (hlinked : ConnectionView.Linked c (t.view c))
    (hlast : ShutsLast c t a) (hstep : ConnectionView.Step c (t.view c) a (u.view c)) :
    ConnectionView.Graceful c (u.view c) := by
  obtain ⟨hopen, hdrains⟩ := hlast
  refine hgraceful.step hlinked hstep ?_ ?_ ?_ ?_
  · rintro rest hact rfl
    obtain ⟨active, hphase⟩ := phase_of_handling hact
    unfold KeptOpen at hopen
    rw [hphase] at hopen
    exact hopen rfl
  · rintro rest r hact rfl
    obtain ⟨active, hphase⟩ := phase_of_handling hact
    unfold KeptOpen at hopen
    rw [hphase] at hopen
    exact hopen rfl
  · rintro rfl
    exact hopen rfl
  · rintro rest r hact rfl hwriting hdrain hstate
    obtain ⟨active, hphase⟩ := phase_of_handling hact
    unfold DrainsLast at hdrains
    rw [hphase] at hdrains
    have hqueue : (t.view c).queue = functorsOf c t.loop.pendingFunctors := by
      change functorsOf c (t.phase.batch ++ _) = _
      rw [hphase]
      rfl
    rw [hqueue]
    exact hdrains rfl hwriting hdrain hstate

/-- What holds of a connection if its shutdown overtakes no send. -/
theorem graceful_of_reachable (h : ((loopSystem ι).restrict (ShutsLast c)).Reachable s) :
    ConnectionView.Graceful c (s.view c) := by
  have hall := views_of_reachable (J := fun c' v => ConnectionView.Linked c' v ∧
    (c' = c → ConnectionView.Graceful c' v)) h
    (fun hnew => ⟨hnew.linked, fun _ => hnew.graceful⟩) ?_
  · exact (hall.2 c).2 rfl
  intro t a u c' _ ⟨hlinked, hgraceful⟩ _ hlast _ hstep
  refine ⟨hlinked.step hstep, fun heq => ?_⟩
  subst heq
  exact graceful_step (hgraceful rfl) hlinked hlast hstep

/-- **Shutdown after send.** Other threads send on a connection and shut it down, its peer
does not close it, and `handleWrite` drains its buffer in the state `kDisconnecting` only
when no message is queued. Then whenever the socket is shut down, the kernel has accepted
all of every message handed over, and no `::write` follows. -/
theorem shutdown_after_send (h : ((loopSystem ι).restrict (ShutsLast c)).Reachable s)
    {pre post : List SocketCall}
    (hcalls : (s.loop.conn c).socketCalls = pre ++ .shutdownWrite :: post) :
    (∃ order : List (List Byte), order.Perm (s.loop.conn c).handed ∧
      pre.flatMap SocketCall.accepted = order.flatten) ∧
    ∀ data returned, .write data returned ∉ post := by
  obtain ⟨haccepted, honly⟩ := (graceful_of_reachable h).split hcalls
  refine ⟨haccepted, fun data returned hmem => ?_⟩
  cases honly _ hmem

/-- Two messages and a shutdown of another thread, of which the second message is sent
before the buffer is drained. -/
def sendThenShutdown : List (LoopAction Unit) :=
  [.newConnection (), .send () [1, 2] (.room 1), .foreignSend () [3], .foreignShutdown ()]

/-- When the batch runs first, the socket is shut down after all three bytes. -/
theorem shutdown_after_send_batch :
    ∃ s, ((loopSystem Unit).restrict (ShutsLast ())).Reachable s ∧
      (s.loop.conn ()).handed = [[1, 2], [3]] ∧
      ∃ order : List (List Byte), order.Perm [[1, 2], [3]] ∧
        [.write [1, 2] 1, .write [2, 3] 2].flatMap SocketCall.accepted = order.flatten := by
  have hcheck : (((loopSystem Unit).restrict (ShutsLast ())).replay ⟨oneConnection, .polling, true⟩
      (sendThenShutdown ++ [LoopAction.pollFailed, .doPendingFunctors, .runFunctor (.room 0),
        .runFunctor (.room 0), .batchDone, .poll [0x004], .handleEvent,
        .writeCallback (.room 9)])).any (fun s => decide ((s.loop.conn ()).handed = [[1, 2], [3]] ∧
          (s.loop.conn ()).socketCalls =
            [SocketCall.write [1, 2] 1, .write [2, 3] 2] ++ .shutdownWrite :: [])) = true := by
    decide +kernel
  obtain ⟨s, hrun, hs⟩ := System.exists_run_of_replay hcheck
  obtain ⟨hhanded, hcalls⟩ := of_decide_eq_true hs
  have hreach : ((loopSystem Unit).restrict (ShutsLast ())).Reachable s :=
    ⟨_, _, ⟨oneConnection_fresh, rfl, rfl⟩, hrun⟩
  exact ⟨s, hreach, hhanded, hhanded ▸ (shutdown_after_send hreach hcalls).1⟩

/-- When the buffer drains first, the socket is shut down before the second message, whose
`::write` then follows. -/
theorem shutdown_before_send_drained :
    ∃ s, ((loopSystem Unit).restrict (KeptOpen ())).Run ⟨oneConnection, .polling, true⟩
        (sendThenShutdown ++ [LoopAction.poll [0x004], .handleEvent, .writeCallback (.room 9),
          .handled, .doPendingFunctors, .runFunctor (.failed 32)]) s ∧
      (s.loop.conn ()).handed = [[1, 2], [3]] ∧
      (s.loop.conn ()).socketCalls =
        [.write [1, 2] 1, .write [2] 1, .shutdownWrite, .write [3] (-1)] := by
  have hcheck : (((loopSystem Unit).restrict (KeptOpen ())).replay ⟨oneConnection, .polling, true⟩
      (sendThenShutdown ++ [LoopAction.poll [0x004], .handleEvent, .writeCallback (.room 9),
        .handled, .doPendingFunctors, .runFunctor (.failed 32)])).any (fun s =>
          decide ((s.loop.conn ()).handed = [[1, 2], [3]] ∧ (s.loop.conn ()).socketCalls =
            [.write [1, 2] 1, .write [2] 1, .shutdownWrite, .write [3] (-1)])) = true := by
    decide +kernel
  obtain ⟨s, hrun, hs⟩ := System.exists_run_of_replay hcheck
  exact ⟨s, hrun, of_decide_eq_true hs⟩

end LoopRun

end Dalin.Net
