import Dalin.Net.LoopRun

/-!
# One connection of a loop

A run of a loop mixes the steps of all its connections. Seen from one of them,
the loop is small: the connection, its entry in the Poller, the functors and
removals that are queued for it, and how far the thread of the loop is with it.
This file defines that view and the steps it can take. Which entry of the
Poller belongs to the connection does not matter for it, so the view only
records whether there is one, and whether it is negated.
-/

set_option autoImplicit false

namespace Dalin.Net

/-- The channel of a connection as the Poller keeps it. -/
structure Slot where
  events : BitVec 32
  revents : BitVec 32
  /-- The channel has been registered, so its `index_` is set. -/
  known : Bool
  /-- The channel is registered now. -/
  registered : Bool
  /-- The entry of the channel is negated. -/
  muted : Bool

namespace Slot

/-- `Channel::isWriting`. -/
def isWriting (k : Slot) : Bool := k.events &&& Channel.kWriteEvent != 0

/-- An interest call. Only a new entry is enabled: a negated one stays negated. -/
def interest (k : Slot) (i : Interest) : Slot :=
  { k with
    events := i.apply k.events
    known := true
    registered := true
    muted := k.known && (k.muted || i.apply k.events == Channel.kNoneEvent) }

/-- The removal of the channel. -/
def removed (k : Slot) : Slot := { k with registered := false, muted := false }

end Slot

/-- How far the thread of the loop is with a connection. -/
inductive Activity
  | idle
  /-- In its `handleEvent`, with these callbacks left to call. -/
  | handling (callbacks : List Callback)
  /-- In its `connectDestroyed`, before the removal of the channel. -/
  | destroying

/-- What concerns one connection in a loop. -/
@[ext] structure ConnectionView (ι : Type) where
  conn : TcpConnection
  slot : Slot
  /-- The completed calls on the Poller for its channel. -/
  calls : List (PollerCall Unit)
  /-- The queued functors that act on the connection. -/
  queue : List (Functor ι)
  /-- The removals that wait in the base loop of its server. -/
  base : ℕ
  /-- How often its channel is among the active channels. -/
  waiting : ℕ
  activity : Activity

namespace ConnectionView

variable {ι : Type}

/-- An interest call on the channel. -/
def interest (v : ConnectionView ι) (i : Interest) : ConnectionView ι :=
  { v with slot := v.slot.interest i, calls := v.calls ++ [.update ()] }

/-- Change the fields of the connection. -/
def modify (v : ConnectionView ι) (f : TcpConnection → TcpConnection) : ConnectionView ι :=
  { v with conn := f v.conn }

/-- `state_` allows a close. -/
def Open (v : ConnectionView ι) : Prop :=
  v.conn.state = .kConnected ∨ v.conn.state = .kDisconnecting

/-- A completed `handleClose`. -/
def close (v : ConnectionView ι) (c : ι) : ConnectionView ι :=
  let viaBase := IoLoop.viaBase v.conn.holder
  { v.interest .disableAll with
    conn := { v.conn with
      closes := v.conn.closes + 1
      entry := if viaBase then v.conn.entry else .erased }
    queue := v.queue ++ if viaBase then [] else [.connectDestroyed c]
    base := v.base + if viaBase then 1 else 0 }

/-- Output to the socket: a new output buffer and some calls. -/
def output (v : ConnectionView ι) (out : Buffer) (calls : List SocketCall) : ConnectionView ι :=
  v.modify fun conn =>
    { conn with outputBuffer := out, socketCalls := conn.socketCalls ++ calls }

/-- Nothing is in the output queue. -/
def Idle (v : ConnectionView ι) : Prop :=
  v.slot.isWriting = false ∧ v.conn.outputBuffer.readableBytes = 0

instance (v : ConnectionView ι) : Decidable v.Idle := inferInstanceAs (Decidable (_ ∧ _))

/-- The calls that `sendInLoop` makes on the socket. -/
def sendCalls (v : ConnectionView ι) (message : List Byte) (r : WriteResult) : List SocketCall :=
  if v.Idle then [.write message (r.returned message.length)] else []

/-- The bytes of its message that `sendInLoop` leaves for later. -/
def sendRest (v : ConnectionView ι) (message : List Byte) (r : WriteResult) : List Byte :=
  if v.Idle then message.drop (r.returned message.length).toNat else message

/-- A completed `sendInLoop` that leaves this output buffer. -/
def send (v : ConnectionView ι) (message : List Byte) (r : WriteResult) (out : Buffer) :
    ConnectionView ι :=
  let v' := v.output out (v.sendCalls message r)
  if v.sendRest message r ≠ [] ∧ v.slot.isWriting = false then v'.interest .enableWriting else v'

/-- The calls that `shutdownInLoop` makes on the socket. -/
def shutdownCalls (v : ConnectionView ι) : List SocketCall :=
  if v.slot.isWriting = false then [.shutdownWrite] else []

/-- The value of the `::write` in `handleWrite`. -/
def writeReturned (v : ConnectionView ι) (r : WriteResult) : ℤ :=
  r.returned v.conn.outputBuffer.readable.length

/-- The `::write` in `handleWrite` empties the output buffer. -/
def Drains (v : ConnectionView ι) (r : WriteResult) : Prop :=
  v.writeReturned r = v.conn.outputBuffer.readable.length

instance (v : ConnectionView ι) (r : WriteResult) : Decidable (v.Drains r) :=
  inferInstanceAs (Decidable (_ = _))

/-- The calls that `handleWrite` makes on the socket. -/
def writeCalls (v : ConnectionView ι) (r : WriteResult) : List SocketCall :=
  .write v.conn.outputBuffer.readable (v.writeReturned r) ::
    if v.Drains r ∧ v.conn.state = .kDisconnecting then [.shutdownWrite] else []

/-- A completed `handleWrite` of a writing connection that leaves this output buffer. -/
def write (v : ConnectionView ι) (r : WriteResult) (out : Buffer) : ConnectionView ι :=
  let v' := v.output out (v.writeCalls r)
  if v.Drains r then v'.interest .disableWriting else v'

/-- What `sendInLoop` does to the slot. -/
@[simp] theorem send_slot (v : ConnectionView ι) (message : List Byte) (r : WriteResult)
    (out : Buffer) :
    (v.send message r out).slot =
      if v.sendRest message r ≠ [] ∧ v.slot.isWriting = false then v.slot.interest .enableWriting
      else v.slot := by
  unfold send
  split <;> rfl

/-- What `sendInLoop` does to the calls on the Poller. -/
@[simp] theorem send_calls (v : ConnectionView ι) (message : List Byte) (r : WriteResult)
    (out : Buffer) :
    (v.send message r out).calls =
      if v.sendRest message r ≠ [] ∧ v.slot.isWriting = false then v.calls ++ [.update ()]
      else v.calls := by
  unfold send
  split <;> rfl

/-- What `sendInLoop` does to the connection. -/
@[simp] theorem send_conn (v : ConnectionView ι) (message : List Byte) (r : WriteResult)
    (out : Buffer) :
    (v.send message r out).conn = { v.conn with
      outputBuffer := out
      socketCalls := v.conn.socketCalls ++ v.sendCalls message r } := by
  unfold send
  split <;> rfl

/-- What `sendInLoop` leaves alone. -/
@[simp] theorem send_rest (v : ConnectionView ι) (message : List Byte) (r : WriteResult)
    (out : Buffer) :
    (v.send message r out).queue = v.queue ∧ (v.send message r out).base = v.base ∧
      (v.send message r out).waiting = v.waiting ∧
      (v.send message r out).activity = v.activity := by
  unfold send
  split <;> exact ⟨rfl, rfl, rfl, rfl⟩

/-- `sendInLoop` does not look at the queue. -/
theorem send_queue (v : ConnectionView ι) (message : List Byte) (r : WriteResult) (out : Buffer)
    (queue : List (Functor ι)) :
    { v with queue := queue }.send message r out =
      { v.send message r out with queue := queue } := by
  have hiff : ({ v with queue := queue }.sendRest message r ≠ [] ∧ v.slot.isWriting = false) ↔
      v.sendRest message r ≠ [] ∧ v.slot.isWriting = false := Iff.rfl
  unfold send
  simp only [hiff]
  split <;> rfl

/-- What `handleWrite` does to the slot. -/
@[simp] theorem write_slot (v : ConnectionView ι) (r : WriteResult) (out : Buffer) :
    (v.write r out).slot =
      if v.Drains r then v.slot.interest .disableWriting else v.slot := by
  unfold write
  split <;> rfl

/-- What `handleWrite` does to the calls on the Poller. -/
@[simp] theorem write_calls (v : ConnectionView ι) (r : WriteResult) (out : Buffer) :
    (v.write r out).calls = if v.Drains r then v.calls ++ [.update ()] else v.calls := by
  unfold write
  split <;> rfl

/-- What `handleWrite` does to the connection. -/
@[simp] theorem write_conn (v : ConnectionView ι) (r : WriteResult) (out : Buffer) :
    (v.write r out).conn = { v.conn with
      outputBuffer := out
      socketCalls := v.conn.socketCalls ++ v.writeCalls r } := by
  unfold write
  split <;> rfl

/-- What `handleWrite` leaves alone. -/
@[simp] theorem write_rest (v : ConnectionView ι) (r : WriteResult) (out : Buffer) :
    (v.write r out).queue = v.queue ∧ (v.write r out).base = v.base ∧
      (v.write r out).waiting = v.waiting := by
  unfold write
  split <;> exact ⟨rfl, rfl, rfl⟩

/-- `connectEstablished`. -/
def establish (v : ConnectionView ι) : ConnectionView ι :=
  (v.modify fun conn => { conn with state := .kConnected }).interest .enableReading

/-- The first half of `connectDestroyed`. -/
def destroy (v : ConnectionView ι) : ConnectionView ι :=
  (v.modify fun conn => { conn with state := .kDisconnected }).interest .disableAll

/-- `shutdown` of a connected connection. -/
def shutdown (v : ConnectionView ι) (inLoop : Bool) (c : ι) : ConnectionView ι :=
  { v.modify fun conn => { conn with
      state := .kDisconnecting
      socketCalls := conn.socketCalls ++ if inLoop then v.shutdownCalls else [] } with
    queue := v.queue ++ if inLoop then [] else [.shutdownInLoop c] }

/-- What a view can do in a step of the loop. -/
inductive Step (c : ι) (v : ConnectionView ι) : LoopAction ι → ConnectionView ι → Prop
  /-- The step does not concern the connection. -/
  | stutter (a : LoopAction ι) : Step c v a v
  | poll {results : List (BitVec 16)} {revents : BitVec 32} {n : ℕ} : v.activity = .idle → n ≤ 1 →
      (0 < n → v.slot.registered = true ∧ v.slot.muted = false) →
      Step c v (.poll results)
        { v with slot := { v.slot with revents := revents }, waiting := n }
  | handleEvent : v.activity = .idle → 0 < v.waiting →
      Step c v .handleEvent { v with
        waiting := v.waiting - 1
        activity := .handling (eventCallbacks v.slot.revents) }
  | closeCallback {rest : List Callback} : v.activity = .handling (.close :: rest) →
      v.Open → (IoLoop.viaBase v.conn.holder = false → v.conn.entry = .held) →
      Step c v .closeCallback { v.close c with activity := .handling rest }
  | errorCallback {rest : List Callback} : v.activity = .handling (.error :: rest) →
      Step c v .errorCallback { v with activity := .handling rest }
  | readClose {rest : List Callback} {r : ReadResult} {input : Buffer} :
      v.activity = .handling (.read :: rest) → IoLoop.endOfStream r = true →
      v.Open → (IoLoop.viaBase v.conn.holder = false → v.conn.entry = .held) →
      Step c v (.readCallback r)
        { (v.modify fun conn => { conn with inputBuffer := input }).close c with
          activity := .handling rest }
  | read {rest : List Callback} {r : ReadResult} {input : Buffer} :
      v.activity = .handling (.read :: rest) → IoLoop.endOfStream r = false →
      Step c v (.readCallback r)
        { v.modify fun conn => { conn with inputBuffer := input } with activity := .handling rest }
  | writeIdle {rest : List Callback} {r : WriteResult} :
      v.activity = .handling (.write :: rest) → v.slot.isWriting = false →
      Step c v (.writeCallback r) { v with activity := .handling rest }
  | write {rest : List Callback} {r : WriteResult} {out : Buffer} :
      v.activity = .handling (.write :: rest) → v.slot.isWriting = true →
      0 < v.writeReturned r → out.Wf →
      out.readable = v.conn.outputBuffer.readable.drop (v.writeReturned r).toNat →
      Step c v (.writeCallback r) { v.write r out with activity := .handling rest }
  | handled : v.activity = .handling [] → Step c v .handled { v with activity := .idle }
  | connectEstablished {r : WriteResult} {rest : List (Functor ι)} :
      v.activity = .idle → v.waiting = 0 → v.queue = .connectEstablished c :: rest →
      v.conn.state = .kConnecting →
      Step c v (.runFunctor r) { v.establish with queue := rest }
  | sendInLoop {r : WriteResult} {message : List Byte} {rest : List (Functor ι)} {out : Buffer} :
      v.activity = .idle → v.waiting = 0 → v.queue = .sendInLoop c message :: rest → out.Wf →
      (v.sendRest message r ≠ [] ∧ v.slot.isWriting = false → v.slot.known = true →
        v.slot.registered = true) →
      out.readable = v.conn.outputBuffer.readable ++ v.sendRest message r →
      Step c v (.runFunctor r) { v.send message r out with queue := rest }
  | shutdownInLoop {r : WriteResult} {rest : List (Functor ι)} :
      v.activity = .idle → v.waiting = 0 → v.queue = .shutdownInLoop c :: rest →
      Step c v (.runFunctor r)
        { v.output v.conn.outputBuffer v.shutdownCalls with queue := rest }
  | connectDestroyed {r : WriteResult} {rest : List (Functor ι)} :
      v.activity = .idle → v.waiting = 0 → v.queue = .connectDestroyed c :: rest → v.Open →
      Step c v (.runFunctor r) { v.destroy with queue := rest, activity := .destroying }
  | removeChannel : v.activity = .destroying →
      Step c v .removeChannel { v with
        slot := v.slot.removed
        calls := v.calls ++ [.remove ()]
        activity := .idle }
  | send {message : List Byte} {r : WriteResult} {out : Buffer} :
      v.conn.state = .kConnected → out.Wf →
      out.readable = v.conn.outputBuffer.readable ++ v.sendRest message r →
      Step c v (.send c message r)
        ((v.modify fun conn => { conn with handed := conn.handed ++ [message] }).send message r out)
  | shutdown : v.conn.state = .kConnected → Step c v (.shutdown c) (v.shutdown true c)
  | newConnection : v.conn.entry = .notYet → v.conn.state = .kConnecting →
      Step c v (.newConnection c)
        (v.modify fun conn => { conn with entry := .held }).establish
  | foreignSend {message : List Byte} : v.conn.state = .kConnected →
      Step c v (.foreignSend c message)
        { v.modify fun conn => { conn with handed := conn.handed ++ [message] } with
          queue := v.queue ++ [.sendInLoop c message] }
  | foreignShutdown : v.conn.state = .kConnected →
      Step c v (.foreignShutdown c) (v.shutdown false c)
  | foreignNewConnection : v.conn.entry = .notYet →
      Step c v (.foreignNewConnection c)
        { v.modify fun conn => { conn with entry := .held } with
          queue := v.queue ++ [.connectEstablished c] }
  | removeConnectionInLoop {n : ℕ} : v.base = n + 1 → v.conn.entry = .held →
      Step c v .removeConnectionInLoop
        { v.modify fun conn => { conn with entry := .erased } with
          queue := v.queue ++ [.connectDestroyed c]
          base := n }

end ConnectionView

end Dalin.Net
