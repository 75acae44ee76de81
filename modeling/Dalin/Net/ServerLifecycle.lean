import Mathlib.Algebra.Group.Pi.Basic
import Mathlib.Algebra.GroupWithZero.Nat
import Std.Data.String.ToNat
import Dalin.Net.TcpServer

/-!
# The life of a server's connection

A connection is established by a functor in its own loop, removed by one in the
base loop, and destroyed by another one in its own loop. At each moment at most
one of the three is queued, and which one it is depends on how far the
connection has come. This file states the stages of a connection, shows that
every step of every loop leads from one to the next, and draws the conclusions
about `connections_`, the callbacks and the assertions.
-/

set_option autoImplicit false

namespace Dalin.Net

open Transition

/-- The functors that a loop will still run. -/
def ServerLoop.queue (l : ServerLoop) : List ServerFunctor :=
  (match l.phase with
    | .functors batch => batch
    | _ => []) ++ l.pendingFunctors

/-- The connection that a functor refers to. -/
def ServerFunctor.connection : ServerFunctor → ℕ
  | connectEstablished c => c
  | removeConnectionInLoop c => c
  | connectDestroyed c => c

namespace ServerConnection

variable {n : ℕ} {conn conn' : ServerConnection n}

/-- The connection is up, for its own side at least. -/
def Up (conn : ServerConnection n) : Prop :=
  conn.state = .kConnected ∨ conn.state = .kDisconnecting

/-- The connection was established in its loop, its first callback saw it connected, and since
then its channel was handled in its loop and messages were read. -/
def Opened (conn : ServerConnection n) : Prop :=
  ∃ events, (∀ e ∈ events, e = .handleEvent conn.loop ∨ e = .messageCallback) ∧
    conn.log = .connectEstablished conn.loop :: .connectionCallback true :: events

/-- The connection was destroyed in its loop after that, and its last callback saw it
disconnected. -/
def Ended (conn : ServerConnection n) : Prop :=
  ∃ events, (∀ e ∈ events, e = .handleEvent conn.loop ∨ e = .messageCallback) ∧
    conn.log = .connectEstablished conn.loop :: .connectionCallback true :: events ++
      [.connectDestroyed conn.loop, .connectionCallback false]

/-- The stages of a connection, with the loops in which its functors `connectEstablished`,
`removeConnectionInLoop` and `connectDestroyed` are queued. -/
inductive Stage (conn : ServerConnection n) :
    (LoopId n → ℕ) → (LoopId n → ℕ) → (LoopId n → ℕ) → Prop
  | created : conn.state = .kConnecting → conn.registered = false → conn.closed = false →
      conn.removed = false → conn.log = [] → Stage conn (Pi.single conn.loop 1) 0 0
  | opened : conn.Up → conn.registered = true → conn.closed = false → conn.removed = false →
      conn.Opened → Stage conn 0 0 0
  | closing : conn.Up → conn.registered = true → conn.closed = true → conn.removed = false →
      conn.Opened → Stage conn 0 (Pi.single .base 1) 0
  | removed : conn.Up → conn.registered = true → conn.closed = true → conn.removed = true →
      conn.Opened → Stage conn 0 0 (Pi.single conn.loop 1)
  | destroyed : conn.state = .kDisconnected → conn.registered = false → conn.closed = true →
      conn.removed = true → conn.Ended → Stage conn 0 0 0

/-- An open connection stays open when its channel is handled or a message is read. -/
theorem Opened.record {e : ConnectionEvent n} (h : conn.Opened)
    (he : e = .handleEvent conn.loop ∨ e = .messageCallback) : (conn.record [e]).Opened := by
  obtain ⟨events, hevents, hlog⟩ := h
  refine ⟨events ++ [e], fun e' he' => ?_, ?_⟩
  · rcases List.mem_append.mp he' with he' | he'
    · exact hevents e' he'
    · rw [List.mem_singleton.mp he']
      exact he
  · change conn.log ++ [e] = _
    rw [hlog]
    rfl

/-- Handling a channel and reading a message do not change the stage. -/
theorem Stage.record {e r d : LoopId n → ℕ} {event : ConnectionEvent n} (h : Stage conn e r d)
    (hregistered : conn.registered = true)
    (hevent : event = .handleEvent conn.loop ∨ event = .messageCallback) :
    Stage (conn.record [event]) e r d := by
  cases h with
  | created _ hno => cases hno.symm.trans hregistered
  | destroyed _ hno => cases hno.symm.trans hregistered
  | opened hup hreg hclosed hremoved hopened =>
    exact .opened hup hreg hclosed hremoved (hopened.record hevent)
  | closing hup hreg hclosed hremoved hopened =>
    exact .closing hup hreg hclosed hremoved (hopened.record hevent)
  | removed hup hreg hclosed hremoved hopened =>
    exact .removed hup hreg hclosed hremoved (hopened.record hevent)

/-- `shutdown` of a connected connection does not change the stage. -/
theorem Stage.shutdown {e r d : LoopId n → ℕ} (h : Stage conn e r d)
    (hstate : conn.state = .kConnected) :
    Stage { conn with state := .kDisconnecting } e r d := by
  have hup : ({ conn with state := .kDisconnecting } : ServerConnection n).Up := Or.inr rfl
  cases h with
  | created hno => cases hno.symm.trans hstate
  | destroyed hno => cases hno.symm.trans hstate
  | opened _ hreg hclosed hremoved hopened => exact .opened hup hreg hclosed hremoved hopened
  | closing _ hreg hclosed hremoved hopened => exact .closing hup hreg hclosed hremoved hopened
  | removed _ hreg hclosed hremoved hopened => exact .removed hup hreg hclosed hremoved hopened

end ServerConnection

namespace TcpServer

variable {n : ℕ} {s u : TcpServer n} {c : ℕ} {loop : LoopId n}

/-! ### The queues -/

/-- How often a functor is queued in each loop. -/
def queued (s : TcpServer n) (f : ServerFunctor) (loop : LoopId n) : ℕ :=
  (ServerLoop.queue (s.loops loop)).count f

/-- Queueing a functor does not touch the connections. -/
theorem queueInLoop_conn (s : TcpServer n) (loop : LoopId n) (f : ServerFunctor) :
    (s.queueInLoop loop f).conn = s.conn := rfl

/-- The queues after a change of one loop. -/
theorem queued_setLoop (s : TcpServer n) (loop : LoopId n) (l : ServerLoop) (g : ServerFunctor)
    (loop' : LoopId n) : (s.setLoop loop l).queued g loop' =
      if loop' = loop then (ServerLoop.queue l).count g else s.queued g loop' := by
  unfold queued
  change (ServerLoop.queue (Function.update s.loops loop l loop')).count g = _
  by_cases hloop : loop' = loop
  · rw [hloop, Function.update_self, if_pos rfl]
  · rw [Function.update_of_ne hloop, if_neg hloop]

/-- A change of a loop that keeps its queue changes nothing for the functors. -/
theorem queued_of_same {l : ServerLoop}
    (hqueue : ServerLoop.queue l = ServerLoop.queue (s.loops loop)) (g : ServerFunctor) :
    (s.setLoop loop l).queued g = s.queued g := by
  funext loop'
  rw [queued_setLoop]
  split
  · rename_i hloop
    rw [hqueue, hloop]
    rfl
  · rfl

/-- A functor that is put in a queue is there once more. -/
theorem queued_queueInLoop (s : TcpServer n) (loop : LoopId n) (f g : ServerFunctor)
    (loop' : LoopId n) : (s.queueInLoop loop f).queued g loop' =
      s.queued g loop' + if g = f ∧ loop' = loop then 1 else 0 := by
  unfold queueInLoop
  rw [queued_setLoop]
  by_cases hloop : loop' = loop
  · have hqueue : (ServerLoop.queue { s.loops loop with
        pendingFunctors := (s.loops loop).pendingFunctors ++ [f] }).count g =
        s.queued g loop + [f].count g := by
      unfold queued ServerLoop.queue
      rw [← List.append_assoc, List.count_append]
    rw [if_pos hloop, hqueue, hloop]
    by_cases hg : g = f
    · simp [hg]
    · simp [hg, Ne.symm hg]
  · simp [hloop]

/-- The other functors stay where they are. -/
theorem queued_queueInLoop_of_ne {f g : ServerFunctor} (hg : g ≠ f) :
    (s.queueInLoop loop f).queued g = s.queued g := by
  funext loop'
  rw [queued_queueInLoop, if_neg fun h => hg h.1, Nat.add_zero]

/-- A functor that was not queued is now queued once. -/
theorem queued_queueInLoop_self {f : ServerFunctor} (hf : s.queued f = 0) :
    (s.queueInLoop loop f).queued f = Pi.single loop 1 := by
  funext loop'
  rw [queued_queueInLoop, hf]
  by_cases hloop : loop' = loop
  · simp [hloop]
  · simp [hloop, Pi.single_eq_of_ne]

/-- The queues after the next functor of a batch is taken. -/
theorem queued_taken {f : ServerFunctor} {rest : List ServerFunctor}
    (hphase : (s.loops loop).phase = .functors (f :: rest)) (g : ServerFunctor)
    (loop' : LoopId n) : s.queued g loop' =
      (s.setPhase loop (.functors rest)).queued g loop' +
        if g = f ∧ loop' = loop then 1 else 0 := by
  unfold setPhase
  rw [queued_setLoop]
  by_cases hloop : loop' = loop
  · have hqueue : s.queued g loop = (ServerLoop.queue { s.loops loop with
        phase := .functors rest }).count g + [f].count g := by
      unfold queued ServerLoop.queue
      rw [hphase]
      simp only [List.cons_append, List.count_append, List.count_cons, List.count_nil]
      omega
    rw [if_pos hloop, hloop, hqueue]
    by_cases hg : g = f
    · simp [hg]
    · simp [hg, Ne.symm hg]
  · simp [hloop]

/-- Taking a functor leaves the others where they are. -/
theorem queued_taken_of_ne {f g : ServerFunctor} {rest : List ServerFunctor}
    (hphase : (s.loops loop).phase = .functors (f :: rest)) (hg : g ≠ f) :
    (s.setPhase loop (.functors rest)).queued g = s.queued g := by
  funext loop'
  rw [queued_taken hphase g, if_neg fun h => hg h.1, Nat.add_zero]

/-- A functor that was queued once was queued in the loop that takes it. -/
theorem queued_taken_self {f : ServerFunctor} {rest : List ServerFunctor} {own : LoopId n}
    (hphase : (s.loops loop).phase = .functors (f :: rest))
    (hf : s.queued f = Pi.single own 1) :
    loop = own ∧ (s.setPhase loop (.functors rest)).queued f = 0 := by
  have hown : loop = own := by
    by_contra hne
    have htaken := queued_taken hphase f loop
    rw [if_pos ⟨rfl, rfl⟩, hf, Pi.single_eq_of_ne hne] at htaken
    omega
  refine ⟨hown, funext fun loop' => ?_⟩
  have htaken := queued_taken hphase f loop'
  rw [hf] at htaken
  by_cases hloop : loop' = loop
  · rw [if_pos ⟨rfl, hloop⟩, hloop, hown, Pi.single_eq_same] at htaken
    rw [hloop, hown]
    exact (Nat.succ.inj htaken).symm
  · rw [if_neg fun h => hloop h.2, ← hown, Pi.single_eq_of_ne hloop] at htaken
    exact htaken.symm

/-! ### What every run keeps -/

/-- A connection is in one of its stages. -/
def Staged (s : TcpServer n) (c : ℕ) : Prop :=
  (s.conn c).Stage (s.queued (.connectEstablished c)) (s.queued (.removeConnectionInLoop c))
    (s.queued (.connectDestroyed c))

/-- What every run keeps. -/
structure Served (s : TcpServer n) : Prop where
  next : n = 0 ∨ s.next < n
  nextConnId : s.nextConnId = s.accepted + 1
  names : ∀ c < s.accepted, (s.conn c).name = connName s.name (c + 1)
  /-- `connections_` holds the connections that were accepted and not removed. -/
  entries : ∀ name c, s.connections name = some c ↔
    c < s.accepted ∧ (s.conn c).removed = false ∧ name = (s.conn c).name
  staged : ∀ c < s.accepted, s.Staged c
  unborn : ∀ f : ServerFunctor, s.accepted ≤ f.connection → s.queued f = 0

/-- The initial state keeps it. -/
theorem Served.of_init (h : (serverSystem n).init s) : s.Served := by
  obtain ⟨hid, hnext, hconnections, haccepted, hloops⟩ := h
  refine ⟨?_, ?_, fun c hc => ?_, fun name c => ?_, fun c hc => ?_, fun f _ => ?_⟩
  · rw [hnext]
    exact Nat.eq_zero_or_pos n
  · rw [hid, haccepted]
    rfl
  · omega
  · rw [hconnections]
    constructor
    · intro hsome
      cases hsome
    · rintro ⟨hc, _⟩
      omega
  · omega
  · funext loop
    unfold queued
    rw [hloops]
    rfl

/-- Names are distinct. -/
theorem connName_injective {name : String} {c c' : ℕ}
    (h : connName name ((c : ℤ) + 1) = connName name ((c' : ℤ) + 1)) : c = c' := by
  unfold connName at h
  have hlist := congrArg String.toList h
  simp only [String.toList_append, List.append_cancel_left_eq] at hlist
  have hrepr : Nat.repr (c + 1) = Nat.repr (c' + 1) := String.toList_injective hlist
  have heq := Nat.repr_injective hrepr
  omega

/-- The queues are as before, and so is all else but the loops. -/
theorem Served.of_loops (h : s.Served) {loops : LoopId n → ServerLoop}
    (hqueued : ∀ f, queued { s with loops := loops } f = s.queued f) :
    Served { s with loops := loops } := by
  refine ⟨h.next, h.nextConnId, h.names, h.entries, fun c hc => ?_, fun f hf => ?_⟩
  · unfold Staged
    rw [hqueued, hqueued, hqueued]
    exact h.staged c hc
  · rw [hqueued]
    exact h.unborn f hf

/-- Only one connection changes, with its functors and its entry. -/
theorem Served.of_conn (h : s.Served) (hc : c < s.accepted)
    (hsame : u.name = s.name ∧ u.nextConnId = s.nextConnId ∧ u.next = s.next ∧
      u.accepted = s.accepted)
    (hconn : ∀ c' ≠ c, u.conn c' = s.conn c') (hname : (u.conn c).name = (s.conn c).name)
    (hqueued : ∀ f : ServerFunctor, f.connection ≠ c → u.queued f = s.queued f)
    (hentries : ∀ name c', u.connections name = some c' ↔
      s.connections name = some c' ∧ (u.conn c').removed = false)
    (hremoved : (s.conn c).removed = true → (u.conn c).removed = true)
    (hstaged : u.Staged c) : u.Served := by
  obtain ⟨hserver, hid, hnext, haccepted⟩ := hsame
  refine ⟨?_, ?_, fun c' hc' => ?_, fun name c' => ?_, fun c' hc' => ?_, fun f hf => ?_⟩
  · rw [hnext]
    exact h.next
  · rw [hid, haccepted]
    exact h.nextConnId
  · rw [haccepted] at hc'
    rw [hserver]
    by_cases heq : c' = c
    · rw [heq, hname]
      exact h.names c hc
    · rw [hconn c' heq]
      exact h.names c' hc'
  · rw [hentries, h.entries, haccepted]
    by_cases heq : c' = c
    · rw [heq, hname]
      constructor
      · rintro ⟨⟨hlt, _, hn⟩, hr⟩
        exact ⟨hlt, hr, hn⟩
      · rintro ⟨hlt, hr, hn⟩
        refine ⟨⟨hlt, Bool.eq_false_iff.mpr fun ht => ?_, hn⟩, hr⟩
        cases (hremoved ht).symm.trans hr
    · rw [hconn c' heq]
      constructor
      · rintro ⟨hold, _⟩
        exact hold
      · exact fun hold => ⟨hold, hold.2.1⟩
  · rw [haccepted] at hc'
    by_cases heq : c' = c
    · rw [heq]
      exact hstaged
    · unfold Staged
      rw [hconn c' heq, hqueued (.connectEstablished c') heq,
        hqueued (.removeConnectionInLoop c') heq, hqueued (.connectDestroyed c') heq]
      exact h.staged c' hc'
  · rw [haccepted] at hf
    rw [hqueued f (by omega)]
    exact h.unborn f hf

/-- A change of one connection does not touch the queues. -/
theorem queued_modifyConn (s : TcpServer n) (c : ℕ)
    (f : ServerConnection n → ServerConnection n) : (s.modifyConn c f).queued = s.queued := rfl

/-- Only one connection changes, with its functors, and stays in `connections_` or out of it. -/
theorem Served.of_kept (h : s.Served) (hc : c < s.accepted)
    (hsame : u.name = s.name ∧ u.nextConnId = s.nextConnId ∧ u.next = s.next ∧
      u.accepted = s.accepted)
    (hconnections : u.connections = s.connections) (hconn : ∀ c' ≠ c, u.conn c' = s.conn c')
    (hname : (u.conn c).name = (s.conn c).name)
    (hremoved : (u.conn c).removed = (s.conn c).removed)
    (hqueued : ∀ f : ServerFunctor, f.connection ≠ c → u.queued f = s.queued f)
    (hstaged : u.Staged c) : u.Served := by
  refine h.of_conn hc hsame hconn hname hqueued (fun name c' => ?_)
    (fun hr => by rw [hremoved, hr]) hstaged
  rw [hconnections]
  refine ⟨fun hsome => ⟨hsome, ?_⟩, fun hboth => hboth.1⟩
  have hold := ((h.entries name c').mp hsome).2.1
  by_cases heq : c' = c
  · rw [heq, hremoved, ← heq]
    exact hold
  · rw [hconn c' heq]
    exact hold

/-- One connection changes, and neither the queues nor `connections_`. -/
theorem Served.modifyConn (h : s.Served) (hc : c < s.accepted)
    {f : ServerConnection n → ServerConnection n} (hname : (f (s.conn c)).name = (s.conn c).name)
    (hremoved : (f (s.conn c)).removed = (s.conn c).removed)
    (hstage : ∀ {e r d}, (s.conn c).Stage e r d → (f (s.conn c)).Stage e r d) :
    (s.modifyConn c f).Served := by
  have hself : (s.modifyConn c f).conn c = f (s.conn c) := Function.update_self ..
  refine h.of_kept hc ⟨rfl, rfl, rfl, rfl⟩ rfl (fun c' hne => Function.update_of_ne hne ..)
    (by rw [hself, hname]) (by rw [hself, hremoved]) (fun _ _ => rfl) ?_
  unfold Staged
  rw [hself, queued_modifyConn]
  exact hstage (h.staged c hc)

/-! ### Removal -/

/-- The server after `removeConnectionInLoop`. -/
def dropped (s : TcpServer n) (c : ℕ) : TcpServer n :=
  ({ s with connections := Function.update s.connections (s.conn c).name none }.modifyConn c
    fun conn => { conn with removed := true }).queueInLoop (s.conn c).loop (.connectDestroyed c)

/-- `removeConnectionInLoop` erases exactly one entry if the connection is in the map. -/
theorem removeConnectionInLoop_eq (h : s.connections (s.conn c).name = some c) :
    s.removeConnectionInLoop .base c = .ok (s.dropped c) := by
  unfold removeConnectionInLoop assertInLoopThread
  rw [if_pos rfl, h]
  have hloop : ({ s with connections := Function.update s.connections (s.conn c).name none
      }.modifyConn c fun conn => { conn with removed := true }).conn c =
      { s.conn c with removed := true } := Function.update_self ..
  change Except.ok (queueInLoop _ (ServerConnection.loop _) _) = _
  rw [hloop]
  rfl

/-- After its removal a connection waits for `connectDestroyed`. Here `v` is the server at the
call of `removeConnectionInLoop`, in which the connection has no functor. -/
theorem Served.dropped {v : TcpServer n} (h : s.Served) (hc : c < s.accepted)
    (hsame : v.name = s.name ∧ v.nextConnId = s.nextConnId ∧ v.next = s.next ∧
      v.accepted = s.accepted)
    (hconnections : v.connections = s.connections) (hconn : ∀ c' ≠ c, v.conn c' = s.conn c')
    (hname : (v.conn c).name = (s.conn c).name) (hup : (v.conn c).Up)
    (hregistered : (v.conn c).registered = true) (hclosed : (v.conn c).closed = true)
    (hopened : (v.conn c).Opened)
    (hqueued : ∀ f : ServerFunctor, f.connection ≠ c → v.queued f = s.queued f)
    (hnone : ∀ f : ServerFunctor, f.connection = c → v.queued f = 0) :
    (v.dropped c).Served := by
  have hself : (v.dropped c).conn c = { v.conn c with removed := true } :=
    Function.update_self ..
  have hother : ∀ c' ≠ c, (v.dropped c).conn c' = s.conn c' :=
    fun c' hne => (Function.update_of_ne hne ..).trans (hconn c' hne)
  have hothers : ∀ g ≠ .connectDestroyed c, (v.dropped c).queued g = v.queued g :=
    fun g hg => by
      unfold TcpServer.dropped
      rw [queued_queueInLoop_of_ne hg]
      rfl
  have hdestroy : (v.dropped c).queued (.connectDestroyed c) = Pi.single (v.conn c).loop 1 :=
    queued_queueInLoop_self (hnone _ rfl)
  refine h.of_conn hc hsame hother (by rw [hself, ← hname]) (fun f hf => ?_)
    (fun name c' => ?_) (fun _ => by rw [hself]) ?_
  · rw [hothers f fun heq => hf (by rw [heq]; rfl), hqueued f hf]
  · change Function.update v.connections (v.conn c).name none name = some c' ↔ _
    rw [hconnections, hname]
    by_cases heq : name = (s.conn c).name
    · rw [heq, Function.update_self]
      refine ⟨fun hnone => (by cases hnone), fun ⟨hsome, hkept⟩ => ?_⟩
      obtain ⟨hlt, _, hnames⟩ := (h.entries _ c').mp hsome
      rw [h.names c hc, h.names c' hlt] at hnames
      rw [← connName_injective hnames, hself] at hkept
      cases hkept
    · rw [Function.update_of_ne heq]
      refine ⟨fun hsome => ⟨hsome, ?_⟩, fun hboth => hboth.1⟩
      obtain ⟨_, hkept, hnames⟩ := (h.entries _ c').mp hsome
      have hne : c' ≠ c := fun hcc => heq (hcc ▸ hnames)
      rw [hother c' hne]
      exact hkept
  · unfold Staged
    rw [hothers _ (by simp), hothers _ (by simp), hdestroy, hnone _ rfl, hnone _ rfl, hself]
    exact .removed hup hregistered hclosed rfl hopened

end TcpServer

end Dalin.Net
