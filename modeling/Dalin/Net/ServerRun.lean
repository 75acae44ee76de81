import Mathlib.Data.Int.DivMod
import Dalin.Net.ServerLifecycle

/-!
# Connections of a server over whole runs

Every step of every loop keeps the stages of `ServerLifecycle`, and none of them
fails an assertion, as long as `nextConnId_` does not overflow. So each connection
is established once, handled and removed, and destroyed at most once, always in
the right loop and in this order.
-/

set_option autoImplicit false

namespace Dalin.Net

open Transition

namespace ServerConnection.Stage

variable {n : ℕ} {conn : ServerConnection n} {e r d : LoopId n → ℕ}

/-- While `connectEstablished` is queued, the connection is new. -/
theorem created_of_queued (h : conn.Stage e r d) (he : e ≠ 0) :
    conn.state = .kConnecting ∧ conn.registered = false ∧ conn.closed = false ∧
      conn.removed = false ∧ conn.log = [] ∧ e = Pi.single conn.loop 1 ∧ r = 0 ∧ d = 0 := by
  cases h with
  | created hstate hreg hclosed hremoved hlog =>
    exact ⟨hstate, hreg, hclosed, hremoved, hlog, rfl, rfl, rfl⟩
  | opened | closing | removed | destroyed => exact absurd rfl he

/-- While `removeConnectionInLoop` is queued, the connection is closing. -/
theorem closing_of_queued (h : conn.Stage e r d) (hr : r ≠ 0) :
    conn.Up ∧ conn.registered = true ∧ conn.closed = true ∧ conn.removed = false ∧
      conn.Opened ∧ e = 0 ∧ r = Pi.single .base 1 ∧ d = 0 := by
  cases h with
  | closing hup hreg hclosed hremoved hopened =>
    exact ⟨hup, hreg, hclosed, hremoved, hopened, rfl, rfl, rfl⟩
  | created | opened | removed | destroyed => exact absurd rfl hr

/-- While `connectDestroyed` is queued, the connection is removed. -/
theorem removed_of_queued (h : conn.Stage e r d) (hd : d ≠ 0) :
    conn.Up ∧ conn.registered = true ∧ conn.closed = true ∧ conn.removed = true ∧
      conn.Opened ∧ e = 0 ∧ r = 0 ∧ d = Pi.single conn.loop 1 := by
  cases h with
  | removed hup hreg hclosed hremoved hopened =>
    exact ⟨hup, hreg, hclosed, hremoved, hopened, rfl, rfl, rfl⟩
  | created | opened | closing | destroyed => exact absurd rfl hd

/-- While its channel is registered and `closeCallback_` was not called, a connection is open. -/
theorem opened_of_registered (h : conn.Stage e r d) (hregistered : conn.registered = true)
    (hclosed : conn.closed = false) :
    conn.Up ∧ conn.removed = false ∧ conn.Opened ∧ e = 0 ∧ r = 0 ∧ d = 0 := by
  cases h with
  | created _ hno => cases hno.symm.trans hregistered
  | destroyed _ hno => cases hno.symm.trans hregistered
  | closing _ _ hno => cases hno.symm.trans hclosed
  | removed _ _ hno => cases hno.symm.trans hclosed
  | opened hup _ _ hremoved hopened => exact ⟨hup, hremoved, hopened, rfl, rfl, rfl⟩

end ServerConnection.Stage

namespace TcpServer

variable {n : ℕ} {s u : TcpServer n} {c : ℕ} {loop : LoopId n}

/-! ### The functions of a connection -/

/-- `handleClose` of a connection that is up. -/
theorem handleClose_eq (hup : (s.conn c).Up) : s.handleClose c =
    (s.modifyConn c fun conn => { conn with closed := true }).runInLoop (s.conn c).loop .base
      (.removeConnectionInLoop c) := by
  have hself : (s.modifyConn c fun conn => { conn with closed := true }).conn c =
      { s.conn c with closed := true } := Function.update_self ..
  unfold ServerConnection.Up at hup
  unfold handleClose
  rw [require_of_true hup]
  change runInLoop _ (ServerConnection.loop _) _ _ = _
  rw [hself]

/-- `connectEstablished` of a new connection in its loop. -/
theorem connectEstablished_eq (hloop : loop = (s.conn c).loop)
    (hstate : (s.conn c).state = .kConnecting) : s.connectEstablished loop c =
      .ok (s.modifyConn c fun conn =>
        { conn with state := .kConnected, registered := true }.record
          [.connectEstablished loop, .connectionCallback true]) := by
  unfold connectEstablished assertInLoopThread
  rw [if_pos hloop, require_of_true hstate]
  rfl

/-- `connectDestroyed` of a connection that is up, in its loop. -/
theorem connectDestroyed_eq (hloop : loop = (s.conn c).loop) (hup : (s.conn c).Up) :
    s.connectDestroyed loop c =
      .ok (s.modifyConn c fun conn =>
        { conn with state := .kDisconnected, registered := false }.record
          [.connectDestroyed loop, .connectionCallback false]) := by
  unfold ServerConnection.Up at hup
  unfold connectDestroyed assertInLoopThread
  rw [if_pos hloop, require_of_true hup]
  rfl

/-! ### Handlers -/

/-- A change of one loop that keeps its queue keeps the invariant. -/
theorem Served.setLoop (h : s.Served) {l : ServerLoop}
    (hqueue : ServerLoop.queue l = ServerLoop.queue (s.loops loop)) : (s.setLoop loop l).Served :=
  h.of_loops fun f => queued_of_same hqueue f

/-- `shutdown` keeps the invariant. -/
theorem Served.shutdown (h : s.Served) (hc : c < s.accepted) :
    (s.modifyConn c fun conn =>
      if conn.state = .kConnected then { conn with state := .kDisconnecting }
      else conn).Served := by
  by_cases hstate : (s.conn c).state = .kConnected
  · refine h.modifyConn hc ?_ ?_ fun hstage => ?_
    · rw [if_pos hstate]
    · rw [if_pos hstate]
    · rw [if_pos hstate]
      exact hstage.shutdown hstate
  · refine h.modifyConn hc ?_ ?_ fun hstage => ?_
    · rw [if_neg hstate]
    · rw [if_neg hstate]
    · rw [if_neg hstate]
      exact hstage

/-- `handleClose` hands an open connection to the base loop. In the base loop itself the
connection is removed at once. -/
theorem Served.handleClose (h : s.Served) (hhandling : s.Handling c)
    (hclosed : (s.conn c).closed = false) : ∃ u, s.handleClose c = .ok u ∧ u.Served := by
  obtain ⟨hc, _, hregistered⟩ := hhandling
  obtain ⟨hup, hremoved, hopened, he, hr, hd⟩ :=
    (h.staged c hc).opened_of_registered hregistered hclosed
  rw [handleClose_eq hup]
  generalize hv : s.modifyConn c (fun conn => { conn with closed := true }) = v
  have hself : v.conn c = { s.conn c with closed := true } := hv ▸ Function.update_self ..
  have hother : ∀ c' ≠ c, v.conn c' = s.conn c' :=
    fun c' hne => hv ▸ Function.update_of_ne hne ..
  have hqueued : v.queued = s.queued := hv ▸ rfl
  have hconnections : v.connections = s.connections := hv ▸ rfl
  have hsame : v.name = s.name ∧ v.nextConnId = s.nextConnId ∧ v.next = s.next ∧
      v.accepted = s.accepted := hv ▸ ⟨rfl, rfl, rfl, rfl⟩
  unfold runInLoop
  by_cases hbase : (s.conn c).loop = .base
  · rw [if_pos hbase]
    change ∃ u, v.removeConnectionInLoop (s.conn c).loop c = .ok u ∧ u.Served
    have hentry : v.connections (v.conn c).name = some c := by
      rw [hconnections, hself]
      exact (h.entries _ c).mpr ⟨hc, hremoved, rfl⟩
    rw [hbase, removeConnectionInLoop_eq hentry]
    refine ⟨_, rfl, h.dropped hc hsame hconnections hother ?_ ?_ ?_ ?_ ?_ (fun f _ => ?_)
      fun f hf => ?_⟩
    · rw [hself]
    · rw [hself]
      exact hup
    · rw [hself]
      exact hregistered
    · rw [hself]
    · rw [hself]
      exact hopened
    · rw [hqueued]
    · rw [hqueued]
      cases f with
      | connectEstablished c' => rw [show c' = c from hf, he]
      | removeConnectionInLoop c' => rw [show c' = c from hf, hr]
      | connectDestroyed c' => rw [show c' = c from hf, hd]
  · rw [if_neg hbase]
    refine ⟨_, rfl, h.of_kept hc hsame hconnections hother ?_ ?_ (fun f hf => ?_) ?_⟩
    · rw [queueInLoop_conn, hself]
    · rw [queueInLoop_conn, hself]
    · rw [queued_queueInLoop_of_ne fun heq => hf (by rw [heq]; rfl), hqueued]
    · unfold Staged
      rw [queued_queueInLoop_self (by rw [hqueued, hr]), queued_queueInLoop_of_ne (by simp),
        queued_queueInLoop_of_ne (by simp), queueInLoop_conn, hself, hqueued, he, hd]
      exact .closing hup hregistered rfl hremoved hopened

/-! ### Functors -/

/-- A functor that a loop takes belongs to an accepted connection. -/
theorem Served.taken (h : s.Served) {f : ServerFunctor} {rest : List ServerFunctor}
    (hphase : (s.loops loop).phase = .functors (f :: rest)) :
    f.connection < s.accepted ∧ s.queued f ≠ 0 := by
  have hqueued : s.queued f ≠ 0 := by
    intro hzero
    have htaken := queued_taken hphase f loop
    rw [if_pos ⟨rfl, rfl⟩, hzero] at htaken
    change 0 = _ at htaken
    omega
  refine ⟨?_, hqueued⟩
  by_contra hge
  exact hqueued (h.unborn f (by omega))

/-- A functor that changes only its connection keeps the invariant if it leads to a stage. -/
theorem Served.ran (h : s.Served) {f : ServerFunctor} {rest : List ServerFunctor}
    (hphase : (s.loops loop).phase = .functors (f :: rest)) (hc : f.connection = c)
    {g : ServerConnection n → ServerConnection n} (hname : (g (s.conn c)).name = (s.conn c).name)
    (hremoved : (g (s.conn c)).removed = (s.conn c).removed)
    (hstage : (g (s.conn c)).Stage
      ((s.setPhase loop (.functors rest)).queued (.connectEstablished c))
      ((s.setPhase loop (.functors rest)).queued (.removeConnectionInLoop c))
      ((s.setPhase loop (.functors rest)).queued (.connectDestroyed c))) :
    ((s.setPhase loop (.functors rest)).modifyConn c g).Served := by
  have hself : ((s.setPhase loop (.functors rest)).modifyConn c g).conn c = g (s.conn c) :=
    Function.update_self ..
  refine h.of_kept (hc ▸ (h.taken hphase).1) ⟨rfl, rfl, rfl, rfl⟩ rfl
    (fun c' hne => Function.update_of_ne hne ..) (by rw [hself, hname]) (by rw [hself, hremoved])
    (fun f' hf' => ?_) ?_
  · rw [queued_modifyConn]
    exact queued_taken_of_ne hphase fun heq => hf' (by rw [heq, hc])
  · unfold Staged
    rw [hself, queued_modifyConn]
    exact hstage

/-- `connectEstablished` runs in the loop of the connection and opens it. -/
theorem Served.establish (h : s.Served) {rest : List ServerFunctor}
    (hphase : (s.loops loop).phase = .functors (.connectEstablished c :: rest)) :
    ∃ u, (s.setPhase loop (.functors rest)).connectEstablished loop c = .ok u ∧ u.Served := by
  obtain ⟨hc, hqueued⟩ := h.taken hphase
  obtain ⟨hstate, hreg, hclosed, hremoved, hlog, he, hr, hd⟩ :=
    (h.staged c hc).created_of_queued hqueued
  obtain ⟨hloop, htaken⟩ := queued_taken_self hphase he
  refine ⟨_, connectEstablished_eq hloop hstate, h.ran (c := c) hphase rfl rfl rfl ?_⟩
  rw [htaken, queued_taken_of_ne hphase (by simp), queued_taken_of_ne hphase (by simp), hr, hd]
  refine .opened (Or.inl rfl) rfl hclosed hremoved ⟨[], by simp, ?_⟩
  change (s.conn c).log ++ _ = _
  rw [hlog, hloop]
  rfl

/-- `connectDestroyed` runs in the loop of the connection and ends it. -/
theorem Served.destroy (h : s.Served) {rest : List ServerFunctor}
    (hphase : (s.loops loop).phase = .functors (.connectDestroyed c :: rest)) :
    ∃ u, (s.setPhase loop (.functors rest)).connectDestroyed loop c = .ok u ∧ u.Served := by
  obtain ⟨hc, hqueued⟩ := h.taken hphase
  obtain ⟨hup, hreg, hclosed, hremoved, ⟨events, hevents, hlog⟩, he, hr, hd⟩ :=
    (h.staged c hc).removed_of_queued hqueued
  obtain ⟨hloop, htaken⟩ := queued_taken_self hphase hd
  refine ⟨_, connectDestroyed_eq hloop hup, h.ran (c := c) hphase rfl rfl rfl ?_⟩
  rw [htaken, queued_taken_of_ne hphase (by simp), queued_taken_of_ne hphase (by simp), he, hr]
  refine .destroyed rfl rfl hclosed hremoved ⟨events, hevents, ?_⟩
  change (s.conn c).log ++ _ = _
  rw [hlog, hloop]
  rfl

/-- `removeConnectionInLoop` runs in the base loop and erases the connection. -/
theorem Served.remove (h : s.Served) {rest : List ServerFunctor}
    (hphase : (s.loops loop).phase = .functors (.removeConnectionInLoop c :: rest)) :
    ∃ u, (s.setPhase loop (.functors rest)).removeConnectionInLoop loop c = .ok u ∧
      u.Served := by
  obtain ⟨hc, hqueued⟩ := h.taken hphase
  obtain ⟨hup, hreg, hclosed, hremoved, hopened, he, hr, hd⟩ :=
    (h.staged c hc).closing_of_queued hqueued
  obtain ⟨hloop, htaken⟩ := queued_taken_self hphase hr
  have hentry : s.connections (s.conn c).name = some c :=
    (h.entries _ c).mpr ⟨hc, hremoved, rfl⟩
  rw [hloop]
  refine ⟨_, removeConnectionInLoop_eq hentry, h.dropped hc ⟨rfl, rfl, rfl, rfl⟩ rfl
    (fun _ _ => rfl) rfl hup hreg hclosed hopened (fun f hf => ?_) fun f hf => ?_⟩
  · exact queued_taken_of_ne (hloop ▸ hphase) fun heq => hf (by rw [heq]; rfl)
  · cases f with
    | connectEstablished c' =>
      rw [queued_taken_of_ne (hloop ▸ hphase) (by simp), show c' = c from hf, he]
    | removeConnectionInLoop c' => rw [show c' = c from hf, ← hloop, htaken]
    | connectDestroyed c' =>
      rw [queued_taken_of_ne (hloop ▸ hphase) (by simp), show c' = c from hf, hd]

/-- Every functor that a loop takes runs without a failed assertion. -/
theorem Served.call (h : s.Served) {f : ServerFunctor} {rest : List ServerFunctor}
    (hphase : (s.loops loop).phase = .functors (f :: rest)) :
    ∃ u, (s.setPhase loop (.functors rest)).call loop f = .ok u ∧ u.Served := by
  cases f with
  | connectEstablished c => exact h.establish hphase
  | removeConnectionInLoop c => exact h.remove hphase
  | connectDestroyed c => exact h.destroy hphase

/-! ### New connections -/

/-- `getNextLoop` finds a loop and keeps `next_` within `loops_`. -/
theorem Served.getNextLoop (h : s.Served) :
    ∃ ioLoop next, s.getNextLoop = .ok (ioLoop, next) ∧ (n = 0 ∨ next < n) := by
  unfold TcpServer.getNextLoop
  by_cases hn : n = 0
  · rw [if_pos hn]
    exact ⟨_, _, rfl, Or.inl hn⟩
  · have hnext : s.next < n := h.next.resolve_left hn
    rw [if_neg hn, dif_pos hnext]
    refine ⟨_, _, rfl, Or.inr ?_⟩
    split <;> omega

/-- A connection that enters `connections_` under the next name, with its functors. -/
theorem Served.join (h : s.Served) (hserver : u.name = s.name)
    (haccepted : u.accepted = s.accepted + 1) (hid : u.nextConnId = s.nextConnId + 1)
    (hnext : n = 0 ∨ u.next < n)
    (hconnections : u.connections =
      Function.update s.connections (connName s.name s.nextConnId) (some s.accepted))
    (hconn : ∀ c ≠ s.accepted, u.conn c = s.conn c)
    (hname : (u.conn s.accepted).name = connName s.name s.nextConnId)
    (hremoved : (u.conn s.accepted).removed = false)
    (hqueued : ∀ f : ServerFunctor, f.connection ≠ s.accepted → u.queued f = s.queued f)
    (hstaged : u.Staged s.accepted) : u.Served := by
  have hid' := h.nextConnId
  refine ⟨hnext, ?_, fun c hc => ?_, fun name c => ?_, fun c hc => ?_, fun f hf => ?_⟩
  · rw [hid, haccepted, hid']
    rfl
  · rw [hserver]
    by_cases heq : c = s.accepted
    · rw [heq, hname, hid']
    · rw [hconn c heq]
      exact h.names c (by omega)
  · rw [hconnections, haccepted]
    by_cases hn : name = connName s.name s.nextConnId
    · rw [hn, Function.update_self]
      constructor
      · intro hsome
        obtain rfl := Option.some.inj hsome
        exact ⟨by omega, hremoved, hname.symm⟩
      · rintro ⟨hlt, _, hc⟩
        by_cases heq : c = s.accepted
        · rw [heq]
        · rw [hconn c heq, h.names c (by omega), hid'] at hc
          exact absurd (connName_injective hc).symm heq
    · rw [Function.update_of_ne hn, h.entries]
      by_cases heq : c = s.accepted
      · rw [heq]
        constructor
        · rintro ⟨hlt, _⟩
          omega
        · rintro ⟨_, _, hc⟩
          exact absurd (hc.trans hname) hn
      · rw [hconn c heq]
        constructor
        · rintro ⟨hlt, hrest⟩
          exact ⟨by omega, hrest⟩
        · rintro ⟨hlt, hrest⟩
          exact ⟨by omega, hrest⟩
  · by_cases heq : c = s.accepted
    · rw [heq]
      exact hstaged
    · unfold Staged
      rw [hconn c heq, hqueued (.connectEstablished c) heq,
        hqueued (.removeConnectionInLoop c) heq, hqueued (.connectDestroyed c) heq]
      exact h.staged c (by omega)
  · rw [haccepted] at hf
    rw [hqueued f (by omega)]
    exact h.unborn f (by omega)

/-- `newConnection` establishes the connection in the base loop if there are no others, and
otherwise puts `connectEstablished` in the queue of its loop. -/
theorem Served.newConnection (h : s.Served) (hfew : s.accepted + 2 < 2 ^ 31) :
    ∃ u, s.newConnection = .ok u ∧ u.Served := by
  obtain ⟨ioLoop, next, hloop, hnext⟩ := h.getNextLoop
  have hid : increment s.nextConnId = s.nextConnId + 1 := by
    have hold := h.nextConnId
    unfold increment
    exact Int.bmod_eq_of_le (by omega) (by omega)
  have hnone : ∀ f : ServerFunctor, f.connection = s.accepted → s.queued f = 0 :=
    fun f hf => h.unborn f (by omega)
  unfold TcpServer.newConnection
  rw [hloop]
  generalize hv : ({ s with
    nextConnId := increment s.nextConnId
    next
    accepted := s.accepted + 1
    connections := Function.update s.connections (connName s.name s.nextConnId) (some s.accepted)
    conn := Function.update s.conn s.accepted
      ⟨ioLoop, connName s.name s.nextConnId, .kConnecting, false, false, false, []⟩ } :
      TcpServer n) = v
  have hself : v.conn s.accepted =
      ⟨ioLoop, connName s.name s.nextConnId, .kConnecting, false, false, false, []⟩ :=
    hv ▸ Function.update_self ..
  have hother : ∀ c ≠ s.accepted, v.conn c = s.conn c :=
    fun c hne => hv ▸ Function.update_of_ne hne ..
  have hqueued : v.queued = s.queued := hv ▸ rfl
  have hserver : v.name = s.name := hv ▸ rfl
  have haccepted : v.accepted = s.accepted + 1 := hv ▸ rfl
  have hid' : v.nextConnId = s.nextConnId + 1 := hv ▸ hid
  have hnext' : n = 0 ∨ v.next < n := hv ▸ hnext
  have hconnections : v.connections =
      Function.update s.connections (connName s.name s.nextConnId) (some s.accepted) := hv ▸ rfl
  change ∃ u, TcpServer.runInLoop _ .base ioLoop (.connectEstablished s.accepted) = .ok u ∧ _
  rw [hv]
  unfold runInLoop
  by_cases hbase : LoopId.base = ioLoop
  · rw [if_pos hbase]
    change ∃ u, v.connectEstablished .base s.accepted = .ok u ∧ u.Served
    rw [connectEstablished_eq (by rw [hself, hbase]) (by rw [hself])]
    generalize hg : (fun conn : ServerConnection n =>
      { conn with state := .kConnected, registered := true }.record
        [.connectEstablished .base, .connectionCallback true]) = g
    have hnew : (v.modifyConn s.accepted g).conn s.accepted = g (v.conn s.accepted) :=
      Function.update_self ..
    rw [hself, ← hg] at hnew
    rw [← hg]
    refine ⟨_, rfl, h.join hserver haccepted hid' hnext' hconnections (fun c hne => ?_) ?_ ?_
      (fun f _ => by rw [queued_modifyConn, hqueued]) ?_⟩
    · exact (Function.update_of_ne hne ..).trans (hother c hne)
    · rw [hnew]
      rfl
    · rw [hnew]
      rfl
    · unfold Staged
      rw [hnew, queued_modifyConn, hqueued, hnone _ rfl, hnone _ rfl, hnone _ rfl]
      refine .opened (Or.inl rfl) rfl rfl rfl ⟨[], by simp, ?_⟩
      change [] ++ [ConnectionEvent.connectEstablished LoopId.base, _] = _
      rw [hbase]
      rfl
  · rw [if_neg hbase]
    refine ⟨_, rfl, h.join hserver haccepted hid' hnext' hconnections hother ?_ ?_
      (fun f hf => ?_) ?_⟩
    · rw [queueInLoop_conn, hself]
    · rw [queueInLoop_conn, hself]
    · rw [queued_queueInLoop_of_ne fun heq => hf (by rw [heq]; rfl), hqueued]
    · unfold Staged
      rw [queued_queueInLoop_self (by rw [hqueued, hnone _ rfl]),
        queued_queueInLoop_of_ne (by simp), queued_queueInLoop_of_ne (by simp),
        queueInLoop_conn, hself, hqueued, hnone _ rfl, hnone _ rfl]
      exact .created rfl rfl rfl rfl rfl

/-! ### Runs -/

/-- A server accepts fewer than `2 ^ 31 - 1` connections. -/
def FewAccepts (s : TcpServer n) (a : ServerStep n) : Prop :=
  a = .accept → s.accepted + 1 < 2 ^ 31 - 1

/-- Every step of every loop succeeds and keeps the invariant. -/
theorem Served.step (h : s.Served) {a : ServerStep n} (henabled : s.enabled a)
    (hfew : s.FewAccepts a) : ∃ u, s.exec a = .ok u ∧ u.Served := by
  cases a with
  | pollReturns loop =>
    refine ⟨_, rfl, h.setLoop ?_⟩
    unfold ServerLoop.queue
    rw [show (s.loops loop).phase = .polling from henabled]
  | accept => exact h.newConnection (by have := hfew rfl; omega)
  | handleEvent c =>
    refine ⟨_, rfl, h.modifyConn henabled.1 rfl rfl fun hstage => ?_⟩
    exact hstage.record henabled.2.2 (Or.inl rfl)
  | message c =>
    refine ⟨_, rfl, h.modifyConn henabled.1 rfl rfl fun hstage => ?_⟩
    exact hstage.record henabled.2.2 (Or.inr rfl)
  | handleClose c => exact h.handleClose henabled.1 henabled.2
  | swap loop =>
    refine ⟨_, rfl, h.setLoop ?_⟩
    unfold ServerLoop.queue
    rw [show (s.loops loop).phase = .handlers from henabled]
    exact List.append_nil _
  | runFunctor loop =>
    have hbatch : InBatch (s.loops loop).phase := henabled
    cases hphase : (s.loops loop).phase with
    | polling | handlers => rw [hphase] at hbatch; exact hbatch.elim
    | functors batch =>
      cases batch with
      | nil => rw [hphase] at hbatch; exact hbatch.elim
      | cons f rest =>
        simp only [exec, hphase]
        exact h.call hphase
  | iterationDone loop =>
    refine ⟨_, rfl, h.setLoop ?_⟩
    unfold ServerLoop.queue
    rw [show (s.loops loop).phase = .functors [] from henabled]
  | shutdown c => exact ⟨_, rfl, h.shutdown henabled⟩

/-- What has happened to a connection: nothing, while `connectEstablished` is queued once in its
loop, or what happens to an open connection, or what happens to one that has ended. -/
def Lifecycle (s : TcpServer n) (c : ℕ) : Prop :=
  (s.queued (.connectEstablished c) = Pi.single (s.conn c).loop 1 ∧ (s.conn c).log = []) ∨
    (s.queued (.connectEstablished c) = 0 ∧ ((s.conn c).Opened ∨ (s.conn c).Ended))

/-- The stages follow the life of a connection. -/
theorem Staged.lifecycle (h : s.Staged c) : s.Lifecycle c := by
  unfold Staged at h
  unfold Lifecycle
  generalize s.queued (.connectEstablished c) = e at h ⊢
  generalize s.queued (.removeConnectionInLoop c) = r at h
  generalize s.queued (.connectDestroyed c) = d at h
  cases h with
  | created _ _ _ _ hlog => exact Or.inl ⟨rfl, hlog⟩
  | opened _ _ _ _ hopened => exact Or.inr ⟨rfl, Or.inl hopened⟩
  | closing _ _ _ _ hopened => exact Or.inr ⟨rfl, Or.inl hopened⟩
  | removed _ _ _ _ hopened => exact Or.inr ⟨rfl, Or.inl hopened⟩
  | destroyed _ _ _ _ hended => exact Or.inr ⟨rfl, Or.inr hended⟩

/-- **Lifecycle across loops.** For any number of I/O loops, in every run with fewer than
`2 ^ 31 - 1` accepts, no assertion fails: neither those on `state_`, nor those on the thread of a
function, nor that on the number of entries that `removeConnectionInLoop` erases. `connections_`
holds the connections that were accepted and not removed, under distinct names. Each connection
is established once in its loop, and what else happens to it happens between its first callback
and the last one, if it has already been destroyed in its loop. -/
theorem lifecycle_across_loops (h : ((serverSystem n).restrict FewAccepts).Reachable s) :
    ((serverSystem n).restrict FewAccepts).Safe s ∧
      (∀ name c, s.connections name = some c ↔
        c < s.accepted ∧ (s.conn c).removed = false ∧ name = (s.conn c).name) ∧
      (∀ c < s.accepted, ∀ c' < s.accepted, (s.conn c).name = (s.conn c').name → c = c') ∧
      ∀ c < s.accepted, s.Lifecycle c := by
  obtain ⟨hserved, hsafe⟩ := h.invariant_safe (I := Served) .of_init
    fun hserved henabled => hserved.step henabled.1 henabled.2
  refine ⟨hsafe, hserved.entries, fun c hc c' hc' hname => ?_,
    fun c hc => (hserved.staged c hc).lifecycle⟩
  rw [hserved.names c hc, hserved.names c' hc'] at hname
  exact connName_injective hname

instance (s : TcpServer n) (a : ServerStep n) : Decidable (s.FewAccepts a) := by
  unfold FewAccepts
  apply @ServerStep.casesOn _ _ a
  case accept => exact decidable_of_iff (s.accepted + 1 < 2 ^ 31 - 1) (by simp)
  all_goals exact fun _ => isTrue (by simp)

instance (s : TcpServer n) (a : ServerStep n) :
    Decidable (((serverSystem n).restrict FewAccepts).enabled s a) :=
  inferInstanceAs (Decidable (s.enabled a ∧ s.FewAccepts a))

/-- A server with two I/O loops that has just started. -/
def started : TcpServer 2 where
  name := "server"
  nextConnId := 1
  next := 0
  connections _ := none
  accepted := 0
  conn _ := ⟨.base, "", .kConnecting, false, false, false, []⟩
  loops _ := ⟨.polling, []⟩

/-- Two connections are accepted. The first one is read from and closed, and its removal passes
through the queues of all three loops while the second one is established. -/
def closeAcrossLoops : List (ServerStep 2) :=
  [.pollReturns .base, .accept, .accept, .swap .base, .iterationDone .base,
    .pollReturns (.io 0), .swap (.io 0), .runFunctor (.io 0), .iterationDone (.io 0),
    .pollReturns (.io 0), .handleEvent 0, .message 0, .shutdown 0, .handleClose 0,
    .pollReturns .base, .swap .base, .pollReturns (.io 1), .swap (.io 1), .runFunctor .base,
    .runFunctor (.io 1), .swap (.io 0), .runFunctor (.io 0)]

/-- The first connection has ended, and the second one is still in `connections_`. -/
theorem lifecycle_across_loops_closeAcrossLoops :
    ∃ s, ((serverSystem 2).restrict FewAccepts).Reachable s ∧ s.accepted = 2 ∧
      (s.conn 0).state = .kDisconnected ∧ s.connections "server#2" = some 1 ∧
      s.Lifecycle 0 ∧ s.Lifecycle 1 := by
  have hcheck : (((serverSystem 2).restrict FewAccepts).replay started closeAcrossLoops).any
      (fun s => decide (s.accepted = 2 ∧ (s.conn 0).state = .kDisconnected ∧
        s.connections "server#2" = some 1)) = true := by
    decide +kernel
  obtain ⟨s, hrun, hs⟩ := System.exists_run_of_replay hcheck
  obtain ⟨haccepted, hstate, hentry⟩ := of_decide_eq_true hs
  have hreach : ((serverSystem 2).restrict FewAccepts).Reachable s :=
    ⟨_, _, ⟨rfl, rfl, rfl, rfl, rfl⟩, hrun⟩
  obtain ⟨_, _, _, hlife⟩ := lifecycle_across_loops hreach
  exact ⟨s, hreach, haccepted, hstate, hentry, hlife 0 (by omega), hlife 1 (by omega)⟩

end TcpServer

end Dalin.Net
