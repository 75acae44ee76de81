import Dalin.Library.RoundRobin
import Dalin.Net.ServerRun

/-!
# The load of the I/O loops

`newConnection` asks the pool for the next loop, and no later step moves a
connection to another one. So the loop of a connection is known from its number,
whatever the loops and the users do meanwhile, and the I/O loops get equally many
connections, up to one.
-/

set_option autoImplicit false

namespace Dalin.Net

open RoundRobin Transition

variable {n : ℕ}

/-- The loop of a server with `n` I/O threads whose turn it is after `k` connections. -/
def loopTurn (n k : ℕ) : LoopId n :=
  if h : n = 0 then .base else .io ⟨k % n, Nat.mod_lt k (by omega)⟩

namespace TcpServer

variable {s u v : TcpServer n} {c : ℕ} {loop : LoopId n}

/-- Nothing is accepted, and the connections stay in their loops. -/
structure SameLoops (s u : TcpServer n) : Prop where
  next : u.next = s.next
  accepted : u.accepted = s.accepted
  loop : ∀ c, (u.conn c).loop = (s.conn c).loop

/-- The same server. -/
theorem SameLoops.refl (s : TcpServer n) : SameLoops s s := ⟨rfl, rfl, fun _ => rfl⟩

/-- One change after the other, neither in the loops. -/
theorem SameLoops.trans (h : SameLoops s u) (h' : SameLoops u v) : SameLoops s v :=
  ⟨h'.next.trans h.next, h'.accepted.trans h.accepted, fun c => (h'.loop c).trans (h.loop c)⟩

/-- A change of a connection that leaves it in its loop. -/
theorem SameLoops.modifyConn {f : ServerConnection n → ServerConnection n}
    (hf : ∀ conn, (f conn).loop = conn.loop) : SameLoops s (s.modifyConn c f) := by
  refine ⟨rfl, rfl, fun c' => ?_⟩
  change (Function.update s.conn c (f (s.conn c)) c').loop = _
  rw [Function.update_apply]
  split
  · rename_i heq
    rw [heq, hf]
  · rfl

/-- No functor moves a connection. -/
theorem SameLoops.call {f : ServerFunctor} (h : s.call loop f = .ok u) : SameLoops s u := by
  cases f with
  | connectEstablished c =>
    obtain ⟨-, -, hrest⟩ := bind_eq_ok.mp h
    obtain ⟨-, hnow⟩ := require_bind_eq_ok.mp hrest
    cases hnow
    exact .modifyConn fun _ => rfl
  | connectDestroyed c =>
    obtain ⟨-, -, hrest⟩ := bind_eq_ok.mp h
    obtain ⟨-, hnow⟩ := require_bind_eq_ok.mp hrest
    cases hnow
    exact .modifyConn fun _ => rfl
  | removeConnectionInLoop c =>
    obtain ⟨-, -, hrest⟩ := bind_eq_ok.mp h
    obtain ⟨-, hnow⟩ := require_bind_eq_ok.mp hrest
    cases hnow
    have hmodify : SameLoops s (s.modifyConn c fun conn => { conn with removed := true }) :=
      .modifyConn fun _ => rfl
    exact ⟨rfl, rfl, hmodify.loop⟩

/-- `runInLoop` moves no connection. -/
theorem SameLoops.runInLoop {own : LoopId n} {f : ServerFunctor}
    (h : s.runInLoop loop own f = .ok u) : SameLoops s u := by
  unfold TcpServer.runInLoop at h
  split at h
  · exact .call h
  · cases h
    exact ⟨rfl, rfl, fun _ => rfl⟩

/-- A step other than an accept moves no connection. -/
theorem SameLoops.exec {a : ServerStep n} (ha : a ≠ .accept) (h : s.exec a = .ok u) :
    SameLoops s u := by
  cases a with
  | accept => exact absurd rfl ha
  | pollReturns | swap | iterationDone =>
    cases h
    exact ⟨rfl, rfl, fun _ => rfl⟩
  | handleEvent | message =>
    cases h
    exact .modifyConn fun _ => rfl
  | shutdown =>
    cases h
    refine .modifyConn fun conn => ?_
    split <;> rfl
  | handleClose c =>
    obtain ⟨-, hrest⟩ := require_bind_eq_ok.mp h
    have hmodify : SameLoops s (s.modifyConn c fun conn => { conn with closed := true }) :=
      .modifyConn fun _ => rfl
    exact hmodify.trans (.runInLoop hrest)
  | runFunctor loop =>
    cases hphase : (s.loops loop).phase with
    | functors batch =>
      cases batch with
      | cons f rest =>
        simp only [TcpServer.exec, hphase] at h
        exact .trans (u := s.setPhase loop (.functors rest)) ⟨rfl, rfl, fun _ => rfl⟩ (.call h)
      | nil =>
        simp only [TcpServer.exec, hphase] at h
        cases h
        exact .refl _
    | polling | handlers =>
      simp only [TcpServer.exec, hphase] at h
      cases h
      exact .refl _

/-- The pool is at the turn of the next connection, and every connection got its turn. -/
structure InTurn (s : TcpServer n) : Prop where
  next : s.next = if n = 0 then 0 else s.accepted % n
  loop : ∀ c < s.accepted, (s.conn c).loop = loopTurn n c

/-- Steps that move no connection keep the turns. -/
theorem InTurn.same (h : s.InTurn) (hsame : SameLoops s u) : u.InTurn := by
  refine ⟨?_, fun c hc => ?_⟩
  · rw [hsame.next, hsame.accepted]
    exact h.next
  · rw [hsame.loop]
    exact h.loop c (hsame.accepted ▸ hc)

/-- `getNextLoop` gives the loop whose turn it is. -/
theorem InTurn.getNextLoop (h : s.InTurn) : s.getNextLoop =
    .ok (loopTurn n s.accepted, if n = 0 then 0 else (s.accepted + 1) % n) := by
  unfold TcpServer.getNextLoop loopTurn
  by_cases hn : n = 0
  · rw [if_pos hn, dif_pos hn, if_pos hn, h.next, if_pos hn]
  · have hpos : 0 < n := by omega
    have hlt := Nat.mod_lt s.accepted hpos
    have hnext := h.next
    rw [if_neg hn] at hnext
    have hadvance := advance_mod hpos s.accepted
    rw [← hnext] at hadvance
    rw [if_neg hn, dif_pos (by omega), dif_neg hn, if_neg hn, ← hadvance]
    simp only [hnext, advance]

/-- A new connection gets its turn. -/
theorem InTurn.newConnection (h : s.InTurn) (hok : s.newConnection = .ok u) : u.InTurn := by
  obtain ⟨⟨ioLoop, next⟩, hgiven, hrest⟩ := bind_eq_ok.mp hok
  cases h.getNextLoop.symm.trans hgiven
  refine InTurn.same ?_ (.runInLoop hrest)
  refine ⟨rfl, fun c hc => ?_⟩
  change c < s.accepted + 1 at hc
  change (Function.update s.conn s.accepted _ c).loop = _
  rw [Function.update_apply]
  split
  · rename_i heq
    rw [heq]
  · exact h.loop c (by omega)

/-- Every step keeps the turns. -/
theorem InTurn.step (h : s.InTurn) {a : ServerStep n} (hok : s.exec a = .ok u) : u.InTurn := by
  by_cases ha : a = .accept
  · subst ha
    exact h.newConnection hok
  · exact h.same (.exec ha hok)

/-- How many connections a server has put in a loop. -/
def load (s : TcpServer n) (loop : LoopId n) : ℕ :=
  (List.range s.accepted).countP fun c => (s.conn c).loop = loop

/-- Connections in turn. -/
theorem InTurn.load (h : s.InTurn) (i : Fin n) :
    s.load (.io i) = (turns n s.accepted).count i.val := by
  unfold TcpServer.load turns
  rw [List.count_eq_countP, List.countP_map]
  refine List.countP_congr fun c hc => ?_
  have hn : n ≠ 0 := by
    have hi := i.isLt
    omega
  rw [h.loop c (List.mem_range.mp hc), loopTurn, dif_neg hn]
  simp [Fin.ext_iff]

/-- **The I/O loops get equal loads.** In every reachable state of a server, under any interleaving
of its loops and users, the connection of number `c` is in I/O loop `c mod n`, or in the base loop
if there are no others; no I/O loop was given two connections more than another. -/
theorem loops_balanced (h : (serverSystem n).Reachable s) :
    (∀ c < s.accepted, (s.conn c).loop = loopTurn n c) ∧
      ∀ i j : Fin n, s.load (.io i) ≤ s.load (.io j) + 1 := by
  have hturn : s.InTurn := by
    refine h.invariant (fun hinit => ?_) fun hI _ hexec => hI.step hexec
    obtain ⟨-, hnext, -, haccepted, -⟩ := hinit
    refine ⟨?_, fun c hc => ?_⟩
    · rw [hnext, haccepted, Nat.zero_mod, ite_self]
    · omega
  refine ⟨hturn.loop, fun i j => ?_⟩
  have hn : 0 < n := Nat.lt_of_le_of_lt (Nat.zero_le _) i.isLt
  rw [hturn.load, hturn.load]
  exact count_turns_le hn i.isLt j.isLt _

/-- Three connections are accepted, and the first one is established in between. -/
def acceptThree : List (ServerStep 2) :=
  let first : LoopId 2 := .io ⟨0, Nat.zero_lt_two⟩
  [.pollReturns .base, .accept, .accept, .pollReturns first, .swap first, .runFunctor first,
    .accept]

/-- The third connection is in the first loop again. -/
theorem loops_balanced_acceptThree : ∃ s : TcpServer 2, s.accepted = 3 ∧
    (s.conn 2).loop = .io 0 ∧ s.load (.io 0) ≤ s.load (.io 1) + 1 := by
  have hcheck : ((serverSystem 2).replay started acceptThree).any
      (fun s => decide (s.accepted = 3)) = true := by decide +kernel
  obtain ⟨s, hrun, hs⟩ := System.exists_run_of_replay hcheck
  have haccepted := of_decide_eq_true hs
  obtain ⟨hloop, hload⟩ := loops_balanced ⟨_, _, ⟨rfl, rfl, rfl, rfl, rfl⟩, hrun⟩
  exact ⟨s, haccepted, hloop 2 (by omega), hload 0 1⟩

end TcpServer

end Dalin.Net
