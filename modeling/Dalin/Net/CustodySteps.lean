import Dalin.Net.Custody

/-!
# The steps that change a connection

A new connection, a close, the functors of a life and the calls of the program keep
what a run keeps. Each of them changes the fields of one connection, and queues at
most one functor for it.
-/

set_option autoImplicit false

namespace Dalin.Net

open Transition

namespace Ownership

variable {n : ℕ} {s u : Ownership n} {c c' : ℕ} {loop : LoopId n} {f : OwnedFunctor}

/-! ### Fields that change -/

/-- The changed connection. -/
theorem modifyConn_self (s : Ownership n) (c : ℕ) (g : OwnedConnection n → OwnedConnection n) :
    (s.modifyConn c g).conn c = g (s.conn c) := Function.update_self ..

/-- The other connections. -/
theorem modifyConn_of_ne (s : Ownership n) (g : OwnedConnection n → OwnedConnection n)
    (hne : c ≠ c') : (s.modifyConn c' g).conn c = s.conn c := Function.update_of_ne hne ..

/-- A change of another connection moves nothing. -/
theorem moved_modifyConn (s : Ownership n) (g : OwnedConnection n → OwnedConnection n)
    (hne : c ≠ c') : Moved s (s.modifyConn c' g) c :=
  ⟨modifyConn_of_ne s g hne, Iff.rfl, Iff.rfl, fun _ _ => id, Or.inr, Iff.rfl, rfl⟩

/-- The owners of the changed connection. -/
theorem owners_modifyConn (s : Ownership n) (c : ℕ) (g : OwnedConnection n → OwnedConnection n) :
    (s.modifyConn c g).owners c + ((s.conn c).entry.toNat + (s.conn c).closing.toNat +
        (s.conn c).others) =
      s.owners c + ((g (s.conn c)).entry.toNat + (g (s.conn c)).closing.toNat +
        (g (s.conn c)).others) := by
  have hmaking : (s.modifyConn c g).making = s.making := rfl
  have hcopies : (s.modifyConn c g).copies c = s.copies c := rfl
  unfold owners
  rw [modifyConn_self, hmaking, hcopies]
  omega

/-- A change that takes no entry away, that closes or opens nothing in the base loop, and that
never revives a destroyed connection. -/
structure Change (s : Ownership n) (c : ℕ) (conn : OwnedConnection n) : Prop where
  loop : conn.loop = (s.conn c).loop
  entry : conn.entry = (s.conn c).entry
  closingInBase : (s.conn c).loop = .base → conn.closing = (s.conn c).closing
  closing : conn.closing = true → (s.loops (s.conn c).loop).phase = .handlers (some c)
  dead : (s.conn c).destroyed = true → conn.destroyed = true
  destroyed : conn.destroyed = true → conn.registered = false ∧ conn.state = .kDisconnected
  handling : ∀ loop, (s.loops loop).phase = .handlers (some c) → conn.registered = true
  state : (s.conn c).state = .kDisconnected → conn.state = .kDisconnected

/-- Such a change keeps what it must, if it leaves an owner where one is needed. -/
theorem Custody.change (h : s.Custody c) {g : OwnedConnection n → OwnedConnection n}
    (hg : Change s c (g (s.conn c))) (hraw : s.Raw c → 0 < (s.modifyConn c g).owners c) :
    (s.modifyConn c g).Custody c where
  making hc := by
    rw [modifyConn_self, hg.entry]
    exact h.making hc
  handling loop hc := by
    obtain ⟨hmade, hloop, _⟩ := h.handling loop hc
    rw [modifyConn_self, hg.loop]
    exact ⟨hmade, hloop, hg.handling loop hc⟩
  closing hc hclose := by
    rw [modifyConn_self] at hclose ⊢
    rw [hg.loop]
    exact hg.closing hclose
  destroyed hc hdead := by
    rw [modifyConn_self] at hdead ⊢
    exact hg.destroyed hdead
  running loop hc := by
    obtain ⟨hloop, hstate⟩ := h.running loop hc
    rw [modifyConn_self, hg.loop]
    exact ⟨hloop, hg.state hstate⟩
  born := h.born
  copies hc := by
    rw [modifyConn_self, hg.loop]
    exact h.copies hc
  removing hc := by
    obtain ⟨hentry, hdone⟩ := h.removing hc
    rw [modifyConn_self, hg.entry]
    exact ⟨hentry, hdone.imp_left hg.dead⟩
  held hc halive := by
    rw [modifyConn_self] at halive ⊢
    have hwas : (s.conn c).destroyed = false := by
      by_contra hno
      cases (hg.dead (Bool.not_eq_false _ ▸ hno)).symm.trans halive
    rw [hg.entry, hg.loop]
    refine (h.held hc hwas).imp_right fun hheld => hheld.imp_right fun hbase => ⟨hbase.1, ?_⟩
    rw [hg.closingInBase hbase.1]
    exact hbase.2
  waiting hc hbase hclose := by
    rw [modifyConn_self] at hbase hclose ⊢
    rw [hg.loop] at hbase
    rw [hg.closingInBase hbase] at hclose
    exact (h.waiting hc hbase hclose).imp_left hg.dead
  establishing := h.establishing
  destroyingInBase hc hbase := by
    rw [modifyConn_self] at hbase ⊢
    rw [hg.loop] at hbase
    rw [hg.closingInBase hbase]
    exact h.destroyingInBase hc hbase
  destroying hc hloop := by
    rw [modifyConn_self, hg.loop] at hloop
    exact h.destroying hc hloop
  raw := hraw

/-- A change of other connections does not matter. -/
theorem Custody.change_other (h : s.Custody c) (g : OwnedConnection n → OwnedConnection n)
    (hne : c ≠ c') : (s.modifyConn c' g).Custody c :=
  h.of_apart (moved_modifyConn s g hne) fun _ => rfl

/-- A change of `state_` or of the pointers elsewhere. -/
theorem Custody.change_of_eq (h : ∀ c, s.Custody c) {g : OwnedConnection n → OwnedConnection n}
    (hmade : c' < s.made) (hloop : (g (s.conn c')).loop = (s.conn c').loop)
    (hentry : (g (s.conn c')).entry = (s.conn c').entry)
    (hclosing : (g (s.conn c')).closing = (s.conn c').closing)
    (hdestroyed : (g (s.conn c')).destroyed = (s.conn c').destroyed)
    (hregistered : (s.conn c').destroyed = true → (g (s.conn c')).registered =
      (s.conn c').registered)
    (hhandling : (s.conn c').registered = true → (g (s.conn c')).registered = true)
    (hstate : (s.conn c').state = .kDisconnected → (g (s.conn c')).state = .kDisconnected)
    (hraw : s.Raw c' → 0 < (s.modifyConn c' g).owners c') (c : ℕ) :
    (s.modifyConn c' g).Custody c := by
  by_cases hne : c = c'
  · subst hne
    refine (h c).change ⟨hloop, hentry, fun _ => hclosing, fun hclose => ?_, fun hdead => ?_,
      fun hdead => ?_, fun loop hphase => ?_, hstate⟩ hraw
    · exact (h c).closing hmade (hclosing ▸ hclose)
    · rw [hdestroyed]
      exact hdead
    · rw [hdestroyed] at hdead
      obtain ⟨hoff, hdown⟩ := (h c).destroyed hmade hdead
      exact ⟨(hregistered hdead).trans hoff, hstate hdown⟩
    · exact hhandling ((h c).handling loop hphase).2.2
  · exact (h c).change_other g hne

/-- Some pointer is copied. -/
theorem Custody.copy (h : ∀ c, s.Custody c) (hmade : c' < s.made) (c : ℕ) :
    (s.modifyConn c' fun conn => { conn with others := conn.others + 1 }).Custody c := by
  refine change_of_eq h hmade rfl rfl rfl rfl (fun _ => rfl) id id (fun _ => ?_) c
  have howners := owners_modifyConn s c' fun conn => { conn with others := conn.others + 1 }
  change _ = _ + ((s.conn c').entry.toNat + (s.conn c').closing.toNat +
    ((s.conn c').others + 1)) at howners
  omega

/-- A pointer goes, and leaves another owner to the functors that hold `this`. -/
theorem Custody.drop (h : ∀ c, s.Custody c) (hmade : c' < s.made)
    (hothers : 0 < (s.conn c').others) (hraw : s.Raw c' → 1 < s.owners c') (c : ℕ) :
    (s.modifyConn c' fun conn => { conn with others := conn.others - 1 }).Custody c := by
  refine change_of_eq h hmade rfl rfl rfl rfl (fun _ => rfl) id id (fun hc => ?_) c
  have howners := owners_modifyConn s c' fun conn => { conn with others := conn.others - 1 }
  change _ = _ + ((s.conn c').entry.toNat + (s.conn c').closing.toNat +
    ((s.conn c').others - 1)) at howners
  have hone := hraw hc
  omega

/-- A functor that holds `this` is queued while there is an owner. -/
theorem Custody.queueRaw (h : s.Custody c) (hf : f = .sendInLoop c' ∨ f = .shutdownInLoop c')
    (hmade : c' < s.made) (howners : 0 < s.owners c') : (s.queueInLoop loop f).Custody c := by
  by_cases hne : c = c'
  · rw [hne] at h ⊢
    rcases hf with rfl | rfl
    · exact h.queueInLoop (fun _ => hmade) (fun hc => by cases hc) (fun hc => by cases hc)
        (fun hc => by cases hc) (fun hc => by cases hc) fun _ => howners
    · exact h.queueInLoop (fun _ => hmade) (fun hc => by cases hc) (fun hc => by cases hc)
        (fun hc => by cases hc) (fun hc => by cases hc) fun _ => howners
  · refine h.queueInLoop_of_ne ?_
    rcases hf with rfl | rfl
    · exact Ne.symm hne
    · exact Ne.symm hne

/-- `send` in another thread. -/
theorem Custody.send (h : s.Custody c) (hmade : c' < s.made) (howners : 0 < s.owners c') :
    (s.send c').Custody c := by
  unfold Ownership.send
  split
  · exact h.queueRaw (Or.inl rfl) hmade howners
  · exact h

/-- `shutdown`. -/
theorem Custody.shutdown (h : ∀ c, s.Custody c) (hmade : c' < s.made) (howners : 0 < s.owners c')
    (inLoopThread : Bool) (c : ℕ) : (s.shutdown c' inLoopThread).Custody c := by
  unfold Ownership.shutdown
  split
  · rename_i hconnected
    have howned := owners_modifyConn s c' fun conn => { conn with state := .kDisconnecting }
    change _ = _ + ((s.conn c').entry.toNat + (s.conn c').closing.toNat +
      (s.conn c').others) at howned
    have hkept := change_of_eq h (g := fun conn => { conn with state := .kDisconnecting }) hmade
      rfl rfl rfl rfl (fun _ => rfl) id (fun hdown => by cases hconnected.symm.trans hdown)
      (fun _ => by omega) c
    cases inLoopThread with
    | true => exact hkept
    | false => exact hkept.queueRaw (Or.inr rfl) hmade (by omega)
  · exact h c

/-! ### The functors of a life -/

/-- What a call needs, and what it leaves. -/
theorem callFunctor_eq_ok {returned rest : List OwnedFunctor}
    (hphase : (s.loops loop).phase = .functors returned none (f :: rest))
    (hexec : s.callFunctor loop = .ok u) :
    (s.setPhase loop (.functors returned (some f) rest)).call loop f = .ok u := by
  unfold callFunctor at hexec
  rw [hphase] at hexec
  obtain ⟨_, _, hcall⟩ := bind_eq_ok.mp hexec
  exact hcall

/-- The thread of a call. -/
theorem loop_of_assertInLoopThread {running own : LoopId n} {x : Unit}
    (h : TcpServer.assertInLoopThread running own = .ok x) : own = running := by
  unfold TcpServer.assertInLoopThread at h
  split at h
  · exact Eq.symm ‹_›
  · cases h

/-- The next functor of a vector is pending. -/
theorem pending_of_next {returned rest : List OwnedFunctor}
    (hphase : (s.loops loop).phase = .functors returned none (f :: rest)) : s.Pending f := by
  refine ⟨loop, List.mem_append_left _ ?_⟩
  rw [hphase]
  exact List.mem_cons_self

/-- `connectEstablished`. -/
theorem Custody.callConnectEstablished (h : ∀ c, s.Custody c) {returned rest : List OwnedFunctor}
    (hphase : (s.loops loop).phase = .functors returned none (.connectEstablished c' :: rest))
    (hexec : s.callFunctor loop = .ok u) (c : ℕ) : u.Custody c := by
  have hmade := (h c').born _ rfl (pending_of_next hphase)
  obtain ⟨_, _, hcall⟩ := bind_eq_ok.mp (callFunctor_eq_ok hphase hexec)
  obtain ⟨hconnecting, heq⟩ := require_bind_eq_ok.mp hcall
  cases heq
  have hkept (c : ℕ) := (h c).calling hphase (fun hc => by cases hc) fun hc => by cases hc
  replace hconnecting : (s.conn c').state = .kConnecting := hconnecting
  refine change_of_eq hkept hmade rfl rfl rfl rfl (fun hdead => ?_) (fun _ => rfl)
    (fun hdown => by cases hconnecting.symm.trans hdown) (fun hraw => ?_) c
  · cases hconnecting.symm.trans ((h c').destroyed hmade hdead).2
  · have howned := owners_modifyConn
      (s.setPhase loop (.functors returned (some (.connectEstablished c')) rest)) c'
      fun conn => { conn with state := .kConnected, registered := true }
    have hpos := (hkept c').raw hraw
    change _ = _ + ((s.conn c').entry.toNat + (s.conn c').closing.toNat +
      (s.conn c').others) at howned
    change _ + ((s.conn c').entry.toNat + (s.conn c').closing.toNat + (s.conn c').others) = _
      at howned
    omega

/-- `sendInLoop` and `shutdownInLoop`. -/
theorem Custody.callRaw (h : s.Custody c) (hf : f = .sendInLoop c' ∨ f = .shutdownInLoop c')
    {returned rest : List OwnedFunctor}
    (hphase : (s.loops loop).phase = .functors returned none (f :: rest))
    (hexec : s.callFunctor loop = .ok u) : u.Custody c := by
  have hcall := callFunctor_eq_ok hphase hexec
  rcases hf with rfl | rfl
  · obtain ⟨_, _, heq⟩ := bind_eq_ok.mp hcall
    cases heq
    exact h.calling hphase (fun hc => by cases hc) fun hc => by cases hc
  · obtain ⟨_, _, heq⟩ := bind_eq_ok.mp hcall
    cases heq
    exact h.calling hphase (fun hc => by cases hc) fun hc => by cases hc

/-- `connectDestroyed`, which sets the state first. -/
theorem Custody.callConnectDestroyed (h : ∀ c, s.Custody c) {returned rest : List OwnedFunctor}
    (hphase : (s.loops loop).phase = .functors returned none (.connectDestroyed c' :: rest))
    (hexec : s.callFunctor loop = .ok u) (c : ℕ) : u.Custody c := by
  have hmade := (h c').born _ rfl (pending_of_next hphase)
  obtain ⟨_, hthread, hcall⟩ := bind_eq_ok.mp (callFunctor_eq_ok hphase hexec)
  replace hthread : (s.conn c').loop = loop := loop_of_assertInLoopThread hthread
  obtain ⟨_, heq⟩ := require_bind_eq_ok.mp hcall
  cases heq
  have howned := owners_modifyConn s c' fun conn => { conn with state := .kDisconnected }
  change _ = _ + ((s.conn c').entry.toNat + (s.conn c').closing.toNat +
    (s.conn c').others) at howned
  have hkept := change_of_eq h (g := fun conn => { conn with state := .kDisconnected }) hmade
    rfl rfl rfl rfl (fun _ => rfl) id (fun _ => rfl)
    (fun hraw => by have hpos := (h c').raw hraw; omega) c
  refine hkept.calling hphase (fun hc => by cases hc) fun hc => ?_
  cases hc
  rw [modifyConn_self]
  exact ⟨hthread, rfl⟩

/-- `removeConnectionInLoop`: the entry goes, and the functor that was called holds the
connection. -/
theorem Custody.callRemoveConnectionInLoop (h : ∀ c, s.Custody c)
    {returned rest : List OwnedFunctor}
    (hphase : (s.loops loop).phase = .functors returned none (.removeConnectionInLoop c' :: rest))
    (hexec : s.callFunctor loop = .ok u) (c : ℕ) : u.Custody c := by
  have hmade := (h c').born _ rfl (pending_of_next hphase)
  obtain ⟨_, hthread, hcall⟩ := bind_eq_ok.mp (callFunctor_eq_ok hphase hexec)
  obtain rfl := loop_of_assertInLoopThread hthread
  obtain ⟨_, heq⟩ := require_bind_eq_ok.mp hcall
  obtain ⟨target, hu⟩ : ∃ target, ((s.setPhase .base (.functors returned
      (some (.removeConnectionInLoop c')) rest)).modifyConn c' fun conn =>
        { conn with entry := false }).queueInLoop target (.connectDestroyed c') = u :=
    ⟨_, Except.ok.inj heq⟩
  by_cases hne : c = c'
  · subst hne
    have hloop : (s.conn c).loop ≠ .base := by
      refine ((h c).copies (List.count_pos_iff.mpr (List.mem_append_left _ ?_))).2
      rw [hphase]
      exact List.mem_append_right _ List.mem_cons_self
    have hqueue : OwnedLoop.queue { s.loops .base with
        phase := .functors returned (some (.removeConnectionInLoop c)) rest } =
          (s.loops .base).queue := by
      simp [OwnedLoop.queue, OwnedPhase.unfinished, hphase]
    have hconn : u.conn c = { s.conn c with entry := false } := by
      rw [← hu]
      exact Function.update_self c _ s.conn
    have hmaking : u.making = s.making := by
      rw [← hu]
      rfl
    have hmade' : u.made = s.made := by
      rw [← hu]
      rfl
    have hphases (loop : LoopId n) : (u.loops loop).phase = if loop = .base then
        .functors returned (some (.removeConnectionInLoop c)) rest else (s.loops loop).phase := by
      rw [← hu, queueInLoop_phase]
      exact setPhase_phase ..
    have hpending (g : OwnedFunctor) : u.Pending g ↔ s.Pending g ∨ g = .connectDestroyed c := by
      rw [← hu, pending_queueInLoop]
      exact or_congr_left (pending_setPhase hqueue)
    have hremoving : u.Removing c := by
      unfold Removing
      rw [hphases, if_pos rfl]
      exact List.mem_append_right _ List.mem_cons_self
    have hold (g : OwnedFunctor) (hg : g ≠ .connectDestroyed c) (hc : u.Pending g) :
        s.Pending g := ((hpending g).mp hc).resolve_right hg
    refine ⟨fun hc => ?_, fun loop hc => ?_, fun _ hclose => ?_, fun _ => ?_, fun loop hc => ?_,
      fun g hg hc => ?_, fun _ => ?_, fun _ => ?_, fun _ _ => Or.inr (Or.inl ⟨?_, hremoving⟩),
      fun _ hbase => ?_, fun hc => ?_, fun _ hbase => ?_, fun _ _ => hremoving,
      fun _ => owners_of_copies (copies_pos hremoving)⟩
    · rw [hmaking] at hc
      cases hphase.symm.trans ((h c).making hc).2.2
    · rw [hphases] at hc
      rw [hmade', hconn]
      split at hc
      · cases hc
      · exact (h c).handling loop hc
    · rw [hconn] at hclose ⊢
      rw [hphases, if_neg hloop]
      exact (h c).closing hmade hclose
    · rw [hconn]
      exact (h c).destroyed hmade
    · rw [hphases] at hc
      rw [hconn]
      split at hc
      · cases hc
      · exact (h c).running loop hc
    · rwa [hmade']
    · rw [hmade', hconn]
      exact ⟨hmade, hloop⟩
    · rw [hconn]
      exact ⟨rfl, Or.inr ((hpending _).mpr (Or.inr rfl))⟩
    · rwa [hconn]
    · rw [hconn] at hbase
      exact absurd hbase hloop
    · rw [hmaking]
      exact (h c).establishing (hold _ (fun heq => by cases heq) hc)
    · rw [hconn] at hbase
      exact absurd hbase hloop
  · have hkept := (h c).calling hphase (fun hc => hne (by cases hc; rfl)) fun hc => by cases hc
    rw [← hu]
    exact (hkept.change_other _ hne).queueInLoop_of_ne (Ne.symm hne)

/-- The functor that runs has not finished. -/
theorem mem_unfinished_of_current {phase : OwnedPhase} (h : phase.current = some f) :
    f ∈ phase.unfinished := by
  cases phase with
  | polling | handlers current => cases h
  | functors returned running rest =>
    cases (show running = some f from h)
    exact List.mem_cons_self

/-- A functor returns. -/
theorem Custody.functorReturns (h : ∀ c, s.Custody c) {returned rest : List OwnedFunctor}
    (hphase : (s.loops loop).phase = .functors returned (some f) rest)
    (hexec : s.functorReturns loop = .ok u) (c : ℕ) : u.Custody c := by
  unfold Ownership.functorReturns at hexec
  rw [hphase] at hexec
  cases f with
  | connectDestroyed c' =>
    have hcurrent : (s.loops loop).phase.current = some (.connectDestroyed c') := by
      rw [hphase]
      rfl
    have hmade := (h c').born _ rfl
      ⟨loop, List.mem_append_left _ (mem_unfinished_of_current hcurrent)⟩
    obtain ⟨hthread, hstate⟩ := (h c').running loop hcurrent
    obtain ⟨_, _, heq⟩ := bind_eq_ok.mp hexec
    cases heq
    have howned := owners_modifyConn s c'
      fun conn => { conn with registered := false, destroyed := true }
    change _ = _ + ((s.conn c').entry.toNat + (s.conn c').closing.toNat +
      (s.conn c').others) at howned
    have hkept : (s.modifyConn c'
        fun conn => { conn with registered := false, destroyed := true }).Custody c := by
      by_cases hne : c = c'
      · subst hne
        refine (h c).change ⟨rfl, rfl, fun _ => rfl, (h c).closing hmade, fun _ => rfl,
          fun _ => ⟨rfl, hstate⟩, fun loop' hc => ?_, id⟩ fun hraw => ?_
        · obtain ⟨_, hloop, _⟩ := (h c).handling loop' hc
          rw [← hloop, hthread, hphase] at hc
          cases hc
        · have hpos := (h c).raw hraw
          omega
      · exact (h c).change_other _ hne
    refine hkept.returned hphase fun hc => ?_
    cases hc
    rw [modifyConn_self]
  | connectEstablished _ | removeConnectionInLoop _ | sendInLoop _ | shutdownInLoop _ =>
    cases hexec
    exact (h c).returned hphase fun hc => by cases hc

/-! ### Closes -/

/-- `handleClose` in an I/O loop queues a functor with a copy. -/
theorem Custody.handleCloseInIo (h : ∀ c, s.Custody c) (hmade : c' < s.made)
    (hphase : (s.loops (s.conn c').loop).phase = .handlers (some c'))
    (hloop : (s.conn c').loop ≠ .base) (c : ℕ) :
    ((s.modifyConn c' fun conn => { conn with closing := true }).queueInLoop .base
      (.removeConnectionInLoop c')).Custody c := by
  have hkept : (s.modifyConn c' fun conn => { conn with closing := true }).Custody c := by
    by_cases hne : c = c'
    · subst hne
      refine (h c).change ⟨rfl, rfl, fun hbase => absurd hbase hloop, fun _ => hphase, id,
        (h c).destroyed hmade, fun loop hc => ((h c).handling loop hc).2.2, id⟩ fun _ => ?_
      refine owners_of_closing ?_
      rw [modifyConn_self]
    · exact (h c).change_other _ hne
  refine hkept.queueInLoop (fun hc => hc ▸ hmade) (fun hc => by cases hc) (fun hc => ?_)
    (fun hc => by cases hc) (fun hc => by cases hc) fun hc => by rcases hc with hc | hc <;> cases hc
  cases hc
  rw [modifyConn_self]
  exact hloop

/-- `handleClose` in the base loop takes the entry away and queues a functor that refers to the
temporary. -/
theorem Custody.handleCloseInBase (h : ∀ c, s.Custody c) (hmade : c' < s.made)
    (hphase : (s.loops (s.conn c').loop).phase = .handlers (some c'))
    (hloop : (s.conn c').loop = .base) (hentry : (s.conn c').entry = true) (c : ℕ) :
    ((s.modifyConn c' fun conn => { conn with entry := false, closing := true }).queueInLoop .base
      (.connectDestroyed c')).Custody c := by
  by_cases hne : c = c'
  · subst hne
    generalize hu : Ownership.queueInLoop _ _ _ = u
    have hconn : u.conn c = { s.conn c with entry := false, closing := true } := by
      rw [← hu]
      exact Function.update_self c _ s.conn
    have hmaking : u.making = s.making := by
      rw [← hu]
      rfl
    have hmade' : u.made = s.made := by
      rw [← hu]
      rfl
    have hphases (loop : LoopId n) : (u.loops loop).phase = (s.loops loop).phase := by
      rw [← hu, queueInLoop_phase]
      rfl
    have hpending (g : OwnedFunctor) : u.Pending g ↔ s.Pending g ∨ g = .connectDestroyed c := by
      rw [← hu, pending_queueInLoop]
      exact Iff.rfl
    have hremoving : ¬s.Removing c := fun hc => (h c).copies (copies_pos hc) |>.2 hloop
    have hcopies : u.copies c = s.copies c := by
      rw [← hu, copies_queueInLoop, if_neg fun hc => by cases hc.2]
      rfl
    have hclose : (u.conn c).closing = true := by rw [hconn]
    have hlast : u.Pending (.connectDestroyed c) := (hpending _).mpr (Or.inr rfl)
    refine ⟨fun hc => ?_, fun loop hc => ?_, fun _ _ => ?_, fun _ => ?_, fun loop hc => ?_,
      fun g hg hc => ?_, fun hc => ?_, fun hc => ?_, fun _ _ => Or.inr (Or.inr ⟨?_, hclose⟩),
      fun _ _ _ => Or.inr hlast, fun hc => ?_, fun _ _ => hclose, fun _ hio => ?_,
      fun _ => owners_of_closing hclose⟩
    · rw [hmaking] at hc
      rw [hloop] at hphase
      cases hphase.symm.trans ((h c).making hc).2.2
    · rw [hphases] at hc
      rw [hmade', hconn]
      exact (h c).handling loop hc
    · rw [hphases, hconn]
      exact hphase
    · rw [hconn]
      exact (h c).destroyed hmade
    · rw [hphases] at hc
      rw [hconn]
      exact (h c).running loop hc
    · rwa [hmade']
    · rw [hcopies] at hc
      rw [hmade', hconn]
      exact (h c).copies hc
    · unfold Removing at hc
      rw [hphases] at hc
      exact absurd hc hremoving
    · rwa [hconn]
    · rw [hmaking]
      exact (h c).establishing (((hpending _).mp hc).resolve_right fun heq => by cases heq)
    · rw [hconn] at hio
      exact absurd hloop hio
  · exact ((h c).change_other _ hne).queueInLoop_of_ne (Ne.symm hne)

/-- `handleClose`. -/
theorem Custody.handleClose (h : ∀ c, s.Custody c) (hmade : c' < s.made)
    (hphase : (s.loops (s.conn c').loop).phase = .handlers (some c'))
    (hexec : s.handleClose c' = .ok u) (c : ℕ) : u.Custody c := by
  obtain ⟨_, hrest⟩ := require_bind_eq_ok.mp hexec
  by_cases hloop : (s.conn c').loop = .base
  · rw [if_pos hloop] at hrest
    obtain ⟨hentry, heq⟩ := require_bind_eq_ok.mp hrest
    cases heq
    exact handleCloseInBase h hmade hphase hloop hentry c
  · rw [if_neg hloop] at hrest
    cases hrest
    exact handleCloseInIo h hmade hphase hloop c

/-- The temporary of `handleClose` goes in an I/O loop: the entry or the functor still hold the
connection. -/
theorem Custody.handleCloseReturns (h : ∀ c, s.Custody c) (hmade : c' < s.made)
    (hclosing : (s.conn c').closing = true) (hloop : (s.conn c').loop ≠ .base) (c : ℕ) :
    (s.modifyConn c' fun conn => { conn with closing := false }).Custody c := by
  by_cases hne : c = c'
  · subst hne
    have halive := (h c).not_destroyed ((h c).closing hmade hclosing)
    refine (h c).change ⟨rfl, rfl, fun hbase => absurd hbase hloop, fun hc => (by cases hc), id,
      (h c).destroyed hmade, fun loop hc => ((h c).handling loop hc).2.2, id⟩ fun _ => ?_
    rcases (h c).held hmade halive with hentry | ⟨_, hremoving⟩ | ⟨hbase, _⟩
    · refine owners_of_entry ?_
      rw [modifyConn_self]
      exact hentry
    · exact owners_of_copies (copies_pos hremoving)
    · exact absurd hbase hloop
  · exact (h c).change_other _ hne

/-! ### New connections -/

/-- A connection enters its table, and the local variable of `newConnection` holds it. -/
theorem Custody.newlyMade (h : ∀ c, s.Custody c) (hbetween : s.BetweenEvents .base)
    {conn : OwnedConnection n} (hentry : conn.entry = true) (hclosing : conn.closing = false)
    (hdestroyed : conn.destroyed = false) (next c : ℕ) :
    Custody { s with
      next
      made := s.made + 1
      making := some s.made
      conn := Function.update s.conn s.made conn } c := by
  obtain ⟨hphase, hmaking⟩ := hbetween
  by_cases hne : c = s.made
  · subst hne
    generalize hu : Ownership.mk _ _ _ _ _ = u
    have hconn : u.conn s.made = conn := by
      rw [← hu]
      exact Function.update_self ..
    have hloops : u.loops = s.loops := by
      rw [← hu]
    have hmade : s.made < u.made := by
      rw [← hu]
      exact Nat.lt_succ_self s.made
    have hpending (f : OwnedFunctor) (hf : f.connection = s.made) : ¬u.Pending f := by
      unfold Pending
      rw [hloops]
      exact fun hc => Nat.lt_irrefl _ ((h s.made).born f hf hc)
    have hcopies : ¬0 < u.copies s.made := by
      unfold Ownership.copies
      rw [hloops]
      exact fun hc => Nat.lt_irrefl _ ((h s.made).copies hc).1
    have hlive : (u.conn s.made).entry = true := by rw [hconn, hentry]
    refine ⟨fun _ => ⟨hmade, hlive, hloops ▸ hphase⟩, fun loop hc => ?_, fun _ hclose => ?_,
      fun _ hdead => ?_, fun loop hc => ?_, fun _ _ _ => hmade, fun hc => absurd hc hcopies,
      fun hc => absurd (copies_pos hc) hcopies, fun _ _ => Or.inl hlive, fun _ _ hclose => ?_,
      fun hc => absurd hc (hpending _ rfl), fun hc => absurd hc (hpending _ rfl),
      fun hc => absurd hc (hpending _ rfl), fun _ => owners_of_entry hlive⟩
    · rw [hloops] at hc
      exact absurd ((h s.made).handling loop hc).1 (Nat.lt_irrefl _)
    · rw [hconn, hclosing] at hclose
      cases hclose
    · rw [hconn, hdestroyed] at hdead
      cases hdead
    · refine absurd ⟨loop, List.mem_append_left _ ?_⟩ (hpending (.connectDestroyed s.made) rfl)
      exact mem_unfinished_of_current hc
    · rw [hconn, hclosing] at hclose
      cases hclose
  · refine (h c).of_apart
      ⟨Function.update_of_ne hne .., ?_, ?_, fun _ _ => id, Or.inr, Iff.rfl, rfl⟩ fun _ => rfl
    · change c < s.made + 1 ↔ c < s.made
      omega
    · rw [hmaking rfl]
      exact iff_of_false (fun heq => hne (Option.some.inj heq).symm) fun heq => by cases heq

/-- `TcpServer::newConnection`, with one of the loops. -/
theorem Custody.acceptConnection (h : ∀ c, s.Custody c) (hbetween : s.BetweenEvents .base)
    (hexec : s.acceptConnection = .ok u) (c : ℕ) : u.Custody c := by
  obtain ⟨⟨ioLoop, next⟩, _, hrest⟩ := bind_eq_ok.mp hexec
  dsimp only at hrest
  split at hrest
  · cases hrest
    exact newlyMade h hbetween rfl rfl rfl next c
  · cases hrest
    refine (newlyMade h hbetween rfl rfl rfl next c).queueInLoop (fun hc => ?_) (fun hc => ?_)
      (fun hc => by cases hc) (fun hc => by cases hc) (fun hc => by cases hc)
      fun hc => by rcases hc with hc | hc <;> cases hc
    · exact hc ▸ Nat.lt_succ_self s.made
    · cases hc
      rfl

/-- `TcpClient::newConnection`. -/
theorem Custody.newConnection (h : ∀ c, s.Custody c) (hbetween : s.BetweenEvents .base) (c : ℕ) :
    s.newConnection.Custody c := newlyMade h hbetween rfl rfl rfl s.next c

/-- `newConnection` returns after the functor it queued, if it queued one, has run. -/
theorem Custody.newConnectionReturns (h : s.Custody c)
    (hrun : s.making = some c → ¬s.Pending (.connectEstablished c)) :
    Custody { s with making := none } c where
  making hc := by cases hc
  handling := h.handling
  closing := h.closing
  destroyed := h.destroyed
  running := h.running
  born := h.born
  copies := h.copies
  removing := h.removing
  held := h.held
  waiting := h.waiting
  establishing hc := absurd hc (hrun (h.establishing hc))
  destroyingInBase := h.destroyingInBase
  destroying := h.destroying
  raw hc := by
    by_cases hmaking : s.making = some c
    · exact owners_of_entry (s := { s with making := none }) (h.making hmaking).2.1
    · have hpos := h.raw hc
      unfold owners at hpos
      rw [if_neg hmaking] at hpos
      exact hpos

end Ownership

end Dalin.Net
