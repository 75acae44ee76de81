import Dalin.Net.Ownership

/-!
# Who holds a connection in the course of a run

This file states what every run keeps as long as its functors run in time: a
connection that is not destroyed is held by an entry, by the copy in a functor for
`removeConnectionInLoop` that was called, or by a temporary of `handleClose`, and
each functor that reaches its connection through a variable finds it in scope. The
lemmas say what a move of functors and a change of a connection do to that.
-/

set_option autoImplicit false

namespace Dalin.Net

open Transition

/-- The functors that a loop still has to run, the one that runs included. -/
def OwnedLoop.queue (l : OwnedLoop) : List OwnedFunctor := l.phase.unfinished ++ l.pendingFunctors

/-- The functor calls a connection that it does not own. -/
def OwnedFunctor.Borrows : OwnedFunctor → Prop
  | removeConnectionInLoop _ => False
  | _ => True

namespace Ownership

variable {n : ℕ} {s u : Ownership n} {c c' : ℕ} {loop : LoopId n} {f : OwnedFunctor}

/-- A functor is queued or runs, in some loop. -/
def Pending (s : Ownership n) (f : OwnedFunctor) : Prop := ∃ loop, f ∈ (s.loops loop).queue

/-- A functor for `send` or `shutdown` is queued or runs. -/
def Raw (s : Ownership n) (c : ℕ) : Prop :=
  s.Pending (.sendInLoop c) ∨ s.Pending (.shutdownInLoop c)

/-- `removeConnectionInLoop` was called by a functor that still exists. -/
def Removing (s : Ownership n) (c : ℕ) : Prop :=
  .removeConnectionInLoop c ∈ (s.loops .base).phase.called

/-- What a run keeps of one connection. -/
structure Custody (s : Ownership n) (c : ℕ) : Prop where
  making : s.making = some c → c < s.made ∧ (s.conn c).entry = true ∧
    (s.loops .base).phase = .handlers none
  handling : ∀ loop, (s.loops loop).phase = .handlers (some c) →
    c < s.made ∧ (s.conn c).loop = loop ∧ (s.conn c).registered = true
  closing : c < s.made → (s.conn c).closing = true →
    (s.loops (s.conn c).loop).phase = .handlers (some c)
  destroyed : c < s.made → (s.conn c).destroyed = true →
    (s.conn c).registered = false ∧ (s.conn c).state = .kDisconnected
  running : ∀ loop, (s.loops loop).phase.current = some (.connectDestroyed c) →
    (s.conn c).loop = loop ∧ (s.conn c).state = .kDisconnected
  born : ∀ f, f.connection = c → s.Pending f → c < s.made
  copies : 0 < s.copies c → c < s.made ∧ (s.conn c).loop ≠ .base
  removing : s.Removing c → (s.conn c).entry = false ∧
    ((s.conn c).destroyed = true ∨ s.Pending (.connectDestroyed c))
  held : c < s.made → (s.conn c).destroyed = false → (s.conn c).entry = true ∨
    ((s.conn c).loop ≠ .base ∧ s.Removing c) ∨
    ((s.conn c).loop = .base ∧ (s.conn c).closing = true)
  waiting : c < s.made → (s.conn c).loop = .base → (s.conn c).closing = true →
    (s.conn c).destroyed = true ∨ s.Pending (.connectDestroyed c)
  establishing : s.Pending (.connectEstablished c) → s.making = some c
  destroyingInBase : s.Pending (.connectDestroyed c) → (s.conn c).loop = .base →
    (s.conn c).closing = true
  destroying : s.Pending (.connectDestroyed c) → (s.conn c).loop ≠ .base → s.Removing c
  raw : s.Raw c → 0 < s.owners c

/-! ### Owners -/

/-- A functor that was called and still exists holds a copy. -/
theorem copies_pos (h : s.Removing c) : 0 < s.copies c := by
  unfold Removing at h
  refine List.count_pos_iff.mpr (List.mem_append_left _ ?_)
  cases hphase : (s.loops .base).phase with
  | polling | handlers current =>
    rw [hphase] at h
    cases h
  | functors returned running rest =>
    rw [hphase] at h
    exact List.mem_append_left _ h

/-- An entry is an owner. -/
theorem owners_of_entry (h : (s.conn c).entry = true) : 0 < s.owners c := by
  unfold owners
  rw [h, Bool.toNat_true]
  omega

/-- The local variable of `newConnection` is an owner. -/
theorem owners_of_making (h : s.making = some c) : 0 < s.owners c := by
  unfold owners
  rw [if_pos h]
  omega

/-- The temporary of `handleClose` is an owner. -/
theorem owners_of_closing (h : (s.conn c).closing = true) : 0 < s.owners c := by
  unfold owners
  rw [h, Bool.toNat_true]
  omega

/-- The copy in a functor is an owner. -/
theorem owners_of_copies (h : 0 < s.copies c) : 0 < s.owners c := by
  unfold owners
  omega

/-- A connection that is not destroyed has an owner. -/
theorem Custody.owners_pos (h : s.Custody c) (hc : c < s.made)
    (hdestroyed : (s.conn c).destroyed = false) : 0 < s.owners c := by
  rcases h.held hc hdestroyed with hentry | ⟨_, hremoving⟩ | ⟨_, hclosing⟩
  · exact owners_of_entry hentry
  · exact owners_of_copies (copies_pos hremoving)
  · exact owners_of_closing hclosing

/-- A connection whose channel is inside `handleEvent` is not destroyed. -/
theorem Custody.not_destroyed (h : s.Custody c)
    (hphase : (s.loops loop).phase = .handlers (some c)) : (s.conn c).destroyed = false := by
  obtain ⟨hc, _, hregistered⟩ := h.handling loop hphase
  by_contra hno
  obtain ⟨hdead, _⟩ := h.destroyed hc (Bool.not_eq_false _ ▸ hno)
  cases hdead.symm.trans hregistered

/-- What the variable of a functor for `connectDestroyed` depends on. -/
theorem inScope_connectDestroyed : s.InScope (.connectDestroyed c) ↔
    ((s.conn c).loop = .base → (s.conn c).closing = true) ∧
      ((s.conn c).loop ≠ .base → s.Removing c) := by
  change (if (s.conn c).loop = .base then _ else _) ↔ _
  by_cases hbase : (s.conn c).loop = .base
  · rw [if_pos hbase]
    simp [hbase]
  · rw [if_neg hbase]
    simp [hbase, Removing]

/-- A functor that borrows its connection reaches it, and the connection has an owner. -/
theorem Custody.reaches (h : s.Custody f.connection) (hf : s.Pending f) (hborrows : f.Borrows) :
    0 < s.owners f.connection ∧ s.InScope f := by
  cases f with
  | connectEstablished c =>
    have hmaking := h.establishing hf
    exact ⟨owners_of_making hmaking, hmaking⟩
  | removeConnectionInLoop c => exact hborrows.elim
  | connectDestroyed c =>
    refine ⟨?_, inScope_connectDestroyed.mpr ⟨h.destroyingInBase hf, h.destroying hf⟩⟩
    by_cases hbase : (s.conn c).loop = .base
    · exact owners_of_closing (h.destroyingInBase hf hbase)
    · exact owners_of_copies (copies_pos (h.destroying hf hbase))
  | sendInLoop c => exact ⟨h.raw (Or.inl hf), trivial⟩
  | shutdownInLoop c => exact ⟨h.raw (Or.inr hf), trivial⟩

/-! ### Functors that move -/

/-- Seen from a connection nothing is new, and nothing is gone but functors that have run. -/
structure Moved (s u : Ownership n) (c : ℕ) : Prop where
  conn : u.conn c = s.conn c
  made : c < u.made ↔ c < s.made
  making : u.making = some c ↔ s.making = some c
  pending : ∀ f, f.connection = c → u.Pending f → s.Pending f
  kept : s.Pending (.connectDestroyed c) →
    (s.conn c).destroyed = true ∨ u.Pending (.connectDestroyed c)
  removing : u.Removing c ↔ s.Removing c
  copies : u.copies c = s.copies c

/-- The owners are as before. -/
theorem Moved.owners (h : Moved s u c) : u.owners c = s.owners c := by
  unfold Ownership.owners
  simp only [h.conn, h.making, h.copies]

/-- A step that moves functors keeps what it must, if the frames of the connection stay where they
are. -/
theorem Custody.of_moved (h : s.Custody c) (hmoved : Moved s u c)
    (hmaking : s.making = some c → (u.loops .base).phase = .handlers none)
    (hhandling : ∀ loop, (u.loops loop).phase = .handlers (some c) →
      c < s.made ∧ (s.conn c).loop = loop ∧ (s.conn c).registered = true)
    (hclosing : c < s.made → (s.conn c).closing = true →
      (u.loops (s.conn c).loop).phase = .handlers (some c))
    (hrunning : ∀ loop, (u.loops loop).phase.current = some (.connectDestroyed c) →
      (s.conn c).loop = loop ∧ (s.conn c).state = .kDisconnected) : u.Custody c where
  making hc := by
    have hwas := hmoved.making.mp hc
    obtain ⟨hmade, hentry, _⟩ := h.making hwas
    rw [hmoved.made, hmoved.conn]
    exact ⟨hmade, hentry, hmaking hwas⟩
  handling loop hc := by
    rw [hmoved.made, hmoved.conn]
    exact hhandling loop hc
  closing := by
    rw [hmoved.made, hmoved.conn]
    exact hclosing
  destroyed := by
    rw [hmoved.made, hmoved.conn]
    exact h.destroyed
  running loop hc := by
    rw [hmoved.conn]
    exact hrunning loop hc
  born f hf hpending := hmoved.made.mpr (h.born f hf (hmoved.pending f hf hpending))
  copies := by
    rw [hmoved.copies, hmoved.made, hmoved.conn]
    exact h.copies
  removing hc := by
    obtain ⟨hentry, hdestroyed⟩ := h.removing (hmoved.removing.mp hc)
    rw [hmoved.conn]
    exact ⟨hentry, hdestroyed.elim Or.inl hmoved.kept⟩
  held := by
    rw [hmoved.made, hmoved.conn, hmoved.removing]
    exact h.held
  waiting hc hbase hclose := by
    rw [hmoved.made] at hc
    rw [hmoved.conn] at hbase hclose ⊢
    exact (h.waiting hc hbase hclose).elim Or.inl hmoved.kept
  establishing hc := hmoved.making.mpr (h.establishing (hmoved.pending _ rfl hc))
  destroyingInBase hc := by
    rw [hmoved.conn]
    exact h.destroyingInBase (hmoved.pending _ rfl hc)
  destroying hc := by
    rw [hmoved.conn, hmoved.removing]
    exact h.destroying (hmoved.pending _ rfl hc)
  raw hc := by
    rw [hmoved.owners]
    exact h.raw (hc.imp (hmoved.pending _ rfl) (hmoved.pending _ rfl))

/-- A step that leaves all phases alone. -/
theorem Custody.of_apart (h : s.Custody c) (hmoved : Moved s u c)
    (hphase : ∀ loop, (u.loops loop).phase = (s.loops loop).phase) : u.Custody c := by
  refine h.of_moved hmoved (fun hmaking => ?_) (fun loop => ?_) (fun hc hclosing => ?_)
    fun loop => ?_
  · rw [hphase]
    exact (h.making hmaking).2.2
  · rw [hphase]
    exact h.handling loop
  · rw [hphase]
    exact h.closing hc hclosing
  · rw [hphase]
    exact h.running loop

/-! ### Steps of a loop -/

/-- The loops after a change of one of them. -/
theorem setLoop_loops (s : Ownership n) (loop loop' : LoopId n) (l : OwnedLoop) :
    (s.setLoop loop l).loops loop' = if loop' = loop then l else s.loops loop' := by
  change Function.update s.loops loop l loop' = _
  by_cases hloop : loop' = loop
  · rw [hloop, Function.update_self, if_pos rfl]
  · rw [Function.update_of_ne hloop, if_neg hloop]

/-- A functor is pending in the changed loop or in another one. -/
theorem pending_setLoop {l : OwnedLoop} : (s.setLoop loop l).Pending f ↔
    f ∈ l.queue ∨ ∃ loop' ≠ loop, f ∈ (s.loops loop').queue := by
  constructor
  · rintro ⟨loop', hmem⟩
    rw [setLoop_loops] at hmem
    by_cases hloop : loop' = loop
    · rw [if_pos hloop] at hmem
      exact Or.inl hmem
    · rw [if_neg hloop] at hmem
      exact Or.inr ⟨loop', hloop, hmem⟩
  · rintro (hmem | ⟨loop', hloop, hmem⟩)
    · refine ⟨loop, ?_⟩
      rwa [setLoop_loops, if_pos rfl]
    · refine ⟨loop', ?_⟩
      rwa [setLoop_loops, if_neg hloop]

/-- The phases after a change of one of them. -/
theorem setPhase_phase (s : Ownership n) (loop loop' : LoopId n) (phase : OwnedPhase) :
    ((s.setPhase loop phase).loops loop').phase =
      if loop' = loop then phase else (s.loops loop').phase := by
  unfold setPhase
  rw [setLoop_loops]
  split <;> rfl

/-- A phase with the same functors changes nothing pending. -/
theorem pending_setPhase {phase : OwnedPhase}
    (hqueue : OwnedLoop.queue { s.loops loop with phase := phase } = (s.loops loop).queue) :
    (s.setPhase loop phase).Pending f ↔ s.Pending f := by
  unfold setPhase
  rw [pending_setLoop, hqueue]
  constructor
  · rintro (hmem | ⟨loop', _, hmem⟩)
    · exact ⟨loop, hmem⟩
    · exact ⟨loop', hmem⟩
  · rintro ⟨loop', hmem⟩
    by_cases hloop : loop' = loop
    · exact Or.inl (hloop ▸ hmem)
    · exact Or.inr ⟨loop', hloop, hmem⟩

/-- A change of a loop that adds no functor for a connection, and takes only the functor for
`connectDestroyed` of a destroyed one. -/
theorem moved_setLoop {l : OwnedLoop}
    (hqueue : ∀ f, f.connection = c → f ∈ l.queue → f ∈ (s.loops loop).queue)
    (hkept : .connectDestroyed c ∈ (s.loops loop).queue →
      (s.conn c).destroyed = true ∨ .connectDestroyed c ∈ l.queue)
    (hcalled : loop = .base → (.removeConnectionInLoop c ∈ l.phase.called ↔
      .removeConnectionInLoop c ∈ (s.loops loop).phase.called))
    (hcount : loop = .base →
      (l.phase.vector ++ l.pendingFunctors).count (.removeConnectionInLoop c) =
        ((s.loops loop).phase.vector ++ (s.loops loop).pendingFunctors).count
          (.removeConnectionInLoop c)) :
    Moved s (s.setLoop loop l) c := by
  refine ⟨rfl, Iff.rfl, Iff.rfl, fun f hf hmem => ?_, ?_, ?_, ?_⟩
  · rcases pending_setLoop.mp hmem with hnew | ⟨loop', _, hold⟩
    · exact ⟨loop, hqueue f hf hnew⟩
    · exact ⟨loop', hold⟩
  · rintro ⟨loop', hmem⟩
    by_cases hloop : loop' = loop
    · exact (hkept (hloop ▸ hmem)).imp_right fun hnew => pending_setLoop.mpr (Or.inl hnew)
    · exact Or.inr (pending_setLoop.mpr (Or.inr ⟨loop', hloop, hmem⟩))
  · unfold Removing
    rw [setLoop_loops]
    by_cases hbase : LoopId.base = loop
    · rw [if_pos hbase, hbase]
      exact hcalled hbase.symm
    · rw [if_neg hbase]
  · unfold Ownership.copies
    rw [setLoop_loops]
    by_cases hbase : LoopId.base = loop
    · rw [if_pos hbase, hbase]
      exact hcount hbase.symm
    · rw [if_neg hbase]

/-- A step of a loop that moves its functors. It does not leave a frame of `handleClose`, nor one
of `newConnection`. -/
theorem Custody.setLoop (h : s.Custody c) {l : OwnedLoop} (hmoved : Moved s (s.setLoop loop l) c)
    (hclosing : (s.loops loop).phase = .handlers (some c) → (s.conn c).closing = false)
    (hmaking : loop = .base → s.making = some c → l.phase = .handlers none)
    (hhandling : l.phase = .handlers (some c) →
      c < s.made ∧ (s.conn c).loop = loop ∧ (s.conn c).registered = true)
    (hrunning : l.phase.current = some (.connectDestroyed c) →
      (s.conn c).loop = loop ∧ (s.conn c).state = .kDisconnected) :
    (s.setLoop loop l).Custody c := by
  refine h.of_moved hmoved (fun hc => ?_) (fun loop' hc => ?_) (fun hc hclose => ?_)
    fun loop' hc => ?_
  · rw [setLoop_loops]
    by_cases hbase : LoopId.base = loop
    · rw [if_pos hbase]
      exact hmaking hbase.symm hc
    · rw [if_neg hbase]
      exact (h.making hc).2.2
  · rw [setLoop_loops] at hc
    by_cases hloop : loop' = loop
    · rw [if_pos hloop] at hc
      exact hloop ▸ hhandling hc
    · rw [if_neg hloop] at hc
      exact h.handling loop' hc
  · have hphase := h.closing hc hclose
    have hne : (s.conn c).loop ≠ loop := by
      intro hloop
      rw [hloop] at hphase
      cases (hclosing hphase).symm.trans hclose
    rw [setLoop_loops, if_neg hne]
    exact hphase
  · rw [setLoop_loops] at hc
    by_cases hloop : loop' = loop
    · rw [if_pos hloop] at hc
      exact hloop ▸ hrunning hc
    · rw [if_neg hloop] at hc
      exact h.running loop' hc

/-- A phase without functors. -/
def Bare : OwnedPhase → Prop
  | .functors _ _ _ => False
  | _ => True

/-- It has no vector, and runs none. -/
theorem Bare.empty {phase : OwnedPhase} (h : Bare phase) : phase.vector = [] ∧ phase.called = [] ∧
    phase.unfinished = [] ∧ phase.current = none := by
  cases phase with
  | polling | handlers current => exact ⟨rfl, rfl, rfl, rfl⟩
  | functors returned running rest => exact h.elim

/-- A step between two phases without functors. -/
theorem Custody.setPhase (h : s.Custody c) {phase : OwnedPhase} (hold : Bare (s.loops loop).phase)
    (hnew : Bare phase)
    (hclosing : (s.loops loop).phase = .handlers (some c) → (s.conn c).closing = false)
    (hmaking : loop = .base → s.making = some c → phase = .handlers none)
    (hhandling : phase = .handlers (some c) →
      c < s.made ∧ (s.conn c).loop = loop ∧ (s.conn c).registered = true) :
    (s.setPhase loop phase).Custody c := by
  obtain ⟨hvector, hcalled, hunfinished, _⟩ := hold.empty
  obtain ⟨hvector', hcalled', hunfinished', hcurrent⟩ := hnew.empty
  have hqueue : OwnedLoop.queue { s.loops loop with phase := phase } = (s.loops loop).queue := by
    simp only [OwnedLoop.queue, hunfinished, hunfinished']
  refine h.setLoop (moved_setLoop (fun f _ hf => hqueue ▸ hf) (fun hf => Or.inr (hqueue ▸ hf))
    (fun _ => ?_) fun _ => ?_) hclosing hmaking hhandling fun hc => ?_
  · simp only [hcalled, hcalled']
  · simp only [hvector, hvector']
  · cases hcurrent.symm.trans hc

/-- `poll` returns. -/
theorem Custody.pollReturns (h : s.Custody c) (hphase : (s.loops loop).phase = .polling) :
    (s.setPhase loop (.handlers none)).Custody c := by
  refine h.setPhase ?_ trivial (fun hc => ?_) (fun _ _ => rfl) fun hc => by cases hc
  · rw [hphase]
    trivial
  · cases hphase.symm.trans hc

/-- `handleEvent` of a connection begins. -/
theorem Custody.handleEvent (h : s.Custody c) (hc' : c' < s.made)
    (hbetween : s.BetweenEvents (s.conn c').loop) (hregistered : (s.conn c').registered = true) :
    (s.setPhase (s.conn c').loop (.handlers (some c'))).Custody c := by
  obtain ⟨hphase, hmaking⟩ := hbetween
  refine h.setPhase ?_ trivial (fun hc => ?_) (fun hbase hc => ?_) fun hc => ?_
  · rw [hphase]
    trivial
  · cases hphase.symm.trans hc
  · cases (hmaking hbase).symm.trans hc
  · cases hc
    exact ⟨hc', rfl, hregistered⟩

/-- `handleEvent` of a connection returns. -/
theorem Custody.handleEventReturns (h : s.Custody c)
    (hphase : (s.loops (s.conn c').loop).phase = .handlers (some c'))
    (hclosing : (s.conn c').closing = false) :
    (s.setPhase (s.conn c').loop (.handlers none)).Custody c := by
  refine h.setPhase ?_ trivial (fun hc => ?_) (fun _ _ => rfl) fun hc => by cases hc
  · rw [hphase]
    trivial
  · cases hphase.symm.trans hc
    exact hclosing

/-- The queue becomes the vector of `doPendingFunctors`. -/
theorem Custody.swap (h : s.Custody c) (hbetween : s.BetweenEvents loop) :
    (s.setLoop loop ⟨.functors [] none (s.loops loop).pendingFunctors, []⟩).Custody c := by
  obtain ⟨hphase, hmaking⟩ := hbetween
  have hqueue (f : OwnedFunctor) :
      f ∈ OwnedLoop.queue ⟨.functors [] none (s.loops loop).pendingFunctors, []⟩ ↔
        f ∈ (s.loops loop).queue := by
    simp [OwnedLoop.queue, OwnedPhase.unfinished, hphase]
  refine h.setLoop (moved_setLoop (fun f _ => (hqueue f).mp) (fun hf => Or.inr ((hqueue _).mpr hf))
    (fun _ => ?_) fun _ => ?_) (fun hc => ?_) (fun hbase hc => ?_) (fun hc => by cases hc)
    fun hc => by cases hc
  · simp [OwnedPhase.called, hphase]
  · simp [OwnedPhase.vector, hphase]
  · cases hphase.symm.trans hc
  · cases (hmaking hbase).symm.trans hc

/-- A functor is called that does not take the entry away. If it is `connectDestroyed`, it has set
the state. -/
theorem Custody.calling (h : s.Custody c) {returned rest : List OwnedFunctor}
    (hphase : (s.loops loop).phase = .functors returned none (f :: rest))
    (hremove : f ≠ .removeConnectionInLoop c)
    (hdestroy : f = .connectDestroyed c →
      (s.conn c).loop = loop ∧ (s.conn c).state = .kDisconnected) :
    (s.setPhase loop (.functors returned (some f) rest)).Custody c := by
  have hqueue : OwnedLoop.queue { s.loops loop with phase := .functors returned (some f) rest } =
      (s.loops loop).queue := by
    simp [OwnedLoop.queue, OwnedPhase.unfinished, hphase]
  refine h.setLoop (moved_setLoop (fun f _ hf => hqueue ▸ hf) (fun hf => Or.inr (hqueue ▸ hf))
    (fun _ => ?_) fun _ => ?_) (fun hc => ?_) (fun hbase hc => ?_) (fun hc => by cases hc)
    fun hc => ?_
  · simp [OwnedPhase.called, hphase, hremove.symm]
  · simp [OwnedPhase.vector, hphase]
  · cases hphase.symm.trans hc
  · rw [hbase] at hphase
    cases hphase.symm.trans (h.making hc).2.2
  · exact hdestroy (Option.some.inj hc)

/-- A functor has returned, and if it was `connectDestroyed` then that is done. -/
theorem Custody.returned (h : s.Custody c) {returned rest : List OwnedFunctor}
    (hphase : (s.loops loop).phase = .functors returned (some f) rest)
    (hdestroy : f = .connectDestroyed c → (s.conn c).destroyed = true) :
    (s.setPhase loop (.functors (returned ++ [f]) none rest)).Custody c := by
  refine h.setLoop (moved_setLoop (fun g _ hg => ?_) (fun hg => ?_) (fun _ => ?_) fun _ => ?_)
    (fun hc => ?_) (fun hbase hc => ?_) (fun hc => by cases hc) fun hc => by cases hc
  · have hrest : g ∈ rest ++ (s.loops loop).pendingFunctors := hg
    unfold OwnedLoop.queue
    rw [hphase]
    exact List.mem_cons_of_mem f hrest
  · unfold OwnedLoop.queue at hg
    rw [hphase] at hg
    rcases List.mem_cons.mp hg with heq | hrest
    · exact Or.inl (hdestroy heq.symm)
    · exact Or.inr hrest
  · simp [OwnedPhase.called, hphase]
  · simp [OwnedPhase.vector, hphase]
  · cases hphase.symm.trans hc
  · rw [hbase] at hphase
    cases hphase.symm.trans (h.making hc).2.2

/-- The vector of `doPendingFunctors` holds nothing to run when it goes. -/
theorem queue_batchReturned {returned : List OwnedFunctor}
    (hphase : (s.loops loop).phase = .functors returned none []) :
    OwnedLoop.queue { s.loops loop with phase := .polling } = (s.loops loop).queue := by
  simp [OwnedLoop.queue, OwnedPhase.unfinished, hphase]

/-- The owners that go with the vector of the base loop. -/
theorem owners_batchReturned {returned : List OwnedFunctor}
    (hphase : (s.loops .base).phase = .functors returned none []) (c : ℕ) :
    (s.setPhase .base .polling).owners c + returned.count (.removeConnectionInLoop c) =
      s.owners c := by
  have hcopies : (s.setPhase .base .polling).copies c +
      returned.count (.removeConnectionInLoop c) = s.copies c := by
    unfold Ownership.copies
    rw [setPhase_phase, if_pos rfl, hphase, List.count_append, List.count_append]
    change (0 + (((s.setLoop ..).loops _).pendingFunctors).count _) + _ = _
    rw [setLoop_loops, if_pos rfl]
    change (0 + (s.loops .base).pendingFunctors.count _) + _ =
      (returned ++ [] ++ []).count _ + _
    rw [List.append_nil, List.append_nil]
    omega
  unfold owners
  change (s.conn c).entry.toNat + (if s.making = some c then 1 else 0) +
    (s.conn c).closing.toNat + _ + (s.conn c).others + _ = _
  omega

/-- The vector of `doPendingFunctors` goes, with the copies in it. -/
theorem Custody.batchReturned (h : s.Custody c) {returned : List OwnedFunctor}
    (hphase : (s.loops loop).phase = .functors returned none [])
    (hdone : loop = .base → .removeConnectionInLoop c ∈ returned →
      ¬s.Pending (.connectDestroyed c) ∧
        (s.Raw c → returned.count (.removeConnectionInLoop c) < s.owners c)) :
    (s.setPhase loop .polling).Custody c := by
  have hqueue := queue_batchReturned hphase
  have hmaking (hbase : loop = .base) (hc : s.making = some c) : False := by
    rw [hbase] at hphase
    cases hphase.symm.trans (h.making hc).2.2
  by_cases hmem : loop = .base ∧ .removeConnectionInLoop c ∈ returned
  · obtain ⟨rfl, hmem⟩ := hmem
    obtain ⟨hnone, hraw⟩ := hdone rfl hmem
    have hremoving : s.Removing c := by
      unfold Removing
      rw [hphase]
      exact List.mem_append_left _ hmem
    have hdestroyed := (h.removing hremoving).2.resolve_right hnone
    obtain ⟨hmade, hloop⟩ := h.copies (copies_pos hremoving)
    have hpending (f : OwnedFunctor) : (s.setPhase .base .polling).Pending f → s.Pending f :=
      (pending_setPhase hqueue).mp
    have hbase : ((s.setPhase .base .polling).loops .base).phase = .polling := by
      rw [setPhase_phase, if_pos rfl]
    refine ⟨fun hc => (hmaking rfl hc).elim, fun loop' hc => ?_, fun _ hclose => ?_, h.destroyed,
      fun loop' hc => ?_, fun f hf hc => h.born f hf (hpending f hc), fun _ => ⟨hmade, hloop⟩,
      fun hc => ?_, fun _ halive => ?_, fun _ hinBase => absurd hinBase hloop,
      fun hc => h.establishing (hpending _ hc), fun hc => absurd (hpending _ hc) hnone,
      fun hc => absurd (hpending _ hc) hnone, fun hc => ?_⟩
    · rw [setPhase_phase] at hc
      split at hc
      · cases hc
      · exact h.handling loop' hc
    · change ((s.setPhase .base .polling).loops (s.conn c).loop).phase = _
      rw [setPhase_phase, if_neg hloop]
      exact h.closing hmade hclose
    · rw [setPhase_phase] at hc
      split at hc
      · cases hc
      · exact h.running loop' hc
    · unfold Removing at hc
      rw [hbase] at hc
      cases hc
    · cases hdestroyed.symm.trans halive
    · have howners := hraw (hc.imp (hpending _) (hpending _))
      have hlost := owners_batchReturned hphase c
      omega
  · refine h.setLoop (moved_setLoop (fun f _ hf => hqueue ▸ hf) (fun hf => Or.inr (hqueue ▸ hf))
      (fun hbase => ?_) fun hbase => ?_) (fun hc => ?_) (fun hbase hc => (hmaking hbase hc).elim)
      (fun hc => by cases hc) fun hc => by cases hc
    · rw [hphase]
      refine iff_of_false List.not_mem_nil fun hc => hmem ⟨hbase, ?_⟩
      rwa [OwnedPhase.called, Option.toList_none, List.append_nil] at hc
    · rw [hphase, List.count_append, List.count_append]
      change 0 + _ = (returned ++ [] ++ []).count _ + _
      rw [List.append_nil, List.append_nil,
        List.count_eq_zero.mpr fun hc => hmem ⟨hbase, hc⟩]
    · cases hphase.symm.trans hc

/-! ### Functors that are queued -/

/-- A queued functor changes no phase. -/
theorem queueInLoop_phase (s : Ownership n) (loop loop' : LoopId n) (f : OwnedFunctor) :
    ((s.queueInLoop loop f).loops loop').phase = (s.loops loop').phase := by
  unfold queueInLoop
  rw [setLoop_loops]
  by_cases hloop : loop' = loop
  · rw [if_pos hloop, hloop]
  · rw [if_neg hloop]

/-- A functor that is queued is pending. -/
theorem pending_queueInLoop (s : Ownership n) (loop : LoopId n) (f g : OwnedFunctor) :
    (s.queueInLoop loop f).Pending g ↔ s.Pending g ∨ g = f := by
  have hself : g ∈ OwnedLoop.queue { s.loops loop with
      pendingFunctors := (s.loops loop).pendingFunctors ++ [f] } ↔
        g ∈ (s.loops loop).queue ∨ g = f := by
    unfold OwnedLoop.queue
    rw [← List.append_assoc, List.mem_append, List.mem_singleton]
  unfold queueInLoop
  rw [pending_setLoop, hself]
  constructor
  · rintro ((hold | heq) | ⟨loop', _, hold⟩)
    · exact Or.inl ⟨loop, hold⟩
    · exact Or.inr heq
    · exact Or.inl ⟨loop', hold⟩
  · rintro (⟨loop', hold⟩ | heq)
    · by_cases hloop : loop' = loop
      · exact Or.inl (Or.inl (hloop ▸ hold))
      · exact Or.inr ⟨loop', hloop, hold⟩
    · exact Or.inl (Or.inr heq)

/-- A queued functor was not called. -/
theorem removing_queueInLoop (s : Ownership n) (loop : LoopId n) (f : OwnedFunctor) (c : ℕ) :
    (s.queueInLoop loop f).Removing c ↔ s.Removing c := by
  unfold Removing
  rw [queueInLoop_phase]

/-- A queued functor for `removeConnectionInLoop` is one copy more. -/
theorem copies_queueInLoop (s : Ownership n) (loop : LoopId n) (f : OwnedFunctor) (c : ℕ) :
    (s.queueInLoop loop f).copies c =
      s.copies c + if loop = .base ∧ f = .removeConnectionInLoop c then 1 else 0 := by
  unfold Ownership.copies
  rw [queueInLoop_phase]
  unfold queueInLoop
  rw [setLoop_loops]
  by_cases hbase : LoopId.base = loop
  · rw [if_pos hbase, ← hbase, List.count_append, List.count_append, List.count_append]
    by_cases hf : f = .removeConnectionInLoop c
    · rw [hf, List.count_singleton_self, if_pos ⟨rfl, rfl⟩]
      omega
    · have hnone : [f].count (.removeConnectionInLoop c) = 0 :=
        List.count_eq_zero.mpr fun hc => hf (List.mem_singleton.mp hc).symm
      rw [if_neg fun hc => hf hc.2, hnone]
      omega
  · rw [if_neg hbase, if_neg fun hc => hbase hc.1.symm, Nat.add_zero]

/-- A functor is queued that finds what it needs. -/
theorem Custody.queueInLoop (h : s.Custody c) (hmade : f.connection = c → c < s.made)
    (hestablish : f = .connectEstablished c → s.making = some c)
    (hremove : f = .removeConnectionInLoop c → (s.conn c).loop ≠ .base)
    (hinBase : f = .connectDestroyed c → (s.conn c).loop = .base → (s.conn c).closing = true)
    (hdestroy : f = .connectDestroyed c → (s.conn c).loop ≠ .base → s.Removing c)
    (hraw : f = .sendInLoop c ∨ f = .shutdownInLoop c → 0 < s.owners c) :
    (s.queueInLoop loop f).Custody c where
  making hc := by
    rw [queueInLoop_phase]
    exact h.making hc
  handling loop' hc := by
    rw [queueInLoop_phase] at hc
    exact h.handling loop' hc
  closing hc hclose := by
    rw [queueInLoop_phase]
    exact h.closing hc hclose
  destroyed := h.destroyed
  running loop' hc := by
    rw [queueInLoop_phase] at hc
    exact h.running loop' hc
  born g hg hc := by
    rcases (pending_queueInLoop s loop f g).mp hc with hold | rfl
    · exact h.born g hg hold
    · exact hmade hg
  copies hc := by
    rw [copies_queueInLoop] at hc
    by_cases hnew : loop = .base ∧ f = .removeConnectionInLoop c
    · exact ⟨hmade (by rw [hnew.2]; rfl), hremove hnew.2⟩
    · rw [if_neg hnew] at hc
      exact h.copies hc
  removing hc := by
    obtain ⟨hentry, hdone⟩ := h.removing ((removing_queueInLoop s loop f c).mp hc)
    exact ⟨hentry, hdone.imp_right fun hold => (pending_queueInLoop ..).mpr (Or.inl hold)⟩
  held hc halive := by
    rw [removing_queueInLoop]
    exact h.held hc halive
  waiting hc hbase hclose :=
    (h.waiting hc hbase hclose).imp_right fun hold => (pending_queueInLoop ..).mpr (Or.inl hold)
  establishing hc :=
    ((pending_queueInLoop ..).mp hc).elim h.establishing fun heq => hestablish heq.symm
  destroyingInBase hc :=
    ((pending_queueInLoop ..).mp hc).elim h.destroyingInBase fun heq => hinBase heq.symm
  destroying hc hloop := by
    rw [removing_queueInLoop]
    exact ((pending_queueInLoop ..).mp hc).elim (h.destroying · hloop)
      fun heq => hdestroy heq.symm hloop
  raw hc := by
    have howners : s.owners c ≤ (s.queueInLoop loop f).owners c := by
      unfold owners
      rw [copies_queueInLoop]
      change _ ≤ (s.conn c).entry.toNat + (if s.making = some c then 1 else 0) +
        (s.conn c).closing.toNat + _ + (s.conn c).others
      omega
    refine howners.trans_lt' ?_
    rcases hc with hc | hc <;> rcases (pending_queueInLoop ..).mp hc with hold | heq
    · exact h.raw (Or.inl hold)
    · exact hraw (Or.inl heq.symm)
    · exact h.raw (Or.inr hold)
    · exact hraw (Or.inr heq.symm)

/-- A functor for another connection is queued. -/
theorem Custody.queueInLoop_of_ne (h : s.Custody c) (hne : f.connection ≠ c) :
    (s.queueInLoop loop f).Custody c := by
  have hnot {g : OwnedFunctor} (hg : g.connection = c) : f ≠ g := fun heq => hne (heq ▸ hg)
  exact h.queueInLoop (fun hc => absurd hc hne) (fun hc => absurd hc (hnot rfl))
    (fun hc => absurd hc (hnot rfl)) (fun hc => absurd hc (hnot rfl))
    (fun hc => absurd hc (hnot rfl)) fun hc => hc.elim (absurd · (hnot rfl)) (absurd · (hnot rfl))

end Ownership

end Dalin.Net
