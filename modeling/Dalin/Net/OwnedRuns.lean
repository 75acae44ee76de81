import Dalin.Net.CustodySteps

/-!
# Connections without an owner

Whether every connection has an owner and every functor finds its variable depends
on the order in which frames end and functors run. This file states when a run gets
both right throughout: no frame of `newConnection` may end before the functor that
refers to its variable has run, no connection may close in the base loop, and the
vector of the base loop may not go before the I/O loops are done with what it holds.
-/

set_option autoImplicit false

namespace Dalin.Net

open Transition

namespace Ownership

variable {n : ℕ} {s u : Ownership n} {c : ℕ} {loop : LoopId n} {f : OwnedFunctor}
  {a : OwnedStep n}

/-- Every functor that calls a connection it does not own reaches it, and no connection loses its
last owner before `connectDestroyed` has returned or while its channel is inside `handleEvent`. -/
structure Owned (s : Ownership n) : Prop where
  functors : ∀ f, s.Pending f → f.Borrows → 0 < s.owners f.connection ∧ s.InScope f
  alive : ∀ c < s.made, (s.conn c).destroyed = false → 0 < s.owners c
  handling : ∀ loop c, (s.loops loop).phase = .handlers (some c) → 0 < s.owners c

/-- What a step must wait for. -/
def Timely (s : Ownership n) : OwnedStep n → Prop
  | .newConnectionReturns => ∀ c ∈ s.making, ¬s.Pending (.connectEstablished c)
  | .handleCloseReturns c => (s.conn c).loop ≠ .base
  | .doPendingFunctorsReturns loop => loop = .base → ∀ c < s.made,
    .removeConnectionInLoop c ∈ (s.loops .base).phase.vector → ¬s.Pending (.connectDestroyed c) ∧
      (s.Raw c →
        (s.loops .base).phase.vector.count (.removeConnectionInLoop c) < s.owners c)
  | .drop c => s.Raw c → 1 < s.owners c
  | _ => True

/-- A functor is pending in the base loop or in an I/O loop. -/
theorem pending_iff : s.Pending f ↔
    f ∈ (s.loops .base).queue ∨ ∃ i : Fin n, f ∈ (s.loops (.io i)).queue := by
  constructor
  · rintro ⟨loop, hmem⟩
    cases loop with
    | base => exact Or.inl hmem
    | io i => exact Or.inr ⟨i, hmem⟩
  · rintro (hmem | ⟨i, hmem⟩)
    · exact ⟨.base, hmem⟩
    · exact ⟨.io i, hmem⟩

instance (s : Ownership n) (f : OwnedFunctor) : Decidable (s.Pending f) :=
  decidable_of_iff' _ pending_iff

instance (s : Ownership n) (c : ℕ) : Decidable (s.Raw c) := inferInstanceAs (Decidable (_ ∨ _))

instance (s : Ownership n) (a : OwnedStep n) : Decidable (s.Timely a) := by
  unfold Timely
  apply @OwnedStep.casesOn _ _ a <;> intros <;> infer_instance

instance (s : Ownership n) (a : OwnedStep n) :
    Decidable (((ownershipSystem n).restrict Timely).enabled s a) :=
  inferInstanceAs (Decidable (s.enabled a ∧ s.Timely a))

/-- With custody of every connection, all is owned. -/
theorem owned_of_custody (h : ∀ c, s.Custody c) : s.Owned where
  functors _ hf hborrows := (h _).reaches hf hborrows
  alive c hc halive := (h c).owners_pos hc halive
  handling loop c hphase :=
    (h c).owners_pos ((h c).handling loop hphase).1 ((h c).not_destroyed hphase)

/-- Nothing is pending at the start. -/
theorem not_pending_started (n : ℕ) (f : OwnedFunctor) : ¬(started n).Pending f := by
  rintro ⟨loop, hmem⟩
  cases hmem

/-- A program starts with custody. -/
theorem custody_started (n c : ℕ) : (started n).Custody c where
  making hc := by cases hc
  handling loop hc := by cases hc
  closing hc := absurd hc (Nat.not_lt_zero c)
  destroyed hc := absurd hc (Nat.not_lt_zero c)
  running loop hc := by cases hc
  born f _ hc := absurd hc (not_pending_started n f)
  copies hc := absurd hc (Nat.lt_irrefl 0)
  removing hc := by cases hc
  held hc := absurd hc (Nat.not_lt_zero c)
  waiting hc := absurd hc (Nat.not_lt_zero c)
  establishing hc := absurd hc (not_pending_started n _)
  destroyingInBase hc := absurd hc (not_pending_started n _)
  destroying hc := absurd hc (not_pending_started n _)
  raw hc := hc.elim (fun hc => absurd hc (not_pending_started n _))
    fun hc => absurd hc (not_pending_started n _)

/-- The phase in which a functor may be called. -/
theorem phase_of_mayCall {phase : OwnedPhase} (h : MayCall phase) :
    ∃ returned f rest, phase = .functors returned none (f :: rest) := by
  unfold MayCall at h
  split at h
  · exact ⟨_, _, _, rfl⟩
  · exact h.elim

/-- The phase in which a functor may return. -/
theorem phase_of_running {phase : OwnedPhase} (h : Running phase) :
    ∃ returned f rest, phase = .functors returned (some f) rest := by
  unfold Running at h
  split at h
  · exact ⟨_, _, _, rfl⟩
  · exact h.elim

/-- The phase in which a vector may go. -/
theorem phase_of_finished {phase : OwnedPhase} (h : Finished phase) :
    ∃ returned, phase = .functors returned none [] := by
  unfold Finished at h
  split at h
  · exact ⟨_, rfl⟩
  · exact h.elim

/-- Every timely step keeps custody of every connection. -/
theorem Custody.step (h : ∀ c, s.Custody c) (henabled : s.enabled a) (hexec : s.exec a = .ok u)
    (htimely : s.Timely a) (c : ℕ) : u.Custody c := by
  cases a with
  | pollReturns loop =>
    cases hexec
    exact (h c).pollReturns henabled
  | accept => exact Custody.acceptConnection h henabled hexec c
  | connected =>
    cases hexec
    exact Custody.newConnection h henabled.1 c
  | newConnectionReturns =>
    cases hexec
    exact (h c).newConnectionReturns (htimely c)
  | handleEvent c' =>
    cases hexec
    exact (h c).handleEvent henabled.1 henabled.2.1 henabled.2.2
  | handleClose c' => exact Custody.handleClose h henabled.1 henabled.2.1 hexec c
  | handleCloseReturns c' =>
    cases hexec
    exact Custody.handleCloseReturns h henabled.1 henabled.2 htimely c
  | handleEventReturns c' =>
    cases hexec
    exact (h c).handleEventReturns henabled.2.1 henabled.2.2
  | swap loop =>
    cases hexec
    exact (h c).swap henabled
  | callFunctor loop =>
    obtain ⟨returned, f, rest, hphase⟩ := phase_of_mayCall henabled
    cases f with
    | connectEstablished c' => exact Custody.callConnectEstablished h hphase hexec c
    | removeConnectionInLoop c' => exact Custody.callRemoveConnectionInLoop h hphase hexec c
    | connectDestroyed c' => exact Custody.callConnectDestroyed h hphase hexec c
    | sendInLoop c' => exact (h c).callRaw (Or.inl rfl) hphase hexec
    | shutdownInLoop c' => exact (h c).callRaw (Or.inr rfl) hphase hexec
  | functorReturns loop =>
    obtain ⟨returned, f, rest, hphase⟩ := phase_of_running henabled
    exact Custody.functorReturns h hphase hexec c
  | doPendingFunctorsReturns loop =>
    cases hexec
    obtain ⟨returned, hphase⟩ := phase_of_finished henabled
    refine (h c).batchReturned hphase fun hbase hmem => ?_
    subst hbase
    have hvector : (s.loops .base).phase.vector = returned := by
      rw [hphase]
      simp [OwnedPhase.vector]
    have hcopies : 0 < s.copies c :=
      List.count_pos_iff.mpr (List.mem_append_left _ (hvector ▸ hmem))
    have hdone := htimely rfl c ((h c).copies hcopies).1
    rw [hvector] at hdone
    exact hdone hmem
  | copy c' =>
    cases hexec
    exact Custody.copy h henabled.1 c
  | drop c' =>
    cases hexec
    exact Custody.drop h henabled.1 henabled.2 htimely c
  | send c' =>
    cases hexec
    exact (h c).send henabled.1 henabled.2
  | shutdown c' inLoopThread =>
    cases hexec
    exact Custody.shutdown h henabled.1 henabled.2 inLoopThread c

/-- A step after which all is owned was timely. -/
theorem timely_of_owned (h : ∀ c, s.Custody c) (henabled : s.enabled a) (hexec : s.exec a = .ok u)
    (howned : u.Owned) : s.Timely a := by
  cases a with
  | newConnectionReturns =>
    cases hexec
    intro c _ hpending
    cases (howned.functors (.connectEstablished c) hpending trivial).2
  | handleCloseReturns c =>
    cases hexec
    intro hbase
    have halive := (h c).not_destroyed ((h c).closing henabled.1 henabled.2)
    have hpending := ((h c).waiting henabled.1 hbase henabled.2).resolve_left fun hdead => by
      cases halive.symm.trans hdead
    have hscope := inScope_connectDestroyed.mp
      (howned.functors (.connectDestroyed c) hpending trivial).2
    rw [modifyConn_self] at hscope
    cases hscope.1 hbase
  | doPendingFunctorsReturns loop =>
    cases hexec
    rintro rfl c hc hmem
    obtain ⟨returned, hphase⟩ := phase_of_finished henabled
    have hloop := ((h c).copies (List.count_pos_iff.mpr (List.mem_append_left _ hmem))).2
    have hpending (f : OwnedFunctor) : s.Pending f → (s.setPhase .base .polling).Pending f :=
      (pending_setPhase (queue_batchReturned hphase)).mpr
    refine ⟨fun hdestroy => ?_, fun hraw => ?_⟩
    · have hscope := inScope_connectDestroyed.mp
        (howned.functors (.connectDestroyed c) (hpending _ hdestroy) trivial).2
      have hremoving := hscope.2 hloop
      unfold Removing at hremoving
      rw [setPhase_phase, if_pos rfl] at hremoving
      cases hremoving
    · have hpos : 0 < (s.setPhase .base .polling).owners c := by
        rcases hraw with hraw | hraw
        · exact (howned.functors (.sendInLoop c) (hpending _ hraw) trivial).1
        · exact (howned.functors (.shutdownInLoop c) (hpending _ hraw) trivial).1
      have hlost := owners_batchReturned hphase c
      rw [hphase]
      simp only [OwnedPhase.vector, Option.toList_none, List.append_nil]
      omega
  | drop c =>
    cases hexec
    intro hraw
    have hpos :
        0 < (s.modifyConn c fun conn => { conn with others := conn.others - 1 }).owners c := by
      rcases hraw with hraw | hraw
      · exact (howned.functors (.sendInLoop c) hraw trivial).1
      · exact (howned.functors (.shutdownInLoop c) hraw trivial).1
    have howners := owners_modifyConn s c fun conn => { conn with others := conn.others - 1 }
    change _ = _ + ((s.conn c).entry.toNat + (s.conn c).closing.toNat +
      ((s.conn c).others - 1)) at howners
    have hothers := henabled.2
    omega
  | _ => trivial

end Ownership

/-- **Ownership.** In every run, with any number of I/O loops, all connections are owned and all
functors find their variables in every state exactly if every step is timely. -/
theorem owned_iff_timely {n : ℕ} {s t : Ownership n} {as : List (OwnedStep n)}
    (hinit : (ownershipSystem n).init s) (hrun : (ownershipSystem n).Run s as t) :
    (ownershipSystem n).Always Ownership.Owned s as ↔
      (ownershipSystem n).Throughout Ownership.Timely s as := by
  have hstart : ∀ c, s.Custody c := by
    rw [show s = .started n from hinit]
    exact Ownership.custody_started n
  exact hrun.always_iff_throughout_of_keeps hstart Ownership.owned_of_custody
    (fun h henabled hexec htimely => Ownership.Custody.step h henabled hexec htimely)
    fun h henabled hexec howned => Ownership.timely_of_owned h henabled hexec howned

/-- A connection is accepted without I/O loops, and in the next iteration its peer has closed it. -/
def acceptAndClose : List (OwnedStep 0) :=
  [.pollReturns .base, .accept, .newConnectionReturns, .swap .base,
    .doPendingFunctorsReturns .base, .pollReturns .base, .handleEvent 0, .handleClose 0,
    .handleCloseReturns 0]

/-- Its channel is then inside `handleEvent` without an owner, and the functor for
`connectDestroyed` refers to a variable that is gone. -/
theorem owned_iff_timely_acceptAndClose : ∃ t,
    (ownershipSystem 0).Run (.started 0) acceptAndClose t ∧ t.owners 0 = 0 ∧
      (t.loops .base).phase = .handlers (some 0) ∧
      t.Pending (.connectDestroyed 0) ∧ ¬t.InScope (.connectDestroyed 0) ∧ ¬t.Owned := by
  have hcheck : ((ownershipSystem 0).replay (.started 0) acceptAndClose).any (fun t =>
      decide (t.owners 0 = 0 ∧ (t.loops .base).phase = .handlers (some 0) ∧
        t.Pending (.connectDestroyed 0) ∧ ¬t.InScope (.connectDestroyed 0))) = true := by
    decide +kernel
  obtain ⟨t, hrun, ht⟩ := System.exists_run_of_replay hcheck
  obtain ⟨hnone, hphase, hpending, hscope⟩ := of_decide_eq_true ht
  exact ⟨t, hrun, hnone, hphase, hpending, hscope, fun howned =>
    hscope (howned.functors _ hpending trivial).2⟩

/-- A connection in an I/O loop, from its accept to `connectDestroyed`, with every functor run in
time and a `send` by another thread. -/
def timelyLife : List (OwnedStep 1) :=
  [.pollReturns .base, .accept, .pollReturns (.io 0), .swap (.io 0), .callFunctor (.io 0),
    .copy 0, .functorReturns (.io 0), .doPendingFunctorsReturns (.io 0), .newConnectionReturns,
    .swap .base, .doPendingFunctorsReturns .base, .send 0, .pollReturns (.io 0), .swap (.io 0),
    .callFunctor (.io 0), .functorReturns (.io 0), .doPendingFunctorsReturns (.io 0), .drop 0,
    .pollReturns (.io 0), .handleEvent 0, .handleClose 0, .handleCloseReturns 0,
    .handleEventReturns 0, .pollReturns .base, .swap .base, .callFunctor .base,
    .functorReturns .base, .swap (.io 0), .callFunctor (.io 0), .functorReturns (.io 0),
    .doPendingFunctorsReturns .base]

/-- All is owned in that run, and at its end the connection is destroyed and has no owner. -/
theorem owned_iff_timely_timelyLife : ∃ t, (ownershipSystem 1).Run (.started 1) timelyLife t ∧
    (t.conn 0).destroyed = true ∧ t.owners 0 = 0 ∧
      (ownershipSystem 1).Always Ownership.Owned (.started 1) timelyLife := by
  have hcheck : (((ownershipSystem 1).restrict Ownership.Timely).replay (.started 1)
      timelyLife).any (fun t => decide ((t.conn 0).destroyed = true ∧ t.owners 0 = 0)) = true := by
    decide +kernel
  obtain ⟨t, hrestricted, ht⟩ := System.exists_run_of_replay hcheck
  obtain ⟨hrun, hthroughout⟩ := hrestricted.throughout_of_restrict
  obtain ⟨hdead, hnone⟩ := of_decide_eq_true ht
  exact ⟨t, hrun, hdead, hnone, (owned_iff_timely rfl hrun).mpr hthroughout⟩

end Dalin.Net
