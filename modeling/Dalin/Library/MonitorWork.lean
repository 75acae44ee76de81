import Dalin.Library.Monitor

/-!
# Work that single signals announce

A call may wait for a piece of work, take it, and leave the others to the threads
that come after it. Whoever adds a piece then wakes only one thread, and that
thread may come too late: another one has taken the piece before it. This file
proves that no piece is forgotten nevertheless. As long as a thread sleeps, there
are as many threads on their way as there are pieces of work.
-/

set_option autoImplicit false

namespace Monitors

open Transition ThreadFamily

variable {θ σ γ κ ρ : Type*} [DecidableEq κ]

/-- A thread at this place will see to a piece of the work of `cond`: it is about to test its
guard again, or to signal. -/
def Place.onTheWay (M : Monitor σ γ κ ρ) (cond : κ) : Place γ κ ρ → Bool
  | .entering c | .testing c | .ready c => decide (M.cond c = some cond)
  | .signalling _ _ sig => decide (sig = .one cond)
  | _ => false

/-- Such a thread is awake. -/
theorem Place.moving_of_onTheWay {M : Monitor σ γ κ ρ} {cond : κ} {p : Place γ κ ρ}
    (h : p.onTheWay M cond = true) : p.moving = true := by
  cases p with
  | outside | asleep => cases h
  | _ => rfl

/-- The condition variable, with the threads that are on their way. -/
def Monitor.way (M : Monitor σ γ κ ρ) (cond : κ) : Condition (Place γ κ ρ) where
  asleep := (M.condition cond).asleep
  woken := Place.onTheWay M cond
  wake := (M.condition cond).wake
  not_woken p h := by
    obtain ⟨c, rfl, -⟩ := Monitor.asleep_iff.mp h
    rfl
  woken_wake p h := by
    refine ⟨((M.condition cond).woken_wake p h).1, ?_⟩
    obtain ⟨c, rfl, hcond⟩ := Monitor.asleep_iff.mp h
    simp [Monitor.condition, Place.onTheWay, hcond]
  wake_awake := (M.condition cond).wake_awake

/-- The calls that wait on `cond` wait for work and take at most one piece, and a body that adds
a piece is followed by a signal. -/
structure Announces (M : Monitor σ γ κ ρ) (cond : κ) (work : σ → ℕ) : Prop where
  idle : ∀ c d, M.cond c = some cond → M.guard c d = false → work d = 0
  body : ∀ c d, M.guard c d = true → work (M.body c d) ≤
    work d - (if M.cond c = some cond then 1 else 0) + if M.signal c d = .one cond then 1 else 0

namespace State

variable [DecidableEq θ] [Fintype θ] {M : Monitor σ γ κ ρ} {may : θ → γ → Prop} {d : σ}
  {s s' : State θ σ γ κ ρ} {a : Action θ γ} {t : θ} {cond : κ} {work : σ → ℕ}

/-- As long as a thread sleeps, there are enough others on their way for all of the work. -/
def Enough (M : Monitor σ γ κ ρ) (cond : κ) (work : σ → ℕ) (s : State θ σ γ κ ρ) : Prop :=
  (M.way cond).Covered s.place (work s.data)

omit [DecidableEq θ] in
/-- A step that leaves the data as it is, after which its thread is no less on its way. -/
theorem Enough.of_others (h : Enough M cond work s) (hdata : s'.data = s.data)
    (hothers : ∀ u, u ≠ t → s'.place u = s.place u ∨ s'.place u = (s.place u).wake)
    (hawake : (M.way cond).asleep (s'.place t) = false)
    (hway : (s.place t).onTheWay M cond = true → (s'.place t).onTheWay M cond = true) :
    Enough M cond work s' := by
  unfold Enough
  rw [hdata]
  refine Condition.Covered.of_forall h (fun u hu => ?_) fun u hu => ?_
  · have hne : u ≠ t := by
      rintro rfl
      cases hawake.symm.trans hu
    rcases hothers u hne with heq | heq
    · rwa [← heq]
    · obtain ⟨c, hc, -⟩ := Monitor.asleep_iff.mp hu
      rw [hc] at heq
      cases hplace : s.place u <;> simp [hplace, Place.wake] at heq
  · by_cases hne : u = t
    · subst hne
      exact hway hu
    change (s'.place u).onTheWay M cond = true
    rcases hothers u hne with heq | heq
    · rwa [heq]
    · rw [heq]
      cases hplace : s.place u with
      | asleep c =>
        rw [hplace] at hu
        cases hu
      | _ =>
        rw [hplace] at hu
        exact hu

omit [DecidableEq θ] in
/-- Without work nobody has to be on his way. -/
theorem Enough.of_idle (h : work s.data = 0) : Enough M cond work s := by
  unfold Enough
  rw [h]
  exact Condition.covered_zero

/-- Every step keeps enough threads on their way. -/
theorem Enough.step (h : Enough M cond work s) (hM : Announces M cond work) (hexcl : Exclusive M s)
    (hstep : Step M may s a s') : Enough M cond work s' := by
  have hothers := hstep.others
  cases hstep with
  | @call t c hplace _ | @leave t c r hplace =>
    exact h.of_others (t := t) rfl hothers (by simp [move, Monitor.way, Monitor.condition])
      (by simp [hplace, Place.onTheWay])
  | @acquire t c hplace _ | @wake t c hplace =>
    exact h.of_others (t := t) rfl hothers (by simp [move, Monitor.way, Monitor.condition])
      (by simp [move, hplace, Place.onTheWay])
  | @test t c hplace =>
    by_cases hguard : M.guard c s.data = true
    · refine h.of_others (t := t) rfl hothers ?_ ?_
      · simp [hguard, Monitor.way, Monitor.condition]
      · simp [hguard, hplace, Place.onTheWay]
    · by_cases hcond : M.cond c = some cond
      · exact .of_idle (hM.idle c s.data hcond (Bool.eq_false_iff.mpr hguard))
      · refine h.of_others (t := t) rfl hothers ?_ ?_
        · simp [hguard, Monitor.way, Monitor.condition]
        · simp [hplace, Place.onTheWay, hcond]
  | @sleep t c hplace =>
    by_cases hcond : M.cond c = some cond
    · exact .of_idle (hM.idle c s.data hcond (hexcl.waiting t c hplace))
    · refine h.of_others (t := t) rfl hothers ?_ ?_
      · simp [move, Monitor.way, Monitor.condition, hcond]
      · simp [hplace, Place.onTheWay]
  | @act t c hplace =>
    have hbody := hM.body c s.data (hexcl.ready t c hplace)
    refine Condition.Covered.update h rfl ?_
    simpa [hplace, one, Monitor.way, Place.onTheWay] using hbody
  | @signal t c r sig notified hplace hchooses =>
    by_cases hone : sig = .one cond
    · subst hone
      exact (Condition.Covered.notify h hchooses).leave rfl
    · refine h.of_others (t := t) rfl hothers ?_ ?_
      · simp [Monitor.way, Monitor.condition]
      · simp [hplace, Place.onTheWay, hone]

/-- **No piece of work is forgotten.** In every reachable state there are enough threads on their
way for all of the work, unless nobody sleeps. -/
theorem enough_of_reachable (hM : Announces M cond work) (h : (M.system may d).Reachable s) :
    Enough M cond work s := by
  refine (h.invariant (I := fun s => Exclusive M s ∧ Enough M cond work s) (fun hnew => ?_)
    fun hI henabled hexec => ?_).2
  · refine ⟨hnew.exclusive, ?_⟩
    rintro ⟨t, ht⟩
    obtain ⟨c, hc, -⟩ := Monitor.asleep_iff.mp ht
    cases (hnew.outside t).symm.trans hc
  · have hstep := step_of_exec henabled hexec
    exact ⟨hI.1.step hstep, hI.2.step hM hI.1 hstep⟩

omit [DecidableEq θ] in
/-- A thread that sleeps although there is work leaves it to a thread that is awake. -/
theorem Enough.exists_moving (h : Enough M cond work s) {c : γ} (hasleep : s.place t = .asleep c)
    (hcond : M.cond c = some cond) (hwork : 0 < work s.data) : ∃ u, (s.place u).moving = true := by
  obtain ⟨u, hu⟩ := h.exists_woken hwork ⟨t, Monitor.asleep_iff.mpr ⟨c, hasleep, hcond⟩⟩
  exact ⟨u, Place.moving_of_onTheWay hu⟩

end State

end Monitors
