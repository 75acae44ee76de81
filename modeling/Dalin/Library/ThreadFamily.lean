import Mathlib.Algebra.BigOperators.Group.Finset.Basic
import Mathlib.Algebra.BigOperators.Group.Finset.Piecewise
import Mathlib.Algebra.Order.BigOperators.Group.Finset

/-!
# Families of threads

The threads of a program are the elements of a finite type, and a function gives
the place of each. This file keeps account of such a family: what its threads
hold together, and how many of them are at places of a kind. For the threads that
wait on a condition variable it has the rule of single signals: as long as a
thread sleeps, there are as many wake-ups in flight as there is work.
-/

set_option autoImplicit false

namespace ThreadFamily

variable {ι α M : Type*} [Fintype ι] [DecidableEq ι] [AddCommMonoid M]
  {f : ι → α} {i : ι} {a : α}

/-- What all threads together hold at their places. -/
def total (g : α → M) (f : ι → α) : M := ∑ i, g (f i)

/-- A thread that moves gives up what it held and gets what its new place holds. -/
theorem total_update (g : α → M) (f : ι → α) (i : ι) (a : α) :
    total g (Function.update f i a) + g (f i) = total g f + g a := by
  have hrest : ∑ j ∈ Finset.univ.erase i, g (Function.update f i a j) =
      ∑ j ∈ Finset.univ.erase i, g (f j) := by
    refine Finset.sum_congr rfl fun j hj => ?_
    rw [Function.update_of_ne (Finset.ne_of_mem_erase hj)]
  unfold total
  rw [← Finset.add_sum_erase _ (fun j => g (Function.update f i a j)) (Finset.mem_univ i),
    ← Finset.add_sum_erase _ (fun j => g (f j)) (Finset.mem_univ i), hrest,
    Function.update_self, add_comm (g a + _), add_comm (g a), add_assoc]

/-- A move between places that hold the same changes nothing. -/
theorem total_update_of_eq [IsCancelAdd M] {g : α → M} (h : g a = g (f i)) :
    total g (Function.update f i a) = total g f := by
  have hupdate := total_update g f i a
  rw [h] at hupdate
  exact add_right_cancel hupdate

omit [DecidableEq ι] in
/-- Threads that hold nothing hold nothing together. -/
theorem total_eq_zero {g : α → M} (h : ∀ i, g (f i) = 0) : total g f = 0 :=
  Finset.sum_eq_zero fun i _ => h i

omit [DecidableEq ι] in
/-- What one thread holds is a part of what all hold. -/
theorem le_total (g : α → ℕ) (f : ι → α) (i : ι) : g (f i) ≤ total g f :=
  Finset.single_le_sum (f := fun j => g (f j)) (fun _ _ => Nat.zero_le _) (Finset.mem_univ i)

/-! ### Counting -/

/-- One if a place is of the kind. -/
def one (p : α → Prop) [DecidablePred p] (a : α) : ℕ := if p a then 1 else 0

/-- The number of threads at places of a kind. -/
def count (p : α → Prop) [DecidablePred p] (f : ι → α) : ℕ := total (one p) f

variable {p : α → Prop} [DecidablePred p]

/-- A thread that comes to a place of the kind is counted. -/
theorem count_arrive (hfrom : ¬ p (f i)) (hto : p a) :
    count p (Function.update f i a) = count p f + 1 := by
  have hupdate := total_update (one p) f i a
  simp only [one, if_neg hfrom, if_pos hto] at hupdate
  unfold count
  omega

omit [DecidableEq ι] in
/-- A count that is not zero comes from a thread. -/
theorem exists_of_count_pos (h : 0 < count p f) : ∃ i, p (f i) := by
  by_contra hnone
  have hzero : count p f = 0 := total_eq_zero fun i => if_neg fun hp => hnone ⟨i, hp⟩
  omega

/-! ### Condition variables -/

/-- The places of a thread that uses a condition variable. A signal moves it from a place
where it sleeps to one where it is awake and has not gone on. -/
structure Condition (α : Type*) where
  asleep : α → Bool
  woken : α → Bool
  wake : α → α
  not_woken : ∀ a, asleep a = true → woken a = false
  woken_wake : ∀ a, asleep a = true → asleep (wake a) = false ∧ woken (wake a) = true
  wake_awake : ∀ a, asleep a = false → wake a = a

namespace Condition

variable {C : Condition α} {n m : ℕ} {notified : Option ι}

/-- A signal may wake this thread: any that sleeps, or none if there is none. -/
def Signals (C : Condition α) (f : ι → α) : Option ι → Prop
  | some i => C.asleep (f i) = true
  | none => ∀ i, C.asleep (f i) = false

instance (C : Condition α) (f : ι → α) (notified : Option ι) :
    Decidable (C.Signals f notified) := by
  cases notified <;> unfold Signals <;> infer_instance

/-- The effect of a signal. -/
def notify (C : Condition α) (f : ι → α) : Option ι → ι → α
  | some i => Function.update f i (C.wake (f i))
  | none => f

/-- The effect of a broadcast. -/
def notifyAll (C : Condition α) (f : ι → α) (i : ι) : α := C.wake (f i)

/-- While a thread sleeps, wake-ups are in flight for all of the work. -/
def Covered (C : Condition α) (f : ι → α) (work : ℕ) : Prop :=
  (∃ i, C.asleep (f i) = true) → work ≤ count (fun a => C.woken a = true) f

omit [Fintype ι] in
/-- A thread that sleeps after a step of another one slept before. -/
theorem asleep_of_update (ha : C.asleep a = false)
    (h : ∃ j, C.asleep (Function.update f i a j) = true) : ∃ j, C.asleep (f j) = true := by
  obtain ⟨j, hj⟩ := h
  by_cases heq : j = i
  · subst heq
    rw [Function.update_self, ha] at hj
    cases hj
  · rw [Function.update_of_ne heq] at hj
    exact ⟨j, hj⟩

omit [DecidableEq ι] in
/-- Nothing has to be done for no work. -/
theorem covered_zero : C.Covered f 0 := fun _ => Nat.zero_le _

omit [DecidableEq ι] in
/-- Less work needs fewer wake-ups. -/
theorem Covered.mono (h : C.Covered f n) (hle : m ≤ n) : C.Covered f m := fun hasleep =>
  hle.trans (h hasleep)

omit [DecidableEq ι] in
/-- Threads of which none falls asleep and none gives up a wake-up. -/
theorem Covered.of_forall {f' : ι → α} (h : C.Covered f n)
    (hasleep : ∀ j, C.asleep (f' j) = true → C.asleep (f j) = true)
    (hwoken : ∀ j, C.woken (f j) = true → C.woken (f' j) = true) : C.Covered f' n := by
  rintro ⟨j, hj⟩
  refine (h ⟨j, hasleep j hj⟩).trans (Finset.sum_le_sum fun j _ => ?_)
  unfold one
  by_cases hw : C.woken (f j) = true
  · rw [if_pos hw, if_pos (hwoken j hw)]
  · rw [if_neg hw]
    exact Nat.zero_le _

/-- A thread that goes on gives up its wake-up, and its new place may be one again. -/
theorem Covered.update (h : C.Covered f n) (ha : C.asleep a = false)
    (hm : m ≤ n - one (fun b => C.woken b = true) (f i) + one (fun b => C.woken b = true) a) :
    C.Covered (Function.update f i a) m := by
  intro hasleep
  have hcount := h (asleep_of_update ha hasleep)
  have hupdate := total_update (one fun b => C.woken b = true) f i a
  have hle := le_total (one fun b => C.woken b = true) f i
  unfold count at hcount ⊢
  omega

/-- A thread that goes on takes away at most one wake-up. -/
theorem Covered.leave (h : C.Covered f n) (ha : C.asleep a = false) :
    C.Covered (Function.update f i a) (n - 1) := by
  have hone : one (fun b => C.woken b = true) (f i) ≤ 1 := by
    unfold one
    split <;> omega
  exact h.update ha (by omega)

/-- A thread that is not on a wake-up goes on without taking one away. -/
theorem Covered.move (h : C.Covered f n) (hfrom : C.woken (f i) = false)
    (ha : C.asleep a = false) : C.Covered (Function.update f i a) n := by
  have hzero : one (fun b => C.woken b = true) (f i) = 0 := if_neg (by simp [hfrom])
  exact h.update ha (by omega)

/-- A signal covers one more unit of work. -/
theorem Covered.notify (h : C.Covered f n) (hsignals : C.Signals f notified) :
    C.Covered (C.notify f notified) (n + 1) := by
  intro hasleep
  cases notified with
  | none =>
    obtain ⟨i, hi⟩ := hasleep
    cases hi.symm.trans (hsignals i)
  | some i =>
    obtain ⟨hawake, hwoken⟩ := C.woken_wake _ hsignals
    have hcount := h ⟨i, hsignals⟩
    have harrive : count (fun b => C.woken b = true) (Function.update f i (C.wake (f i))) =
        count (fun b => C.woken b = true) f + 1 :=
      count_arrive (by simp [C.not_woken _ hsignals]) hwoken
    change n + 1 ≤ count _ (Function.update f i (C.wake (f i)))
    omega

omit [Fintype ι] [DecidableEq ι] in
/-- After a broadcast nobody sleeps. -/
theorem awake_of_notifyAll (C : Condition α) (f : ι → α) (i : ι) :
    C.asleep (C.notifyAll f i) = false := by
  unfold notifyAll
  cases hasleep : C.asleep (f i) with
  | true => exact (C.woken_wake _ hasleep).1
  | false => rwa [C.wake_awake _ hasleep]

omit [DecidableEq ι] in
/-- Work that is covered while a thread sleeps has a wake-up in flight. -/
theorem Covered.exists_woken (h : C.Covered f n) (hn : 0 < n)
    (hasleep : ∃ i, C.asleep (f i) = true) : ∃ i, C.woken (f i) = true :=
  exists_of_count_pos (hn.trans_le (h hasleep))

omit [Fintype ι] in
/-- Whoever is asleep after a signal was asleep before. -/
theorem asleep_of_notify (hsignals : C.Signals f notified) (j : ι)
    (h : C.asleep (C.notify f notified j) = true) : C.asleep (f j) = true := by
  cases notified with
  | none => exact h
  | some i =>
    change C.asleep (Function.update f i (C.wake (f i)) j) = true at h
    by_cases heq : j = i
    · subst heq
      exact hsignals
    · rwa [Function.update_of_ne heq] at h

omit [Fintype ι] in
/-- **Signals at two levels.** The threads `ι` are told of at another level, where they sleep and
wake up in the same way, and nobody else waits on the condition. Then a signal at the one level is
a signal at the other. -/
theorem exists_signals {β κ : Type*} [DecidableEq κ] {D : Condition β} {g : κ → β} {e : κ → ι}
    {R : κ → α → β → Prop} (hinj : Function.Injective e) (hR : ∀ k, R k (f (e k)) (g k))
    (hasleep : ∀ {k a b}, R k a b → C.asleep a = D.asleep b)
    (hwake : ∀ {k a b}, R k a b → C.asleep a = true → R k (C.wake a) (D.wake b))
    (hothers : ∀ i, C.asleep (f i) = true → ∃ k, i = e k) (hsignals : C.Signals f notified) :
    ∃ notified', D.Signals g notified' ∧
      (∀ k, R k (C.notify f notified (e k)) (D.notify g notified' k)) ∧
      ∀ i, (∀ k, i ≠ e k) → C.notify f notified i = f i := by
  cases notified with
  | none => exact ⟨none, fun k => (hasleep (hR k)).symm.trans (hsignals (e k)), hR, fun _ _ => rfl⟩
  | some i =>
    obtain ⟨k, rfl⟩ := hothers i hsignals
    refine ⟨some k, (hasleep (hR k)).symm.trans hsignals, fun k' => ?_, fun i hi => ?_⟩
    · change R k' (Function.update f (e k) _ (e k')) (Function.update g k _ k')
      by_cases hk : k' = k
      · subst hk
        rw [Function.update_self, Function.update_self]
        exact hwake (hR k') hsignals
      · rw [Function.update_of_ne hk, Function.update_of_ne (hinj.ne hk)]
        exact hR k'
    · exact Function.update_of_ne (hi k) ..

end Condition

end ThreadFamily
