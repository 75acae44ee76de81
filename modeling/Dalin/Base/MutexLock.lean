import Dalin.Library.Transition
import Mathlib.Data.Fintype.Basic
import Mathlib.Data.Int.Notation
import Mathlib.Logic.Function.Basic

/-!
# The mutex that knows its holder

`MutexLock` writes down in `holder_` which thread has its pthread mutex. This file
embeds `MutexLock` and the waits of `Condition` at the grain of their accesses to
`holder_` and to the pthread mutex, which any number of threads make in any order,
and asks when `holder_` is accurate. `Condition::wait` unassigns the holder for the
time of the wait; `Condition::waitForSeconds` does not.
-/

set_option autoImplicit false

namespace Dalin

open Transition

/-- The ids the kernel gives to the threads `θ`. -/
structure ThreadIds (θ : Type*) where
  /-- What `gettid` returns. -/
  gettid : θ → ℕ
  gettid_ne_zero : ∀ t, gettid t ≠ 0
  gettid_injective : Function.Injective gettid

/-- A `struct timespec`. -/
structure Timespec where
  tv_sec : ℤ
  tv_nsec : ℤ
  deriving DecidableEq

/-- Where a thread is in `MutexLock` and in the waits on the conditions `κ`. -/
inductive MutexPlace (κ : Type*)
  /-- In none of the functions, without the mutex. -/
  | outside
  /-- In `lock`, at `pthread_mutex_lock`. -/
  | locking
  /-- In `lock`, at `assignHolder`. -/
  | locked
  /-- Between the return of `lock` or of a wait and the next `unlock` or wait. -/
  | critical
  /-- In `unlock`, at `pthread_mutex_unlock`. -/
  | unlocking
  /-- In `wait`, behind the `UnassignGuard`, at `pthread_cond_wait`. -/
  | waiting (cond : κ)
  /-- In `wait`, asleep, without the mutex. -/
  | asleep (cond : κ)
  /-- In `wait`, awake, without the mutex. -/
  | woken
  /-- In `wait`, with the mutex again, at `~UnassignGuard`. -/
  | rewoken
  /-- In `waitForSeconds`, asleep, without the mutex. -/
  | timedAsleep (cond : κ)
  /-- In `waitForSeconds`, awake, without the mutex. -/
  | timedWoken (timedOut : Bool)
  deriving DecidableEq

/-- A `MutexLock` and the threads that use it. -/
structure MutexLock (θ κ : Type*) where
  /-- The thread that owns `mutex_`. -/
  owner : Option θ
  /-- `holder_`. -/
  holder : ℕ
  place : θ → MutexPlace κ
  /-- `t_cachedTid` of each thread. -/
  cachedTid : θ → ℕ
  /-- What the last `waitForSeconds` of each thread returned. -/
  timedOut : θ → Bool

/-- A step of a thread, or one by which it is woken up. -/
inductive MutexStep (θ κ : Type*)
  /-- The call of `lock`. -/
  | lock (t : θ)
  /-- `pthread_mutex_lock` returns, or a wait on a condition has the mutex again. -/
  | acquire (t : θ)
  /-- `assignHolder`, in `lock` or in `~UnassignGuard`. -/
  | assignHolder (t : θ)
  /-- The call of `unlock` and its `unassignHolder`. -/
  | unlock (t : θ)
  /-- `pthread_mutex_unlock`. -/
  | release (t : θ)
  /-- The call of `wait` and the `unassignHolder` of its guard. -/
  | wait (t : θ) (cond : κ)
  /-- `pthread_cond_wait` gives the mutex away and puts the thread to sleep. -/
  | condWait (t : θ)
  /-- The call of `waitForSeconds` up to the sleep in `pthread_cond_timedwait`. The clock says
  `now`, and `seconds` comes to `nanoSeconds`. -/
  | waitForSeconds (t : θ) (cond : κ) (now : Timespec) (nanoSeconds : ℤ)
  /-- `notify` wakes one of the threads that sleep on the condition, if there is one. -/
  | notify (cond : κ) (notified : Option θ)
  | notifyAll (cond : κ)
  /-- A spurious wake-up. -/
  | wake (t : θ)
  /-- The time of a `pthread_cond_timedwait` is over. -/
  | timeOut (t : θ)

/-- `kNanoSecondPerSecond`. -/
def kNanoSecondPerSecond : ℤ := 1000000000

/-- The time at which `waitForSeconds` wants to be woken up. -/
def waitUntil (now : Timespec) (nanoSeconds : ℤ) : Timespec where
  tv_sec := now.tv_sec + (now.tv_nsec + nanoSeconds).tdiv kNanoSecondPerSecond
  tv_nsec := (now.tv_nsec + nanoSeconds).tmod kNanoSecondPerSecond

/-- `pthread_cond_timedwait` refuses a time like this with `EINVAL` and keeps the mutex. -/
def Timespec.Invalid (time : Timespec) : Prop :=
  time.tv_nsec < 0 ∨ kNanoSecondPerSecond ≤ time.tv_nsec

instance (time : Timespec) : Decidable time.Invalid := inferInstanceAs (Decidable (_ ∨ _))

namespace MutexPlace

variable {κ : Type*} [DecidableEq κ]

/-- The thread owns the mutex and has not assigned the holder, or has unassigned it. -/
def bare : MutexPlace κ → Bool
  | .locked | .unlocking | .waiting _ | .rewoken => true
  | _ => false

/-- The thread owns the mutex. -/
def owns : MutexPlace κ → Bool
  | .critical => true
  | place => place.bare

/-- The thread has slept in `waitForSeconds` and is not back yet. -/
def timed : MutexPlace κ → Bool
  | .timedAsleep _ | .timedWoken _ => true
  | _ => false

/-- The thread sleeps on the condition. -/
def sleepsOn (cond : κ) : MutexPlace κ → Bool
  | .asleep c | .timedAsleep c => c = cond
  | _ => false

/-- The thread is inside a call of pthread that returns with the mutex. -/
def wantsMutex : MutexPlace κ → Bool
  | .locking | .woken | .timedWoken _ => true
  | _ => false

/-- The thread is at `pthread_cond_wait`. -/
def unassigned : MutexPlace κ → Bool
  | .waiting _ => true
  | _ => false

/-- The thread sleeps in `pthread_cond_timedwait`. -/
def sleepsInTime : MutexPlace κ → Bool
  | .timedAsleep _ => true
  | _ => false

/-- The thread sleeps. -/
def sleeps : MutexPlace κ → Bool
  | .asleep _ | .timedAsleep _ => true
  | _ => false

/-- Where a thread that sleeps is after it has been woken up. -/
def wake : MutexPlace κ → MutexPlace κ
  | .asleep _ => .woken
  | .timedAsleep _ => .timedWoken false
  | place => place

end MutexPlace

namespace MutexLock

variable {θ κ : Type*} [DecidableEq θ] [DecidableEq κ]

/-- `MutexLock::MutexLock()`, before any thread uses the mutex. Some threads may have asked
for their ids. -/
structure New (k : ThreadIds θ) (s : MutexLock θ κ) : Prop where
  owner : s.owner = none
  holder : s.holder = 0
  outside : ∀ t, s.place t = .outside
  cached : ∀ t, s.cachedTid t = 0 ∨ s.cachedTid t = k.gettid t

/-- `CurrentThread::tid()` in a thread. -/
def tid (k : ThreadIds θ) (s : MutexLock θ κ) (t : θ) : ℕ :=
  if s.cachedTid t = 0 then k.gettid t else s.cachedTid t

/-- `MutexLock::isLockedByThisThread` in a thread. -/
def isLockedByThisThread (k : ThreadIds θ) (s : MutexLock θ κ) (t : θ) : Bool :=
  s.holder = s.tid k t

/-- The thread goes on to another place. -/
def setPlace (s : MutexLock θ κ) (t : θ) (p : MutexPlace κ) : MutexLock θ κ :=
  { s with place := Function.update s.place t p }

/-- `MutexLock::assignHolder` in a thread. -/
def assignHolder (k : ThreadIds θ) (s : MutexLock θ κ) (t : θ) : MutexLock θ κ :=
  { s with holder := s.tid k t, cachedTid := Function.update s.cachedTid t (s.tid k t) }

/-- `MutexLock::unassignHolder`. -/
def unassignHolder (s : MutexLock θ κ) : MutexLock θ κ := { s with holder := 0 }

/-- The steps that can be taken. Only a thread that has the mutex unlocks it or waits; a thread
that locks it again is stuck for ever. -/
def enabled (s : MutexLock θ κ) : MutexStep θ κ → Prop
  | .lock t => s.place t = .outside ∨ s.place t = .critical
  | .acquire t => s.owner = none ∧ (s.place t).wantsMutex = true
  | .assignHolder t => s.place t = .locked ∨ s.place t = .rewoken
  | .unlock t | .wait t _ | .waitForSeconds t _ _ _ => s.place t = .critical
  | .release t => s.place t = .unlocking
  | .condWait t => (s.place t).unassigned = true
  | .notify cond (some t) => (s.place t).sleepsOn cond = true
  | .notify cond none => ∀ t, (s.place t).sleepsOn cond = false
  | .notifyAll _ => True
  | .wake t => (s.place t).sleeps = true
  | .timeOut t => (s.place t).sleepsInTime = true

instance [Fintype θ] (s : MutexLock θ κ) : (a : MutexStep θ κ) → Decidable (s.enabled a)
  | .lock _ | .assignHolder _ => inferInstanceAs (Decidable (_ ∨ _))
  | .acquire _ => inferInstanceAs (Decidable (_ ∧ _))
  | .unlock _ | .wait _ _ | .waitForSeconds _ _ _ _ | .release _ =>
    inferInstanceAs (Decidable (_ = _))
  | .condWait _ | .notify _ (some _) | .wake _ | .timeOut _ =>
    inferInstanceAs (Decidable (_ = true))
  | .notify cond none => inferInstanceAs (Decidable (∀ t, (s.place t).sleepsOn cond = false))
  | .notifyAll _ => inferInstanceAs (Decidable True)

/-- What a step does. -/
def exec (k : ThreadIds θ) (s : MutexLock θ κ) : MutexStep θ κ → MutexLock θ κ
  | .lock t => s.setPlace t .locking
  | .acquire t =>
    match s.place t with
    | .locking => { s.setPlace t .locked with owner := some t }
    | .woken => { s.setPlace t .rewoken with owner := some t }
    | .timedWoken timedOut =>
      { s.setPlace t .critical with
        owner := some t
        timedOut := Function.update s.timedOut t timedOut }
    | _ => s
  | .assignHolder t => (s.assignHolder k t).setPlace t .critical
  | .unlock t => s.unassignHolder.setPlace t .unlocking
  | .release t => { s.setPlace t .outside with owner := none }
  | .wait t cond => s.unassignHolder.setPlace t (.waiting cond)
  | .condWait t =>
    match s.place t with
    | .waiting cond => { s.setPlace t (.asleep cond) with owner := none }
    | _ => s
  | .waitForSeconds t cond now nanoSeconds =>
    if (waitUntil now nanoSeconds).Invalid then
      { s with timedOut := Function.update s.timedOut t false }
    else { s.setPlace t (.timedAsleep cond) with owner := none }
  | .notify _ (some t) => s.setPlace t (s.place t).wake
  | .notify _ none => s
  | .notifyAll cond =>
    { s with place := fun t => if (s.place t).sleepsOn cond then (s.place t).wake else s.place t }
  | .wake t => s.setPlace t (s.place t).wake
  | .timeOut t => s.setPlace t (.timedWoken true)

end MutexLock

/-- A mutex and its conditions, used by any number of threads. -/
def mutexSystem {θ : Type*} (κ : Type*) [DecidableEq θ] [DecidableEq κ] (k : ThreadIds θ) :
    System (MutexLock θ κ) (MutexStep θ κ) Empty where
  init := MutexLock.New k
  enabled := MutexLock.enabled
  exec s a := .ok (s.exec k a)

instance {θ κ : Type*} [Fintype θ] [DecidableEq θ] [DecidableEq κ] (k : ThreadIds θ)
    (s : MutexLock θ κ) (a : MutexStep θ κ) : Decidable ((mutexSystem κ k).enabled s a) :=
  inferInstanceAs (Decidable (s.enabled a))

namespace MutexLock

variable {θ κ : Type*} [DecidableEq θ] [DecidableEq κ] {k : ThreadIds θ} {s : MutexLock θ κ}
  {t : θ}

/-- The recorded holder is accurate. A thread that owns the mutex and is between the calls finds
itself recorded and no other thread does, and nobody is recorded while nobody owns it. -/
structure Accurate (k : ThreadIds θ) (s : MutexLock θ κ) : Prop where
  holder_eq : ∀ t, s.owner = some t → s.place t = .critical → s.holder = k.gettid t
  locked_by : ∀ t, s.owner = some t → s.place t = .critical → s.isLockedByThisThread k t = true ∧
    ∀ u, u ≠ t → s.isLockedByThisThread k u = false
  unlocked : s.owner = none → s.holder = 0

/-- The step does not put a thread to sleep in `waitForSeconds`: the time is refused. -/
def Refused : MutexLock θ κ → MutexStep θ κ → Prop
  | _, .waitForSeconds _ _ now nanoSeconds => (waitUntil now nanoSeconds).Invalid
  | _, _ => True

/-- What holds as long as nobody has slept in `waitForSeconds`. -/
structure Recorded (k : ThreadIds θ) (s : MutexLock θ κ) : Prop where
  cached : ∀ t, s.cachedTid t = 0 ∨ s.cachedTid t = k.gettid t
  owner : ∀ t, (s.place t).owns = true → s.owner = some t
  assigned : ∀ t, s.place t = .critical → s.holder = k.gettid t
  bare : ∀ t, (s.place t).bare = true → s.holder = 0
  unlocked : s.owner = none → s.holder = 0
  untimed : ∀ t, (s.place t).timed = false

omit [DecidableEq θ] [DecidableEq κ] in
/-- A thread knows its id, asked for before or not. -/
theorem Recorded.tid_eq (h : s.Recorded k) (t : θ) : s.tid k t = k.gettid t := by
  unfold tid
  rcases h.cached t with hzero | hcached
  · rw [if_pos hzero]
  · rw [hcached]
    exact if_neg (k.gettid_ne_zero t)

omit [DecidableEq θ] [DecidableEq κ] in
/-- A mutex nobody has used is recorded as free. -/
theorem New.recorded (h : s.New k) : s.Recorded k where
  cached := h.cached
  owner t ht := by
    rw [h.outside] at ht
    cases ht
  assigned t ht := by
    rw [h.outside] at ht
    cases ht
  bare _ _ := h.holder
  unlocked _ := h.holder
  untimed t := by
    rw [h.outside]
    rfl

omit [DecidableEq θ] [DecidableEq κ] in
/-- As long as nobody has slept in `waitForSeconds`, the recorded holder is accurate. -/
theorem Recorded.accurate (h : s.Recorded k) : s.Accurate k where
  holder_eq t _ ht := h.assigned t ht
  locked_by t _ ht := by
    have hholder := h.assigned t ht
    refine ⟨?_, fun u hne => ?_⟩
    · rw [isLockedByThisThread, h.tid_eq, hholder, decide_eq_true rfl]
    · rw [isLockedByThisThread, h.tid_eq, hholder]
      exact decide_eq_false fun heq => hne (k.gettid_injective heq).symm
  unlocked := h.unlocked

omit [DecidableEq θ] [DecidableEq κ] in
/-- Whoever is not the owner does not own the mutex. -/
theorem Recorded.owns_eq_false (h : s.Recorded k) {u : θ} (hne : s.owner ≠ some u) :
    (s.place u).owns = false := by
  cases howns : (s.place u).owns with
  | false => rfl
  | true => exact absurd (h.owner u howns) hne

omit [DecidableEq θ] [DecidableEq κ] in
/-- A thread that does not own the mutex is neither in its critical section nor next to it. -/
theorem not_of_owns_eq_false {p : MutexPlace κ} (h : p.owns = false) :
    p ≠ .critical ∧ p.bare = false := by
  cases p with
  | critical => cases h
  | _ => exact ⟨(by intro hp; cases hp), h⟩

omit [DecidableEq κ] in
/-- A thread that alone may own the mutex goes to another place and writes the owner and the
holder as that place demands. -/
theorem Recorded.write (h : s.Recorded k) {p : MutexPlace κ} {o : Option θ} {n : ℕ}
    {timedOut : θ → Bool} (hothers : ∀ u, u ≠ t → (s.place u).owns = false)
    (howner : p.owns = true → o = some t) (hassigned : p = .critical → n = k.gettid t)
    (hbare : p.bare = true → n = 0) (hfree : o = none → n = 0) (huntimed : p.timed = false) :
    Recorded k ⟨o, n, Function.update s.place t p, s.cachedTid, timedOut⟩ where
  cached := h.cached
  owner u hu := by
    by_cases heq : u = t
    · subst heq
      simp only [Function.update_self] at hu
      exact howner hu
    · simp only [Function.update_of_ne heq, hothers u heq] at hu
      cases hu
  assigned u hu := by
    by_cases heq : u = t
    · subst heq
      simp only [Function.update_self] at hu
      exact hassigned hu
    · simp only [Function.update_of_ne heq] at hu
      exact absurd hu (not_of_owns_eq_false (hothers u heq)).1
  bare u hu := by
    by_cases heq : u = t
    · subst heq
      simp only [Function.update_self] at hu
      exact hbare hu
    · simp only [Function.update_of_ne heq, (not_of_owns_eq_false (hothers u heq)).2] at hu
      cases hu
  unlocked := hfree
  untimed u := by
    by_cases heq : u = t
    · subst heq
      simp only [Function.update_self]
      exact huntimed
    · simp only [Function.update_of_ne heq]
      exact h.untimed u

omit [DecidableEq θ] [DecidableEq κ] in
/-- Threads that come to own nothing and leave the mutex alone change nothing. -/
theorem Recorded.elsewhere (h : s.Recorded k) {place : θ → MutexPlace κ}
    (hplace : ∀ u, place u = s.place u ∨ (place u).owns = false ∧ (place u).timed = false) :
    Recorded k { s with place := place } where
  cached := h.cached
  owner u hu := by
    rcases hplace u with heq | hnot
    · exact h.owner u (heq ▸ hu)
    · exact absurd hu (by simp [hnot.1])
  assigned u hu := by
    rcases hplace u with heq | hnot
    · exact h.assigned u (heq ▸ hu)
    · exact absurd hu (not_of_owns_eq_false hnot.1).1
  bare u hu := by
    rcases hplace u with heq | hnot
    · exact h.bare u (heq ▸ hu)
    · exact absurd hu (by simp [(not_of_owns_eq_false hnot.1).2])
  unlocked := h.unlocked
  untimed u := by
    rcases hplace u with heq | hnot
    · exact (congrArg MutexPlace.timed heq).trans (h.untimed u)
    · exact hnot.2

omit [DecidableEq κ] in
/-- One thread comes to own nothing and leaves the mutex alone. -/
theorem Recorded.setPlace (h : s.Recorded k) {p : MutexPlace κ} (howns : p.owns = false)
    (huntimed : p.timed = false) : (s.setPlace t p).Recorded k := by
  refine h.elsewhere fun u => ?_
  by_cases heq : u = t
  · subst heq
    rw [Function.update_self]
    exact Or.inr ⟨howns, huntimed⟩
  · exact Or.inl (Function.update_of_ne heq _ _)

/-- A thread that sleeps on a condition sleeps. -/
theorem sleeps_of_sleepsOn {p : MutexPlace κ} {cond : κ} (h : p.sleepsOn cond = true) :
    p.sleeps = true := by
  cases p <;> first | rfl | cases h

omit [DecidableEq θ] [DecidableEq κ] in
/-- A thread that sleeps and has not slept in `waitForSeconds` wakes up without the mutex. -/
theorem Recorded.wake (h : s.Recorded k) (hsleeps : (s.place t).sleeps = true) :
    (s.place t).wake.owns = false ∧ (s.place t).wake.timed = false := by
  have huntimed := h.untimed t
  cases hp : s.place t with
  | asleep c => exact ⟨rfl, rfl⟩
  | timedAsleep c =>
    rw [hp] at huntimed
    cases huntimed
  | _ =>
    rw [hp] at hsleeps
    cases hsleeps

omit [DecidableEq θ] [DecidableEq κ] in
/-- Nobody but the owner owns the mutex. -/
theorem Recorded.others (h : s.Recorded k) (howns : (s.place t).owns = true) (u : θ)
    (hne : u ≠ t) : (s.place u).owns = false :=
  h.owns_eq_false fun howner => hne (Option.some.inj (howner.symm.trans (h.owner t howns)))

/-- A step by which nobody falls asleep in `waitForSeconds` keeps the record. -/
theorem Recorded.exec (h : s.Recorded k) {a : MutexStep θ κ} (henabled : s.enabled a)
    (hrefused : s.Refused a) : (s.exec k a).Recorded k := by
  cases a with
  | lock t => exact h.setPlace rfl rfl
  | acquire t =>
    obtain ⟨hnone, hplace⟩ := henabled
    have hothers : ∀ u, u ≠ t → (s.place u).owns = false := fun u _ =>
      h.owns_eq_false (by simp [hnone])
    have hzero := h.unlocked hnone
    cases hp : s.place t with
    | locking =>
      simp only [MutexLock.exec, hp]
      exact h.write hothers (fun _ => rfl) (fun hp => by cases hp) (fun _ => hzero)
        (fun _ => hzero) rfl
    | woken =>
      simp only [MutexLock.exec, hp]
      exact h.write hothers (fun _ => rfl) (fun hp => by cases hp) (fun _ => hzero)
        (fun _ => hzero) rfl
    | timedWoken timedOut =>
      have huntimed := h.untimed t
      rw [hp] at huntimed
      cases huntimed
    | _ =>
      rw [hp] at hplace
      cases hplace
  | assignHolder t =>
    have howns : (s.place t).owns = true := by
      rcases henabled with hp | hp <;> rw [hp] <;> rfl
    have hwrite : Recorded k ⟨s.owner, s.tid k t, Function.update s.place t .critical,
        s.cachedTid, s.timedOut⟩ :=
      h.write (h.others howns) (fun _ => h.owner t howns) (fun _ => h.tid_eq t)
        (fun hp => by cases hp) (fun hnone => by rw [h.owner t howns] at hnone; cases hnone) rfl
    refine { hwrite with cached := fun u => ?_ }
    change Function.update s.cachedTid t (s.tid k t) u = 0 ∨
      Function.update s.cachedTid t (s.tid k t) u = k.gettid u
    by_cases heq : u = t
    · subst heq
      rw [Function.update_self]
      exact Or.inr (h.tid_eq u)
    · rw [Function.update_of_ne heq]
      exact h.cached u
  | unlock t =>
    have howns : (s.place t).owns = true := by rw [show s.place t = .critical from henabled]; rfl
    exact h.write (h.others howns) (fun _ => h.owner t howns) (fun hp => by cases hp)
      (fun _ => rfl) (fun _ => rfl) rfl
  | release t =>
    have hplace : s.place t = .unlocking := henabled
    have howns : (s.place t).owns = true := by rw [hplace]; rfl
    have hzero := h.bare t (by rw [hplace]; rfl)
    exact h.write (h.others howns) (fun hp => by cases hp) (fun hp => by cases hp)
      (fun _ => hzero) (fun _ => hzero) rfl
  | wait t cond =>
    have howns : (s.place t).owns = true := by rw [show s.place t = .critical from henabled]; rfl
    exact h.write (h.others howns) (fun _ => h.owner t howns) (fun hp => by cases hp)
      (fun _ => rfl) (fun _ => rfl) rfl
  | condWait t =>
    cases hp : s.place t with
    | waiting cond =>
      have howns : (s.place t).owns = true := by rw [hp]; rfl
      have hzero := h.bare t (by rw [hp]; rfl)
      simp only [MutexLock.exec, hp]
      exact h.write (h.others howns) (fun hp => by cases hp) (fun hp => by cases hp)
        (fun _ => hzero) (fun _ => hzero) rfl
    | _ =>
      have hwaits : (s.place t).unassigned = true := henabled
      rw [hp] at hwaits
      cases hwaits
  | waitForSeconds t cond now nanoSeconds =>
    have hinvalid : (waitUntil now nanoSeconds).Invalid := hrefused
    simp only [MutexLock.exec, if_pos hinvalid]
    exact { h with }
  | notify cond notified =>
    cases notified with
    | none => exact h
    | some t =>
      obtain ⟨howns, huntimed⟩ := h.wake (t := t) (sleeps_of_sleepsOn henabled)
      exact h.setPlace howns huntimed
  | notifyAll cond =>
    refine h.elsewhere fun u => ?_
    by_cases hsleeps : (s.place u).sleepsOn cond = true
    · rw [if_pos hsleeps]
      exact Or.inr (h.wake (sleeps_of_sleepsOn hsleeps))
    · rw [if_neg hsleeps]
      exact Or.inl rfl
  | wake t =>
    obtain ⟨howns, huntimed⟩ := h.wake (t := t) henabled
    exact h.setPlace howns huntimed
  | timeOut t =>
    have huntimed := h.untimed t
    cases hp : s.place t with
    | timedAsleep cond =>
      rw [hp] at huntimed
      cases huntimed
    | _ =>
      have hsleeps : (s.place t).sleepsInTime = true := henabled
      rw [hp] at hsleeps
      cases hsleeps

/-- A thread that falls asleep in `waitForSeconds` stays recorded while nobody owns the mutex. -/
theorem Recorded.refused (h : s.Recorded k) {a : MutexStep θ κ} (henabled : s.enabled a)
    (haccurate : (s.exec k a).Accurate k) : s.Refused a := by
  cases a with
  | waitForSeconds t cond now nanoSeconds =>
    by_contra haccepted
    have hvalid : ¬(waitUntil now nanoSeconds).Invalid := haccepted
    have hunlocked := haccurate.unlocked
    simp only [MutexLock.exec, if_neg hvalid] at hunlocked
    have hzero : s.holder = 0 := hunlocked trivial
    exact k.gettid_ne_zero t ((h.assigned t henabled).symm.trans hzero)
  | _ => trivial

/-- **The recorded holder.** Whatever the threads do, the recorded holder is accurate in every
state of a run exactly if no step of the run puts a thread to sleep in `waitForSeconds`. -/
theorem accurate_iff_refused {s t : MutexLock θ κ} {as : List (MutexStep θ κ)}
    (hnew : s.New k) (hrun : (mutexSystem κ k).Run s as t) :
    (mutexSystem κ k).Always (Accurate k) s as ↔ (mutexSystem κ k).Throughout Refused s as := by
  refine hrun.always_iff_throughout_of_keeps hnew.recorded Recorded.accurate ?_ ?_
  · intro s a u hrecorded henabled hexec hrefused
    cases hexec
    exact hrecorded.exec henabled hrefused
  · intro s a u hrecorded henabled hexec haccurate
    cases hexec
    exact hrecorded.refused henabled haccurate

/-! ### Two threads -/

/-- A mutex nobody has used. -/
def unused : MutexLock Bool Unit := ⟨none, 0, fun _ => .outside, fun _ => 0, fun _ => false⟩

/-- Two threads and their ids. -/
def twoIds : ThreadIds Bool where
  gettid t := if t then 2 else 1
  gettid_ne_zero := by decide
  gettid_injective := by
    intro t u
    revert t u
    decide

/-- An unused mutex is new. -/
theorem unused_new : unused.New twoIds := ⟨rfl, rfl, fun _ => rfl, fun _ => Or.inl rfl⟩

instance (s : MutexLock Bool Unit) : (a : MutexStep Bool Unit) → Decidable (s.Refused a)
  | .waitForSeconds _ _ now nanoSeconds =>
    inferInstanceAs (Decidable (waitUntil now nanoSeconds).Invalid)
  | .lock _ | .acquire _ | .assignHolder _ | .unlock _ | .release _ | .wait _ _ | .condWait _
  | .notify _ _ | .notifyAll _ | .wake _ | .timeOut _ => inferInstanceAs (Decidable True)

instance (s : MutexLock Bool Unit) (a : MutexStep Bool Unit) :
    Decidable (((mutexSystem Unit twoIds).restrict Refused).enabled s a) :=
  inferInstanceAs (Decidable (s.enabled a ∧ s.Refused a))

/-- One thread takes the mutex and waits for a second. -/
def waitOneSecond : List (MutexStep Bool Unit) :=
  [.lock false, .acquire false, .assignHolder false,
    .waitForSeconds false () ⟨0, 0⟩ kNanoSecondPerSecond]

/-- The sleeping thread stays recorded while nobody owns the mutex. -/
theorem not_accurate_waitOneSecond : ∃ s : MutexLock Bool Unit,
    (mutexSystem Unit twoIds).Run unused waitOneSecond s ∧ s.owner = none ∧ s.holder = 1 ∧
      ¬s.Accurate twoIds := by
  have hcheck : ((mutexSystem Unit twoIds).replay unused waitOneSecond).any
      (fun s => decide (s.owner = none ∧ s.holder = 1)) = true := by
    decide +kernel
  obtain ⟨s, hrun, hs⟩ := System.exists_run_of_replay hcheck
  obtain ⟨hnone, hholder⟩ := of_decide_eq_true hs
  refine ⟨s, hrun, hnone, hholder, fun haccurate => ?_⟩
  have hzero := haccurate.unlocked hnone
  omega

/-- One thread waits for the condition. The other one takes the mutex meanwhile, asks to wait
until a time that is refused, and wakes the first one up. -/
def waitAndNotify : List (MutexStep Bool Unit) :=
  [.lock false, .acquire false, .assignHolder false, .wait false (), .lock true, .condWait false,
    .acquire true, .assignHolder true, .waitForSeconds true () ⟨0, 0⟩ (-1),
    .notify () (some false), .unlock true, .release true, .acquire false, .assignHolder false]

/-- The recorded holder is accurate all along `waitAndNotify`. -/
theorem accurate_iff_refused_waitAndNotify : ∃ s : MutexLock Bool Unit,
    (mutexSystem Unit twoIds).Run unused waitAndNotify s ∧ s.owner = some false ∧
      (mutexSystem Unit twoIds).Always (Accurate twoIds) unused waitAndNotify := by
  have hcheck : (((mutexSystem Unit twoIds).restrict Refused).replay unused waitAndNotify).any
      (fun s => decide (s.owner = some false)) = true := by
    decide +kernel
  obtain ⟨s, hrun, hs⟩ := System.exists_run_of_replay hcheck
  obtain ⟨hrun, hrefused⟩ := hrun.throughout_of_restrict
  exact ⟨s, hrun, of_decide_eq_true hs, (accurate_iff_refused unused_new hrun).mpr hrefused⟩

end MutexLock

end Dalin
