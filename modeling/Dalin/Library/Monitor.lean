import Dalin.Library.ThreadFamily
import Dalin.Library.Transition

/-!
# Monitors

A monitor is data behind one mutex. A call of one of its procedures locks the
mutex, waits on a condition variable as long as its guard is false, acts on the
data, signals and unlocks. This file takes a monitor apart into these single
operations, which the threads make in any order, and proves what a user of
monitors relies on: the calls appear to act one at a time, nobody sleeps through
the moment at which his guard becomes true, and once the guards stay true
everybody returns.
-/

set_option autoImplicit false

namespace Monitors

open Transition

/-- What a procedure does to the sleeping threads at its end. -/
inductive Signal (κ : Type*)
  | silent
  | one (cond : κ)
  | all (cond : κ)
  deriving DecidableEq

/-- The procedures `γ` of a monitor with data `σ`, conditions `κ` and results `ρ`. -/
structure Monitor (σ γ κ ρ : Type*) where
  /-- What a procedure waits for. -/
  guard : γ → σ → Bool
  /-- The condition on which it waits, if it ever does. -/
  cond : γ → Option κ
  /-- Its effect. -/
  body : γ → σ → σ
  /-- Its result, from the data it finds. -/
  result : γ → σ → ρ
  /-- Its signal, from the data it finds. -/
  signal : γ → σ → Signal κ

/-- Where a thread is. -/
inductive Place (γ κ ρ : Type*)
  | outside
  /-- Without the mutex, which it wants. -/
  | entering (call : γ)
  /-- With the mutex, before the test of its guard. -/
  | testing (call : γ)
  /-- With the mutex, after a test that failed. -/
  | waiting (call : γ)
  /-- Without the mutex. -/
  | asleep (call : γ)
  /-- With the mutex, after a test that succeeded. -/
  | ready (call : γ)
  /-- With the mutex, after the body. -/
  | signalling (call : γ) (result : ρ) (signal : Signal κ)
  /-- With the mutex, at the unlock. -/
  | leaving (call : γ) (result : ρ)
  deriving DecidableEq

/-- A call that has acted on the data. -/
structure Entry (θ γ ρ : Type*) where
  thread : θ
  call : γ
  result : ρ
  deriving DecidableEq

/-- A monitor in use by the threads `θ`. -/
structure State (θ σ γ κ ρ : Type*) where
  data : σ
  /-- The thread that has the mutex. -/
  owner : Option θ
  place : θ → Place γ κ ρ
  /-- The calls in the order in which they acted. -/
  log : List (Entry θ γ ρ)
  /-- The calls in the order in which they returned. -/
  returned : List (Entry θ γ ρ)

/-- A single operation of a thread. -/
inductive Action (θ γ : Type*)
  | call (t : θ) (c : γ)
  /-- The mutex is locked, at the call or after a wake-up. -/
  | acquire (t : θ)
  | test (t : θ)
  /-- The mutex is given away and the thread sleeps. -/
  | sleep (t : θ)
  /-- A wake-up without a signal. -/
  | wake (t : θ)
  | act (t : θ)
  /-- The signal, which wakes this thread if it is for a single one. -/
  | signal (t : θ) (notified : Option θ)
  | leave (t : θ)
  deriving DecidableEq

/-- The thread of an operation. -/
def Action.thread {θ γ : Type*} : Action θ γ → θ
  | call t _ | acquire t | test t | sleep t | wake t | act t | signal t _ | leave t => t

/-- An operation other than a new call. -/
def Action.continues {θ γ : Type*} : Action θ γ → Bool
  | call _ _ => false
  | _ => true

namespace Place

variable {γ κ ρ : Type*}

/-- A thread at this place has the mutex. -/
def inside : Place γ κ ρ → Bool
  | testing _ | waiting _ | ready _ | signalling _ _ _ | leaving _ _ => true
  | _ => false

/-- The call whose body has not run. -/
def pending : Place γ κ ρ → Option γ
  | entering c | testing c | waiting c | asleep c | ready c => some c
  | _ => none

/-- The call whose body has run and which has not returned. -/
def acted {θ : Type*} (t : θ) : Place γ κ ρ → List (Entry θ γ ρ)
  | signalling c r _ | leaving c r => [⟨t, c, r⟩]
  | _ => []

/-- Where a sleeping thread is after a wake-up. -/
def wake : Place γ κ ρ → Place γ κ ρ
  | asleep c => entering c
  | place => place

/-- A bound on the steps that a thread makes until it has returned. -/
def rank : Place γ κ ρ → ℕ
  | outside => 0
  | leaving _ _ => 1
  | signalling _ _ _ => 2
  | ready _ => 3
  | testing _ => 4
  | entering _ => 5
  | asleep _ => 6
  | waiting _ => 7

/-- A thread at this place is awake in a call. -/
def moving : Place γ κ ρ → Bool
  | outside | asleep _ => false
  | _ => true

/-- The thread that has the mutex is awake. -/
theorem moving_of_inside {p : Place γ κ ρ} (h : p.inside = true) : p.moving = true := by
  cases p with
  | outside | asleep => cases h
  | _ => rfl

/-- At most seven steps. -/
theorem rank_le (p : Place γ κ ρ) : p.rank ≤ 7 := by
  cases p <;> simp [rank]

/-- A wake-up does not send a thread back. -/
theorem rank_wake_le (p : Place γ κ ρ) : p.wake.rank ≤ p.rank := by
  cases p <;> simp [rank, wake]

/-- A wake-up gives nobody the mutex. -/
@[simp] theorem inside_wake (p : Place γ κ ρ) : p.wake.inside = p.inside := by cases p <;> rfl

/-- A wake-up does not change the call. -/
@[simp] theorem pending_wake (p : Place γ κ ρ) : p.wake.pending = p.pending := by cases p <;> rfl

/-- A wake-up lets no call act. -/
@[simp] theorem acted_wake {θ : Type*} (t : θ) (p : Place γ κ ρ) :
    p.wake.acted t = p.acted t := by cases p <;> rfl

end Place

variable {θ σ γ κ ρ : Type*}

namespace Monitor

variable [DecidableEq κ]

/-- A condition variable of the monitor. -/
def condition (M : Monitor σ γ κ ρ) (cond : κ) : ThreadFamily.Condition (Place γ κ ρ) where
  asleep
    | .asleep c => decide (M.cond c = some cond)
    | _ => false
  woken
    | .entering _ => true
    | _ => false
  wake
    | .asleep c => if M.cond c = some cond then .entering c else .asleep c
    | place => place
  not_woken p h := by
    cases p with
    | asleep c => rfl
    | _ => cases h
  woken_wake p h := by
    cases p with
    | asleep c =>
      have hcond : M.cond c = some cond := of_decide_eq_true h
      simp [hcond]
    | _ => cases h
  wake_awake p h := by
    cases p with
    | asleep c =>
      have hcond : M.cond c ≠ some cond := of_decide_eq_false h
      simp [hcond]
    | _ => rfl

variable {M : Monitor σ γ κ ρ} {cond : κ}

/-- A thread sleeps on the condition of its call. -/
theorem asleep_iff {p : Place γ κ ρ} :
    (M.condition cond).asleep p = true ↔ ∃ c, p = .asleep c ∧ M.cond c = some cond := by
  cases p with
  | asleep c =>
    change decide (M.cond c = some cond) = true ↔ _
    simp
  | _ => simp [condition]

/-- A wake-up moves a thread only from its sleep. -/
theorem wake_eq (p : Place γ κ ρ) :
    (M.condition cond).wake p = p ∨ (M.condition cond).wake p = p.wake := by
  cases p with
  | asleep c =>
    change (if M.cond c = some cond then Place.entering c else .asleep c) = _ ∨
      (if M.cond c = some cond then Place.entering c else .asleep c) = _
    split
    · exact .inr rfl
    · exact .inl rfl
  | _ => exact .inl rfl

end Monitor

namespace State

variable [DecidableEq θ]

/-- A thread goes on. -/
def move (s : State θ σ γ κ ρ) (t : θ) (p : Place γ κ ρ) : State θ σ γ κ ρ :=
  { s with place := Function.update s.place t p }

/-- The places after a signal. -/
def signalled [DecidableEq κ] (M : Monitor σ γ κ ρ) (s : State θ σ γ κ ρ) (notified : Option θ) :
    Signal κ → θ → Place γ κ ρ
  | .silent => s.place
  | .one cond => (M.condition cond).notify s.place notified
  | .all cond => (M.condition cond).notifyAll s.place

/-- The threads that a signal may choose. -/
def Chooses [DecidableEq κ] (M : Monitor σ γ κ ρ) (s : State θ σ γ κ ρ) (notified : Option θ) :
    Signal κ → Prop
  | .one cond => (M.condition cond).Signals s.place notified
  | _ => notified = none

/-- The effect of an operation. -/
def exec [DecidableEq κ] (M : Monitor σ γ κ ρ) (s : State θ σ γ κ ρ) :
    Action θ γ → State θ σ γ κ ρ
  | .call t c => s.move t (.entering c)
  | .acquire t =>
    match s.place t with
    | .entering c => { s.move t (.testing c) with owner := some t }
    | _ => s
  | .test t =>
    match s.place t with
    | .testing c => s.move t (if M.guard c s.data then .ready c else .waiting c)
    | _ => s
  | .sleep t =>
    match s.place t with
    | .waiting c => { s.move t (.asleep c) with owner := none }
    | _ => s
  | .wake t => s.move t (s.place t).wake
  | .act t =>
    match s.place t with
    | .ready c =>
      { s.move t (.signalling c (M.result c s.data) (M.signal c s.data)) with
        data := M.body c s.data
        log := s.log ++ [⟨t, c, M.result c s.data⟩] }
    | _ => s
  | .signal t notified =>
    match s.place t with
    | .signalling c r sig =>
      { s with place := Function.update (s.signalled M notified sig) t (.leaving c r) }
    | _ => s
  | .leave t =>
    match s.place t with
    | .leaving c r =>
      { s.move t .outside with
        owner := none
        returned := s.returned ++ [⟨t, c, r⟩] }
    | _ => s

/-- The operations that may come next, if `may` says which procedures a thread calls. -/
def enabled [DecidableEq κ] (M : Monitor σ γ κ ρ) (may : θ → γ → Prop) (s : State θ σ γ κ ρ) :
    Action θ γ → Prop
  | .call t c =>
    match s.place t with
    | .outside => may t c
    | _ => False
  | .acquire t =>
    match s.place t with
    | .entering _ => s.owner = none
    | _ => False
  | .test t =>
    match s.place t with
    | .testing _ => True
    | _ => False
  | .sleep t =>
    match s.place t with
    | .waiting _ => True
    | _ => False
  | .wake t =>
    match s.place t with
    | .asleep _ => True
    | _ => False
  | .act t =>
    match s.place t with
    | .ready _ => True
    | _ => False
  | .signal t notified =>
    match s.place t with
    | .signalling _ _ sig => s.Chooses M notified sig
    | _ => False
  | .leave t =>
    match s.place t with
    | .leaving _ _ => True
    | _ => False

instance [DecidableEq κ] [Fintype θ] (M : Monitor σ γ κ ρ) (s : State θ σ γ κ ρ)
    (notified : Option θ) (sig : Signal κ) : Decidable (s.Chooses M notified sig) := by
  unfold Chooses
  apply @Signal.casesOn _ _ sig <;> intros <;> infer_instance

instance [DecidableEq κ] [Fintype θ] (M : Monitor σ γ κ ρ) (may : θ → γ → Prop)
    [∀ t c, Decidable (may t c)] (s : State θ σ γ κ ρ) (a : Action θ γ) :
    Decidable (s.enabled M may a) := by
  unfold enabled
  apply @Action.casesOn _ _ _ a <;> intro t <;> intros <;> dsimp only <;>
    generalize s.place t = place <;> apply @Place.casesOn _ _ _ _ place <;> intros <;>
    infer_instance

/-- Nobody has called a procedure. -/
structure New (d : σ) (s : State θ σ γ κ ρ) : Prop where
  data : s.data = d
  owner : s.owner = none
  outside : ∀ t, s.place t = .outside
  log : s.log = []
  returned : s.returned = []

end State

namespace Monitor

variable [DecidableEq θ] [DecidableEq κ]

/-- A monitor with the data `d` at first, taken apart into its operations. -/
def system (M : Monitor σ γ κ ρ) (may : θ → γ → Prop) (d : σ) :
    System (State θ σ γ κ ρ) (Action θ γ) Empty where
  init := State.New d
  enabled := State.enabled M may
  exec s a := .ok (s.exec M a)

instance [Fintype θ] (M : Monitor σ γ κ ρ) (may : θ → γ → Prop) [∀ t c, Decidable (may t c)] (d : σ)
    (s : State θ σ γ κ ρ) (a : Action θ γ) : Decidable ((M.system may d).enabled s a) :=
  inferInstanceAs (Decidable (s.enabled M may a))

/-- A monitor without new calls. -/
def continuing (M : Monitor σ γ κ ρ) (may : θ → γ → Prop) (d : σ) :
    System (State θ σ γ κ ρ) (Action θ γ) Empty :=
  (M.system may d).restrict fun _ a => a.continues = true

instance [Fintype θ] (M : Monitor σ γ κ ρ) (may : θ → γ → Prop) [∀ t c, Decidable (may t c)] (d : σ)
    (s : State θ σ γ κ ρ) (a : Action θ γ) : Decidable ((M.continuing may d).enabled s a) :=
  inferInstanceAs (Decidable (_ ∧ _))

end Monitor

/-- The same monitor with calls that act one at a time. -/
def Monitor.atomic (M : Monitor σ γ κ ρ) (θ : Type*) : System σ (Entry θ γ ρ) Empty where
  init _ := True
  enabled d e := M.guard e.call d = true ∧ e.result = M.result e.call d
  exec d e := .ok (M.body e.call d)

/-! ### What an operation does -/

section Steps

variable [DecidableEq θ] [DecidableEq κ]

namespace State

/-- An operation that may come next, with its effect. -/
inductive Step (M : Monitor σ γ κ ρ) (may : θ → γ → Prop) (s : State θ σ γ κ ρ) :
    Action θ γ → State θ σ γ κ ρ → Prop
  | call {t : θ} {c : γ} : s.place t = .outside → may t c →
      Step M may s (.call t c) (s.move t (.entering c))
  | acquire {t : θ} {c : γ} : s.place t = .entering c → s.owner = none →
      Step M may s (.acquire t) { s.move t (.testing c) with owner := some t }
  | test {t : θ} {c : γ} : s.place t = .testing c →
      Step M may s (.test t) (s.move t (if M.guard c s.data then .ready c else .waiting c))
  | sleep {t : θ} {c : γ} : s.place t = .waiting c →
      Step M may s (.sleep t) { s.move t (.asleep c) with owner := none }
  | wake {t : θ} {c : γ} : s.place t = .asleep c →
      Step M may s (.wake t) (s.move t (.entering c))
  | act {t : θ} {c : γ} : s.place t = .ready c →
      Step M may s (.act t)
        { s.move t (.signalling c (M.result c s.data) (M.signal c s.data)) with
          data := M.body c s.data
          log := s.log ++ [⟨t, c, M.result c s.data⟩] }
  | signal {t : θ} {c : γ} {r : ρ} {sig : Signal κ} {notified : Option θ} :
      s.place t = .signalling c r sig → s.Chooses M notified sig →
      Step M may s (.signal t notified)
        { s with place := Function.update (s.signalled M notified sig) t (.leaving c r) }
  | leave {t : θ} {c : γ} {r : ρ} : s.place t = .leaving c r →
      Step M may s (.leave t)
        { s.move t .outside with
          owner := none
          returned := s.returned ++ [⟨t, c, r⟩] }

variable {M : Monitor σ γ κ ρ} {may : θ → γ → Prop} {d : σ} {s s' : State θ σ γ κ ρ}
  {a : Action θ γ} {t u : θ}

/-- Every step of the system is one of these. -/
theorem step_of_exec (henabled : (M.system may d).enabled s a)
    (hexec : (M.system may d).exec s a = .ok s') : Step M may s a s' := by
  change s.enabled M may a at henabled
  have heq : s' = s.exec M a := (Except.ok.inj hexec).symm
  subst heq
  cases a with
  | call t c =>
    cases hplace : s.place t with
    | outside =>
      simp only [enabled, hplace] at henabled
      exact .call hplace henabled
    | _ =>
      simp only [enabled, hplace] at henabled
  | signal t notified =>
    cases hplace : s.place t with
    | signalling c r sig =>
      simp only [enabled, hplace] at henabled
      simp only [exec, hplace]
      exact .signal hplace henabled
    | _ => simp only [enabled, hplace] at henabled
  | acquire t =>
    cases hplace : s.place t with
    | entering c =>
      simp only [enabled, hplace] at henabled
      simp only [exec, hplace]
      exact .acquire hplace henabled
    | _ => simp only [enabled, hplace] at henabled
  | test t =>
    cases hplace : s.place t with
    | testing c =>
      simp only [exec, hplace]
      exact .test hplace
    | _ => simp only [enabled, hplace] at henabled
  | sleep t =>
    cases hplace : s.place t with
    | waiting c =>
      simp only [exec, hplace]
      exact .sleep hplace
    | _ => simp only [enabled, hplace] at henabled
  | wake t =>
    cases hplace : s.place t with
    | asleep c =>
      simp only [exec, hplace]
      exact .wake hplace
    | _ => simp only [enabled, hplace] at henabled
  | act t =>
    cases hplace : s.place t with
    | ready c =>
      simp only [exec, hplace]
      exact .act hplace
    | _ => simp only [enabled, hplace] at henabled
  | leave t =>
    cases hplace : s.place t with
    | leaving c r =>
      simp only [exec, hplace]
      exact .leave hplace
    | _ => simp only [enabled, hplace] at henabled

omit [DecidableEq κ] in
/-- The thread that goes on is at its new place. -/
@[simp] theorem move_place_self (s : State θ σ γ κ ρ) (t : θ) (p : Place γ κ ρ) :
    (s.move t p).place t = p := Function.update_self ..

omit [DecidableEq κ] in
/-- The other threads stay where they are. -/
theorem move_place_of_ne (h : u ≠ t) (p : Place γ κ ρ) : (s.move t p).place u = s.place u :=
  Function.update_of_ne h ..

/-- A signal leaves a thread where it is or wakes it up. -/
theorem signalled_eq (s : State θ σ γ κ ρ) (notified : Option θ) (sig : Signal κ) (u : θ) :
    s.signalled M notified sig u = s.place u ∨ s.signalled M notified sig u = (s.place u).wake := by
  cases sig with
  | silent => exact .inl rfl
  | all cond => exact Monitor.wake_eq (s.place u)
  | one cond =>
    cases notified with
    | none => exact .inl rfl
    | some v =>
      change Function.update s.place v _ u = _ ∨ Function.update s.place v _ u = _
      by_cases hv : u = v
      · subst hv
        rw [Function.update_self]
        exact Monitor.wake_eq (s.place u)
      · rw [Function.update_of_ne hv]
        exact .inl rfl

/-- A step of one thread leaves another where it is or wakes it up. -/
theorem Step.others (h : Step M may s a s') (u : θ) (hu : u ≠ a.thread) :
    s'.place u = s.place u ∨ s'.place u = (s.place u).wake := by
  cases h with
  | @signal t c r sig notified _ _ =>
    change u ≠ t at hu
    change Function.update _ t _ u = _ ∨ Function.update _ t _ u = _
    rw [Function.update_of_ne hu]
    exact s.signalled_eq notified sig u
  | _ => exact .inl (move_place_of_ne hu _)

/-- The calls in progress after a step were in progress before it, or the step is the call. -/
theorem Step.pending (h : Step M may s a s') {u : θ} {c : γ} (hc : c ∈ (s'.place u).pending) :
    c ∈ (s.place u).pending ∨ a = .call u c ∧ may u c := by
  by_cases hu : u = a.thread
  · subst hu
    cases h with
    | @call t c₀ _ hmay =>
      simp only [Action.thread, move_place_self, Place.pending, Option.mem_some_iff] at hc
      exact .inr ⟨hc ▸ rfl, hc ▸ hmay⟩
    | @acquire t c₀ hplace _ | @sleep t c₀ hplace | @wake t c₀ hplace =>
      simp only [Action.thread, move, Function.update_self, Place.pending,
        Option.mem_some_iff] at hc
      simp [Action.thread, hplace, Place.pending, hc]
    | @test t c₀ hplace =>
      simp only [Action.thread, move_place_self] at hc
      split at hc <;> exact .inl (by simpa [Action.thread, hplace, Place.pending] using hc)
    | act | signal | leave => simp [Action.thread, move, Place.pending] at hc
  · refine .inl ?_
    rcases h.others u hu with heq | heq
    · rwa [← heq]
    · rwa [heq, Place.pending_wake] at hc

/-- Only a new call is made from outside. -/
theorem Step.not_outside (h : Step M may s a s') (ha : a.continues = true) :
    s.place a.thread ≠ .outside := by
  cases h with
  | call => cases ha
  | @acquire t c hplace _ | @test t c hplace | @sleep t c hplace | @wake t c hplace
  | @act t c hplace | @signal t c r sig notified hplace _ | @leave t c r hplace =>
    simp [Action.thread, hplace]

/-- The log only grows. -/
theorem Step.log_grows (h : Step M may s a s') : s.log <+: s'.log := by
  cases h with
  | act => exact List.prefix_append ..
  | _ => exact List.prefix_rfl

/-- In a run, too. -/
theorem log_grows_of_run {as : List (Action θ γ)} (hrun : (M.system may d).Run s as s') :
    s.log <+: s'.log :=
  hrun.invariant (I := fun t => s.log <+: t.log) List.prefix_rfl fun hI henabled hexec =>
    hI.trans (step_of_exec henabled hexec).log_grows

/-- A call in progress stays in progress until it has acted. -/
theorem Step.pending_or_log (h : Step M may s a s') {u : θ} {c : γ}
    (hc : c ∈ (s.place u).pending) :
    c ∈ (s'.place u).pending ∨ ∃ r, ⟨u, c, r⟩ ∈ s'.log := by
  by_cases hu : u = a.thread
  · subst hu
    cases h with
    | @act t c₀ hplace =>
      simp only [Action.thread, hplace, Place.pending, Option.mem_some_iff] at hc
      subst hc
      exact .inr ⟨_, List.mem_append_right _ (List.mem_singleton_self _)⟩
    | @call t c₀ hplace _ | @signal t c₀ r sig notified hplace _ | @leave t c₀ r hplace =>
      simp [Action.thread, hplace, Place.pending] at hc
    | @test t c₀ hplace =>
      simp only [Action.thread, hplace, Place.pending, Option.mem_some_iff] at hc
      refine .inl ?_
      simp only [Action.thread, move_place_self]
      split <;> simp [Place.pending, hc]
    | @acquire t c₀ hplace _ | @sleep t c₀ hplace | @wake t c₀ hplace =>
      simp only [Action.thread, hplace, Place.pending, Option.mem_some_iff] at hc
      exact .inl (by simp [Action.thread, move, Place.pending, hc])
  · refine .inl ?_
    rcases h.others u hu with heq | heq
    · rwa [heq]
    · rwa [heq, Place.pending_wake]

/-- A thread comes to a signal with the one that its procedure gives. -/
theorem Step.signalling (h : Step M may s a s') {u : θ} {c : γ} {r : ρ} {sig : Signal κ}
    (hu : s'.place u = .signalling c r sig) :
    s.place u = .signalling c r sig ∨ sig = M.signal c s.data := by
  by_cases hne : u = a.thread
  · subst hne
    cases h with
    | @act t c₀ hplace =>
      simp only [Action.thread, move, Function.update_self] at hu
      obtain ⟨rfl, -, rfl⟩ := Place.signalling.inj hu
      exact .inr rfl
    | @test t c₀ hplace =>
      simp only [Action.thread, move_place_self] at hu
      split at hu <;> cases hu
    | _ => simp [Action.thread, move] at hu
  · refine .inl ?_
    rcases h.others u hne with heq | heq
    · rw [← heq, hu]
    · rw [hu] at heq
      cases hplace : s.place u <;> simp [hplace, Place.wake] at heq
      obtain ⟨rfl, rfl, rfl⟩ := heq
      rfl

/-! ### Mutual exclusion -/

/-- The thread inside the monitor is the one that has the mutex, and the data has not changed
since it tested its guard. -/
structure Exclusive (M : Monitor σ γ κ ρ) (s : State θ σ γ κ ρ) : Prop where
  owner : ∀ t, (s.place t).inside = true ↔ s.owner = some t
  ready : ∀ t c, s.place t = .ready c → M.guard c s.data = true
  waiting : ∀ t c, s.place t = .waiting c → M.guard c s.data = false

omit [DecidableEq κ] in
/-- A step of `t` that moves the mutex with it. -/
theorem Exclusive.of_others (h : Exclusive M s)
    (hothers : ∀ u, u ≠ t → s'.place u = s.place u ∨ s'.place u = (s.place u).wake)
    (hdata : s'.data = s.data ∨ s.owner = some t)
    (howner : (s'.owner = some t ∧ (s'.place t).inside = true ∧
        (s.owner = none ∨ s.owner = some t)) ∨
      (s'.owner = none ∧ (s'.place t).inside = false ∧ s.owner = some t) ∨
      (s'.owner = s.owner ∧ (s'.place t).inside = (s.place t).inside))
    (hready : ∀ c, s'.place t = .ready c → M.guard c s'.data = true)
    (hwaiting : ∀ c, s'.place t = .waiting c → M.guard c s'.data = false) : Exclusive M s' := by
  have hinside (u : θ) (hu : u ≠ t) : (s'.place u).inside = (s.place u).inside := by
    rcases hothers u hu with heq | heq
    · rw [heq]
    · rw [heq, Place.inside_wake]
  have hplace (u : θ) (hu : u ≠ t) (p : Place γ κ ρ) (hp : p.inside = true)
      (hnow : s'.place u = p) : s.place u = p ∧ s'.data = s.data := by
    have hin : (s.place u).inside = true := by rw [← hinside u hu, hnow, hp]
    refine ⟨?_, ?_⟩
    · rcases hothers u hu with heq | heq
      · rw [← heq, hnow]
      · rw [hnow] at heq
        cases hwas : s.place u with
        | asleep c => simp [hwas, Place.inside] at hin
        | _ => simpa [hwas, Place.wake] using heq.symm
    · refine hdata.resolve_right fun howned => hu ?_
      have := (h.owner u).mp hin
      rw [howned] at this
      exact (Option.some.inj this).symm
  refine ⟨fun u => ?_, fun u c hc => ?_, fun u c hc => ?_⟩
  · have hwas := h.owner u
    by_cases hu : u = t
    · subst hu
      rcases howner with ⟨hnow, hin, _⟩ | ⟨hnow, hin, _⟩ | ⟨hnow, hin⟩
      · simp [hnow, hin]
      · simp [hnow, hin]
      · rw [hnow, hin, hwas]
    · have hne : ¬ t = u := fun heq => hu heq.symm
      rw [hinside u hu, hwas]
      rcases howner with ⟨hnow, _, hfree | hown⟩ | ⟨hnow, _, hown⟩ | ⟨hnow, _⟩
      · simp [hnow, hfree, hne]
      · simp [hnow, hown]
      · simp [hnow, hown, hne]
      · rw [hnow]
  · by_cases hu : u = t
    · exact hready c (hu ▸ hc)
    · obtain ⟨hwas, heq⟩ := hplace u hu _ rfl hc
      rw [heq]
      exact h.ready u c hwas
  · by_cases hu : u = t
    · exact hwaiting c (hu ▸ hc)
    · obtain ⟨hwas, heq⟩ := hplace u hu _ rfl hc
      rw [heq]
      exact h.waiting u c hwas

/-- Every step keeps the threads apart. -/
theorem Exclusive.step (h : Exclusive M s) (hstep : Step M may s a s') : Exclusive M s' := by
  have hothers := hstep.others
  have hown {t : θ} (hin : (s.place t).inside = true) : s.owner = some t := (h.owner t).mp hin
  cases hstep with
  | @call t c hplace _ =>
    refine h.of_others (t := t) hothers (.inl rfl) (.inr (.inr ⟨rfl, ?_⟩)) ?_ ?_
    · simp [hplace, Place.inside]
    · simp
    · simp
  | @acquire t c hplace hfree =>
    refine h.of_others (t := t) hothers (.inl rfl) (.inl ⟨rfl, ?_, .inl hfree⟩) ?_ ?_
    · simp [move, Place.inside]
    · simp [move]
    · simp [move]
  | @test t c hplace =>
    have howned := hown (t := t) (by simp [hplace, Place.inside])
    refine h.of_others (t := t) hothers (.inl rfl) (.inl ⟨howned, ?_, .inr howned⟩)
      (fun c' hc' => ?_) (fun c' hc' => ?_)
    · rw [move_place_self]
      split <;> rfl
    · rw [move_place_self] at hc'
      split at hc'
      · rename_i hguard
        obtain rfl := Place.ready.inj hc'
        exact hguard
      · cases hc'
    · rw [move_place_self] at hc'
      split at hc'
      · cases hc'
      · rename_i hguard
        obtain rfl := Place.waiting.inj hc'
        exact Bool.eq_false_iff.mpr hguard
  | @sleep t c hplace =>
    have howned := hown (t := t) (by simp [hplace, Place.inside])
    refine h.of_others (t := t) hothers (.inl rfl) (.inr (.inl ⟨rfl, ?_, howned⟩)) ?_ ?_
    · simp [move, Place.inside]
    · simp [move]
    · simp [move]
  | @wake t c hplace =>
    refine h.of_others (t := t) hothers (.inl rfl) (.inr (.inr ⟨rfl, ?_⟩)) ?_ ?_
    · simp [hplace, Place.inside]
    · simp
    · simp
  | @act t c hplace =>
    have howned := hown (t := t) (by simp [hplace, Place.inside])
    refine h.of_others (t := t) hothers (.inr howned) (.inl ⟨howned, ?_, .inr howned⟩) ?_ ?_
    · simp [move, Place.inside]
    · simp [move]
    · simp [move]
  | @signal t c r sig notified hplace _ =>
    have howned := hown (t := t) (by simp [hplace, Place.inside])
    refine h.of_others (t := t) hothers (.inl rfl) (.inl ⟨howned, ?_, .inr howned⟩) ?_ ?_
    · simp [Place.inside]
    · simp
    · simp
  | @leave t c r hplace =>
    have howned := hown (t := t) (by simp [hplace, Place.inside])
    refine h.of_others (t := t) hothers (.inl rfl) (.inr (.inl ⟨rfl, ?_, howned⟩)) ?_ ?_
    · simp [move, Place.inside]
    · simp [move]
    · simp [move]

omit [DecidableEq θ] [DecidableEq κ] in
/-- It holds before the first call. -/
theorem New.exclusive (h : New d s) : Exclusive M s := by
  refine ⟨fun t => ?_, fun t c hc => ?_, fun t c hc => ?_⟩
  · rw [h.outside t, h.owner]
    simp [Place.inside]
  · rw [h.outside t] at hc
    cases hc
  · rw [h.outside t] at hc
    cases hc

/-! ### Calls act one at a time -/

/-- The calls of one thread among some entries. -/
def callsOf (t : θ) (entries : List (Entry θ γ ρ)) : List (Entry θ γ ρ) :=
  entries.filter fun e => e.thread = t

omit [DecidableEq κ] in
/-- A call of the thread itself. -/
theorem callsOf_append_self (entries : List (Entry θ γ ρ)) (c : γ) (r : ρ) :
    callsOf t (entries ++ [⟨t, c, r⟩]) = callsOf t entries ++ [⟨t, c, r⟩] := by
  simp [callsOf]

omit [DecidableEq κ] in
/-- A call of another thread. -/
theorem callsOf_append_of_ne (h : u ≠ t) (entries : List (Entry θ γ ρ)) (c : γ) (r : ρ) :
    callsOf u (entries ++ [⟨t, c, r⟩]) = callsOf u entries := by
  simp [callsOf, Ne.symm h]

/-- The log is a run of the atomic monitor, and each thread has returned from what it did, but
for a call that is about to return. -/
structure Linear (M : Monitor σ γ κ ρ) (d : σ) (s : State θ σ γ κ ρ) : Prop where
  atomic : (M.atomic θ).Run d s.log s.data
  own : ∀ t, callsOf t s.log = callsOf t s.returned ++ (s.place t).acted t

omit [DecidableEq κ] in
/-- A step that neither acts nor returns. -/
theorem Linear.of_same (h : Linear M d s) (hdata : s'.data = s.data) (hlog : s'.log = s.log)
    (hreturned : s'.returned = s.returned)
    (hacted : ∀ u, (s'.place u).acted u = (s.place u).acted u) : Linear M d s' := by
  refine ⟨?_, fun u => ?_⟩
  · rw [hdata, hlog]
    exact h.atomic
  · rw [hlog, hreturned, hacted u]
    exact h.own u

/-- Every step keeps the order. -/
theorem Linear.step (h : Linear M d s) (hexcl : Exclusive M s) (hstep : Step M may s a s') :
    Linear M d s' := by
  have hothers (u : θ) (hu : u ≠ a.thread) : (s'.place u).acted u = (s.place u).acted u := by
    rcases hstep.others u hu with heq | heq
    · rw [heq]
    · rw [heq, Place.acted_wake]
  have hall (hself : (s'.place a.thread).acted a.thread = (s.place a.thread).acted a.thread)
      (u : θ) : (s'.place u).acted u = (s.place u).acted u := by
    by_cases hu : u = a.thread
    · rw [hu]
      exact hself
    · exact hothers u hu
  cases hstep with
  | @act t c hplace =>
    refine ⟨h.atomic.snoc ⟨hexcl.ready t c hplace, rfl⟩ rfl, fun u => ?_⟩
    change callsOf u (s.log ++ [⟨t, c, M.result c s.data⟩]) = _
    by_cases hu : u = t
    · subst hu
      have hown := h.own u
      rw [hplace] at hown
      change callsOf u s.log = callsOf u s.returned ++ [] at hown
      rw [List.append_nil] at hown
      rw [callsOf_append_self, hown]
      simp [move, Place.acted]
    · rw [callsOf_append_of_ne hu, h.own u, ← hothers u hu]
      rfl
  | @leave t c r hplace =>
    refine ⟨h.atomic, fun u => ?_⟩
    change callsOf u s.log = callsOf u (s.returned ++ [⟨t, c, r⟩]) ++ _
    by_cases hu : u = t
    · subst hu
      rw [h.own u, hplace, callsOf_append_self]
      simp [move, Place.acted]
    · rw [callsOf_append_of_ne hu, h.own u, ← hothers u hu]
  | @call t c hplace _ =>
    exact h.of_same rfl rfl rfl (hall (by simp [Action.thread, hplace, Place.acted]))
  | @acquire t c hplace _ =>
    exact h.of_same rfl rfl rfl (hall (by simp [Action.thread, move, hplace, Place.acted]))
  | @test t c hplace =>
    refine h.of_same rfl rfl rfl (hall ?_)
    simp only [Action.thread, move_place_self, hplace]
    split <;> rfl
  | @sleep t c hplace =>
    exact h.of_same rfl rfl rfl (hall (by simp [Action.thread, move, hplace, Place.acted]))
  | @wake t c hplace =>
    exact h.of_same rfl rfl rfl (hall (by simp [Action.thread, hplace, Place.acted]))
  | @signal t c r sig notified hplace _ =>
    exact h.of_same rfl rfl rfl (hall (by simp [Action.thread, hplace, Place.acted]))

omit [DecidableEq κ] in
/-- It holds before the first call. -/
theorem New.linear (h : New d s) : Linear M d s := by
  refine ⟨?_, fun t => ?_⟩
  · rw [h.log, h.data]
    exact .nil
  · rw [h.log, h.returned, h.outside t]
    rfl

omit [DecidableEq κ] in
/-- A call that has returned is a call that has acted. -/
theorem Linear.returned_subset (h : Linear M d s) {e : Entry θ γ ρ} (he : e ∈ s.returned) :
    e ∈ s.log := by
  have hmem : e ∈ callsOf e.thread s.log := by
    rw [h.own e.thread]
    exact List.mem_append_left _ (List.mem_filter.mpr ⟨he, by simp⟩)
  exact (List.mem_filter.mp hmem).1

/-- **Monitors are atomic.** In every reachable state the calls that have acted form a run of the
monitor with calls that act one at a time, and each thread has returned, in that order and with
these results, from what it did, but for a call that is about to return. -/
theorem linear_of_reachable (h : (M.system may d).Reachable s) :
    Exclusive M s ∧ Linear M d s := by
  refine h.invariant (I := fun s => Exclusive M s ∧ Linear M d s)
    (fun hnew => ⟨hnew.exclusive, hnew.linear⟩) fun hI henabled hexec => ?_
  have hstep := step_of_exec henabled hexec
  exact ⟨hI.1.step hstep, hI.2.step hI.1 hstep⟩

/-! ### Nobody sleeps through a signal -/

/-- All calls that wait on a condition are of one thread. -/
def Solo (M : Monitor σ γ κ ρ) (may : θ → γ → Prop) (cond : κ) : Prop :=
  ∀ t u c c', may t c → may u c' → M.cond c = some cond → M.cond c' = some cond → t = u

/-- Whoever is asleep in this call is woken up by the signal. -/
def Reaches (M : Monitor σ γ κ ρ) (may : θ → γ → Prop) (sig : Signal κ) (c : γ) : Prop :=
  ∃ cond, M.cond c = some cond ∧ (sig = .all cond ∨ sig = .one cond ∧ Solo M may cond)

/-- `heed` is a part of the guards, and a body that makes it true for a call is followed by a
signal for that call. -/
structure Attentive (M : Monitor σ γ κ ρ) (may : θ → γ → Prop) (heed : γ → σ → Bool) : Prop where
  guard : ∀ c d, heed c d = true → M.guard c d = true
  signal : ∀ c c' d, heed c d = false → M.guard c' d = true → heed c (M.body c' d) = true →
    Reaches M may (M.signal c' d) c

/-- The threads call what they may call. -/
structure Called (may : θ → γ → Prop) (s : State θ σ γ κ ρ) : Prop where
  pending : ∀ t c, c ∈ (s.place t).pending → may t c
  log : ∀ e ∈ s.log, may e.thread e.call

/-- Every step keeps to what may be called. -/
theorem Called.step (h : Called may s) (hstep : Step M may s a s') : Called may s' := by
  refine ⟨fun u c hc => (hstep.pending hc).elim (h.pending u c) And.right, ?_⟩
  cases hstep with
  | @act t c hplace =>
    intro e he
    rcases List.mem_append.mp he with hold | hnew
    · exact h.log e hold
    · cases List.mem_singleton.mp hnew
      exact h.pending t c (by simp [hplace, Place.pending])
  | _ => exact h.log

omit [DecidableEq θ] [DecidableEq κ] in
/-- It holds before the first call. -/
theorem New.called (h : New d s) : Called may s := by
  refine ⟨fun t c hc => ?_, fun e he => ?_⟩
  · rw [h.outside t] at hc
    cases hc
  · rw [h.log] at he
    cases he

/-- Only calls that a thread may make have acted. -/
theorem called_of_reachable (h : (M.system may d).Reachable s) : Called may s :=
  h.invariant (fun hnew => hnew.called) fun hI henabled hexec =>
    hI.step (step_of_exec henabled hexec)

variable {heed : γ → σ → Bool}

/-- The threads signal what they have to, and whoever sleeps although that part of his guard is
true is about to be woken up. -/
structure Heard (M : Monitor σ γ κ ρ) (may : θ → γ → Prop) (heed : γ → σ → Bool)
    (s : State θ σ γ κ ρ) : Prop where
  signals : ∀ t c r sig, s.place t = .signalling c r sig → ∃ d, sig = M.signal c d
  signalled : ∀ t c, s.place t = .asleep c → heed c s.data = true →
    ∃ u c' r sig, s.place u = .signalling c' r sig ∧ Reaches M may sig c

/-- A signal that reaches a condition leaves nobody asleep on it. -/
theorem not_asleep_of_reaches {sig : Signal κ} {notified : Option θ} {c : γ}
    (hcalled : Called may s) (hsig : Reaches M may sig c)
    (hchooses : s.Chooses M notified sig) : s.signalled M notified sig t ≠ .asleep c := by
  intro hasleep
  have hwas : s.place t = .asleep c := by
    rcases s.signalled_eq notified sig t with heq | heq
    · rw [← heq, hasleep]
    · rw [hasleep] at heq
      cases hplace : s.place t <;> simp [hplace, Place.wake] at heq
  obtain ⟨cond, hcond, hsig⟩ := hsig
  have hsleeps : (M.condition cond).asleep (s.place t) = true :=
    Monitor.asleep_iff.mpr ⟨c, hwas, hcond⟩
  have hnow : (M.condition cond).asleep (s.signalled M notified sig t) = true :=
    Monitor.asleep_iff.mpr ⟨c, hasleep, hcond⟩
  rcases hsig with rfl | ⟨rfl, hsolo⟩
  · have hawake := (M.condition cond).awake_of_notifyAll s.place t
    change (M.condition cond).asleep ((M.condition cond).notifyAll s.place t) = true at hnow
    rw [hawake] at hnow
    cases hnow
  · cases notified with
    | none => cases hsleeps.symm.trans (hchooses t)
    | some v =>
      obtain ⟨c', hc', hcond'⟩ := Monitor.asleep_iff.mp hchooses
      have heq : t = v := hsolo t v c c' (hcalled.pending t c (by simp [hwas, Place.pending]))
        (hcalled.pending v c' (by simp [hc', Place.pending])) hcond hcond'
      subst heq
      have hawake := ((M.condition cond).woken_wake _ hsleeps).1
      change (M.condition cond).asleep (Function.update s.place t _ t) = true at hnow
      rw [Function.update_self, hawake] at hnow
      cases hnow

/-- Every step keeps the sleepers heard. -/
theorem Heard.step (h : Heard M may heed s) (hM : Attentive M may heed) (hexcl : Exclusive M s)
    (hcalled : Called may s) (hstep : Step M may s a s') : Heard M may heed s' := by
  refine ⟨fun u c r sig hu => ?_, ?_⟩
  · rcases hstep.signalling hu with hwas | rfl
    · exact h.signals u c r sig hwas
    · exact ⟨s.data, rfl⟩
  have hothers := hstep.others
  have hasleep (u : θ) (hu : u ≠ a.thread) (c : γ) (hc : s'.place u = .asleep c) :
      s.place u = .asleep c := by
    rcases hothers u hu with heq | heq
    · rw [← heq, hc]
    · rw [hc] at heq
      cases hplace : s.place u <;> simp [hplace, Place.wake] at heq
  -- A step of a thread that does not fall asleep in vain and is not at its signal.
  have hquiet (hdata : s'.data = s.data) (hself : ∀ c, s'.place a.thread = .asleep c →
      M.guard c s.data = false) (hnot : ∀ c r sig, s.place a.thread ≠ .signalling c r sig)
      (u : θ) (c : γ) (hc : s'.place u = .asleep c) (hheed : heed c s'.data = true) :
      ∃ v c' r sig, s'.place v = .signalling c' r sig ∧ Reaches M may sig c := by
    rw [hdata] at hheed
    have hu : u ≠ a.thread := by
      rintro rfl
      cases (hself c hc).symm.trans (hM.guard c s.data hheed)
    obtain ⟨v, c', r, sig, hv, hsig⟩ := h.signalled u c (hasleep u hu c hc) hheed
    have hne : v ≠ a.thread := by
      rintro rfl
      exact hnot c' r sig hv
    refine ⟨v, c', r, sig, ?_, hsig⟩
    rcases hothers v hne with heq | heq
    · rw [heq, hv]
    · rw [heq, hv]
      rfl
  -- Only the thread that has the mutex can be at a signal.
  have halone {t v : θ} {c : γ} {r : ρ} {sig : Signal κ} (ht : (s.place t).inside = true)
      (hv : s.place v = .signalling c r sig) : v = t := by
    have hvowner := (hexcl.owner v).mp (by simp [hv, Place.inside])
    rw [(hexcl.owner t).mp ht] at hvowner
    exact (Option.some.inj hvowner).symm
  cases hstep with
  | @act t c hplace =>
    intro u c' hc' hheed
    have hu : u ≠ t := by
      rintro rfl
      simp [move] at hc'
    have hfalse : heed c' s.data = false := by
      by_contra htrue
      obtain ⟨v, c₁, r, sig, hv, -⟩ := h.signalled u c' (hasleep u hu c' hc')
        (Bool.not_eq_false _ ▸ htrue)
      obtain rfl := halone (t := t) (by simp [hplace, Place.inside]) hv
      simp [hplace] at hv
    exact ⟨t, c, M.result c s.data, M.signal c s.data, move_place_self s t _,
      hM.signal c' c s.data hfalse (hexcl.ready t c hplace) hheed⟩
  | @signal t c r sig notified hplace hchooses =>
    intro u c' hc' hheed
    have hu : u ≠ t := by
      rintro rfl
      simp at hc'
    obtain ⟨v, c₁, r₁, sig₁, hv, hsig⟩ := h.signalled u c' (hasleep u hu c' hc') hheed
    obtain rfl := halone (t := t) (by simp [hplace, Place.inside]) hv
    obtain ⟨-, -, rfl⟩ := Place.signalling.inj (hv.symm.trans hplace)
    refine absurd ?_ (not_asleep_of_reaches (t := u) hcalled hsig hchooses)
    rw [← hc']
    exact (Function.update_of_ne hu ..).symm
  | @sleep t c hplace =>
    refine hquiet rfl (fun c' hc' => ?_) (by simp [Action.thread, hplace])
    simp only [Action.thread, move, Function.update_self] at hc'
    obtain rfl := Place.asleep.inj hc'
    exact hexcl.waiting t c hplace
  | @test t c hplace =>
    refine hquiet rfl (fun c' hc' => ?_) (by simp [Action.thread, hplace])
    simp only [Action.thread, move_place_self] at hc'
    split at hc' <;> cases hc'
  | @call t c hplace | @acquire t c hplace | @wake t c hplace | @leave t c r hplace =>
    exact hquiet rfl (by simp [Action.thread, move]) (by simp [Action.thread, hplace])

omit [DecidableEq θ] [DecidableEq κ] in
/-- It holds before the first call. -/
theorem New.heard (h : New d s) : Heard M may heed s := by
  refine ⟨fun t c r sig ht => ?_, fun t c hc => ?_⟩
  · rw [h.outside t] at ht
    cases ht
  · rw [h.outside t] at hc
    cases hc

/-- **No lost wake-ups.** If every body that makes this part of a guard true is followed by a
signal, then whoever sleeps although it is true is about to be woken up. -/
theorem heard_of_reachable (hM : Attentive M may heed) (h : (M.system may d).Reachable s) :
    Heard M may heed s := by
  refine (h.invariant (I := fun s => (Exclusive M s ∧ Called may s) ∧ Heard M may heed s)
    (fun hnew => ⟨⟨hnew.exclusive, hnew.called⟩, hnew.heard⟩) fun hI henabled hexec => ?_).2
  have hstep := step_of_exec henabled hexec
  exact ⟨⟨hI.1.1.step hstep, hI.1.2.step hstep⟩, hI.2.step hM hI.1.1 hI.1.2 hstep⟩

/-! ### Everybody returns -/

/-- With data of this kind no call has to wait, now or later. -/
structure Lasting (M : Monitor σ γ κ ρ) (free : σ → Prop) : Prop where
  guard : ∀ c d, free d → M.guard c d = true
  body : ∀ c d, free d → free (M.body c d)

/-- It stays so in every step. -/
theorem Lasting.step {free : σ → Prop} (hM : Lasting M free) (h : free s.data)
    (hstep : Step M may s a s') : free s'.data := by
  cases hstep with
  | @act t c => exact hM.body c s.data h
  | _ => exact h

/-- A run without new calls stays among the reachable states. -/
theorem reachable_of_continuing {as : List (Action θ γ)} (h : (M.system may d).Reachable s)
    (hrun : (M.continuing may d).Run s as s') : (M.system may d).Reachable s' :=
  hrun.invariant h fun hI henabled hexec => hI.snoc henabled.1 hexec

/-- Nobody has to wait. -/
def Free (M : Monitor σ γ κ ρ) (s : State θ σ γ κ ρ) : Prop := ∀ c, M.guard c s.data = true

/-- With data of this kind nobody has to wait in the whole run. -/
theorem Lasting.always {free : σ → Prop} (hM : Lasting M free) (h : free s.data)
    (may : θ → γ → Prop) (d : σ) (as : List (Action θ γ)) :
    (M.continuing may d).Always (Free M) s as := by
  intro bs t _ hrun
  have hfree : free t.data :=
    hrun.invariant (I := fun t => free t.data) h fun hI henabled hexec =>
      hM.step hI (step_of_exec henabled.1 hexec)
  exact fun c => hM.guard c t.data hfree

/-- If nobody has to wait, every step brings its thread nearer to its return, and it sends no
other thread back. -/
theorem Step.rank_le (hstep : Step M may s a s') (ha : a.continues = true) (hfree : Free M s)
    (u : θ) : (s'.place u).rank + (if a.thread = u then 1 else 0) ≤ (s.place u).rank := by
  by_cases hu : a.thread = u
  · rw [if_pos hu]
    subst hu
    cases hstep with
    | call => cases ha
    | @test t c hplace => simp [Action.thread, hplace, hfree c, Place.rank]
    | @acquire t c hplace | @sleep t c hplace | @wake t c hplace | @act t c hplace
    | @signal t c r sig notified hplace | @leave t c r hplace =>
      simp [Action.thread, move, hplace, Place.rank]
  · rw [if_neg hu]
    rcases hstep.others u fun heq => hu heq.symm with heq | heq
    · rw [heq]
      exact Nat.le_refl _
    · rw [heq]
      exact Place.rank_wake_le _

/-- Each thread makes no more steps than its place is away from its return. -/
theorem steps_le {as : List (Action θ γ)} (hrun : (M.continuing may d).Run s as s')
    (hfree : (M.continuing may d).Always (Free M) s as) (u : θ) :
    (s'.place u).rank + (as.countP fun a => a.thread = u) ≤ (s.place u).rank := by
  induction hrun with
  | nil => exact Nat.le_refl _
  | @snoc as a s₁ s₂ hrun henabled hexec ih =>
    have hbefore := ih hfree.of_append
    have hnow : Free M s₁ := hfree as s₁ (List.prefix_append as [a]) hrun
    have hle := (step_of_exec henabled.1 hexec).rank_le henabled.2 hnow u
    rw [List.countP_append, List.countP_singleton]
    simp only [decide_eq_true_eq]
    omega

omit [DecidableEq θ] in
/-- A signal can always be given. -/
theorem exists_chooses (s : State θ σ γ κ ρ) (sig : Signal κ) :
    ∃ notified, s.Chooses M notified sig := by
  cases sig with
  | silent | all => exact ⟨none, rfl⟩
  | one cond =>
    by_cases hasleep : ∃ u, (M.condition cond).asleep (s.place u) = true
    · obtain ⟨u, hu⟩ := hasleep
      exact ⟨some u, hu⟩
    · exact ⟨none, fun u => Bool.eq_false_iff.mpr fun hu => hasleep ⟨u, hu⟩⟩

omit [DecidableEq θ] in
/-- The thread that has the mutex can go on. -/
theorem exists_enabled_of_inside (may : θ → γ → Prop) (h : (s.place t).inside = true) :
    ∃ a, s.enabled M may a ∧ a.continues = true ∧ a.thread = t := by
  cases hplace : s.place t with
  | testing c => exact ⟨.test t, by simp [enabled, hplace], rfl, rfl⟩
  | waiting c => exact ⟨.sleep t, by simp [enabled, hplace], rfl, rfl⟩
  | ready c => exact ⟨.act t, by simp [enabled, hplace], rfl, rfl⟩
  | leaving c r => exact ⟨.leave t, by simp [enabled, hplace], rfl, rfl⟩
  | signalling c r sig =>
    obtain ⟨notified, hchooses⟩ := s.exists_chooses (M := M) sig
    exact ⟨.signal t notified, by simpa [enabled, hplace] using hchooses, rfl, rfl⟩
  | _ => simp [hplace, Place.inside] at h

omit [DecidableEq θ] in
/-- If a thread is awake in a call, such a thread can go on. -/
theorem exists_enabled_of_moving (may : θ → γ → Prop) (hexcl : Exclusive M s)
    (h : (s.place t).moving = true) :
    ∃ a, s.enabled M may a ∧ a.continues = true ∧ (s.place a.thread).moving = true := by
  have hinside {u : θ} (hu : (s.place u).inside = true) :
      ∃ a, s.enabled M may a ∧ a.continues = true ∧ (s.place a.thread).moving = true := by
    obtain ⟨a, henabled, hcontinues, rfl⟩ := exists_enabled_of_inside (M := M) may hu
    exact ⟨a, henabled, hcontinues, Place.moving_of_inside hu⟩
  cases hplace : s.place t with
  | entering c =>
    cases howner : s.owner with
    | none =>
      exact ⟨.acquire t, by simp [enabled, hplace, howner], rfl,
        by simp [Action.thread, hplace, Place.moving]⟩
    | some u => exact hinside ((hexcl.owner u).mpr howner)
  | outside | asleep => simp [hplace, Place.moving] at h
  | _ => exact hinside (u := t) (by simp [hplace, Place.inside])

/-- If somebody sleeps although his guard is true, a thread is awake to see to it. -/
def Roused (M : Monitor σ γ κ ρ) (s : State θ σ γ κ ρ) : Prop :=
  ∀ t c, s.place t = .asleep c → M.guard c s.data = true → ∃ u, (s.place u).moving = true

omit [DecidableEq θ] [DecidableEq κ] in
/-- The thread at the signal is awake. -/
theorem Heard.roused (h : Heard M may M.guard s) : Roused M s := by
  intro t c hasleep hguard
  obtain ⟨u, c', r, sig, hu, -⟩ := h.signalled t c hasleep hguard
  exact ⟨u, by simp [hu, Place.moving]⟩

omit [DecidableEq θ] in
/-- A monitor comes to rest only with threads that have to wait. -/
theorem Roused.goes_on (h : Roused M s) (may : θ → γ → Prop) (hexcl : Exclusive M s) :
    (∃ a, s.enabled M may a ∧ a.continues = true ∧ (s.place a.thread).moving = true) ∨
      ∀ t, s.place t = .outside ∨ ∃ c, s.place t = .asleep c ∧ M.guard c s.data = false := by
  by_cases hmoving : ∃ t, (s.place t).moving = true
  · obtain ⟨t, ht⟩ := hmoving
    exact .inl (exists_enabled_of_moving may hexcl ht)
  · refine .inr fun t => ?_
    cases hplace : s.place t with
    | outside => exact .inl rfl
    | asleep c =>
      refine .inr ⟨c, rfl, Bool.eq_false_iff.mpr fun hguard => hmoving ?_⟩
      exact h t c hplace hguard
    | _ => exact absurd ⟨t, by simp [hplace, Place.moving]⟩ hmoving

/-- **Everybody returns.** In a run without new calls in which nobody has to wait, each thread makes
at most seven steps, and a thread that is awake can take the next step until all have returned. -/
theorem all_return {as : List (Action θ γ)}
    (hroused : ∀ {s}, (M.system may d).Reachable s → Roused M s)
    (h : (M.system may d).Reachable s) (hfree : (M.continuing may d).Always (Free M) s as)
    (hrun : (M.continuing may d).Run s as s') :
    (∀ u, (as.countP fun a => a.thread = u) ≤ 7) ∧
      ((∃ a, (M.continuing may d).enabled s' a ∧ (s'.place a.thread).moving = true) ∨
        ∀ t, s'.place t = .outside) := by
  refine ⟨fun u => ?_, ?_⟩
  · have hsteps := steps_le hrun hfree u
    have hrank := (s.place u).rank_le
    omega
  have hreach := reachable_of_continuing h hrun
  have hexcl := (linear_of_reachable hreach).1
  rcases (hroused hreach).goes_on may hexcl with ⟨a, henabled, ha, hmoving⟩ | hrest
  · exact .inl ⟨a, ⟨henabled, ha⟩, hmoving⟩
  · refine .inr fun t => (hrest t).resolve_right fun ⟨c, hc, hfalse⟩ => ?_
    have hnow : Free M s' := hfree as s' List.prefix_rfl hrun
    cases hfalse.symm.trans (hnow c)

end State

end Steps

end Monitors
