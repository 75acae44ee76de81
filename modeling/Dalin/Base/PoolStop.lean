import Dalin.Base.PoolRefinement

/-!
# The end of the thread pool

Once `stop` has changed `running_`, every worker is on its way out of `runInThread`,
whatever else the producers do, and `stop` can return when all of them have ended.
-/

set_option autoImplicit false

namespace Dalin

open Transition Monitors TaskQueue

/-- The thread that makes a step. -/
def ProgramStep.thread {ω π φ : Type} : ProgramStep ω π φ → PoolThread ω π
  | .testRunning w | .callTask w | .taskReturns w => .worker w
  | .operation a => a.thread
  | .stopReturns => .stopper

/-- A bound on the steps that a worker makes in a stopped pool until it has ended. -/
def LoopPlace.rank {φ : Type} :
    LoopPlace φ → Place (TaskQueueCall φ) TaskQueueCondition (TaskQueueResult φ) → ℕ
  | .exited, _ => 0
  | .testing, _ => 1
  | .running _, _ => 2
  | .taken _, _ => 3
  | .taking, .outside => 11
  | .taking, place => 3 + place.rank

/-- A bound on the steps of the thread that calls `stop`, after the change of `running_`. -/
def StopPlace.rank {φ : Type} :
    StopPlace → Place (TaskQueueCall φ) TaskQueueCondition (TaskQueueResult φ) → ℕ
  | .returned, _ => 0
  | .joining, _ => 1
  | .outside, place => 2 + place.rank

section

variable {φ : Type} (place : Place (TaskQueueCall φ) TaskQueueCondition (TaskQueueResult φ))

/-- Never more than eleven. -/
theorem LoopPlace.rank_le (loop : LoopPlace φ) : loop.rank place ≤ 11 := by
  cases loop with
  | taking => cases place <;> simp [LoopPlace.rank, Place.rank]
  | _ => simp [LoopPlace.rank]

/-- A wake-up does not send a thread back. -/
theorem LoopPlace.rank_wake_le (loop : LoopPlace φ) :
    loop.rank place.wake ≤ loop.rank place := by
  cases loop with
  | taking => cases place <;> simp [LoopPlace.rank, Place.wake, Place.rank]
  | _ => exact Nat.le_refl _

/-- A wake-up does not send a thread back. -/
theorem StopPlace.rank_wake_le (stopper : StopPlace) :
    stopper.rank place.wake ≤ stopper.rank place := by
  cases stopper with
  | outside => exact Nat.add_le_add_left place.rank_wake_le 2
  | _ => exact Nat.le_refl _

end

/-- A pool has been stopped when the critical section of `stop` is over. -/
theorem ThreadPool.running_iff {ω π φ : Type} [DecidableEq ω] [DecidableEq π]
    {c : ThreadPool ω π φ} (h : (threadPoolSystem ω π φ).Reachable c) :
    c.running = true ↔ c.stopper = .outside := by
  refine h.invariant (I := fun c => c.running = true ↔ c.stopper = .outside)
    (fun hinit => ⟨fun _ => hinit.2.2.2.2.1, fun _ => hinit.1⟩)
    fun {c a c'} hI henabled hexec => ?_
  cases hexec
  cases a with
  | stop => simp [exec]
  | stopReturns =>
    refine ⟨fun hrunning => ?_, fun hreturned => ?_⟩
    · cases henabled.1.symm.trans (hI.mp hrunning)
    · cases hreturned
  | takeTask w notified =>
    simp only [exec, takeTask]
    split
    · split <;> exact hI
    · exact hI
  | callTask w =>
    simp only [exec, callTask]
    split <;> exact hI
  | taskReturns w =>
    simp only [exec, taskReturns]
    split <;> exact hI
  | pushTask p notified =>
    simp only [exec]
    split
    · unfold pushTask
      split <;> exact hI
    · exact hI
  | testRunning | addTask | wakeWorker | wakeProducer => exact hI

namespace PoolProgram

section

variable {ω π φ : Type} {maxQueueSize : ℕ} {s s' : PoolProgram ω π φ}

/-- The steps that are left to a thread in a stopped pool. Those of producers do not count. -/
def rankOf (s : PoolProgram ω π φ) : PoolThread ω π → ℕ
  | .worker w => (s.loop w).rank (s.sections.place (.worker w))
  | .producer _ => 0
  | .stopper => s.stopper.rank (s.sections.place .stopper)

/-- A stopped pool: the workers are in the critical sections for `takeTask`, and the thread that
calls `stop` is past the change of `running_`. -/
structure Stopping (s : PoolProgram ω π φ) : Prop where
  stopped : s.sections.data.running = false
  loop : ∀ w, s.sections.place (.worker w) ≠ .outside → s.loop w = .taking
  calls : ∀ w k, k ∈ (s.sections.place (.worker w)).pending → k = .takeTask
  inside : s.stopper = .outside → (s.sections.place .stopper).inside = true
  pending : (s.sections.place .stopper).pending = none
  joining : s.sections.place .stopper ≠ .outside → s.stopper = .outside

end

section

variable {ω π φ : Type} [DecidableEq ω] [DecidableEq π] {maxQueueSize : ℕ}
  {s s' t : PoolProgram ω π φ}

/-- A reachable state after `stop` has changed `running_`. -/
theorem stopping_of_reachable (h : (poolProgram ω π φ maxQueueSize).Reachable s)
    (hstopped : s.sections.data.running = false) : s.Stopping := by
  obtain ⟨c, hc, hrefines⟩ := refines_of_reachable h
  have hstopper : c.stopper ≠ .outside := fun houtside => by
    have hrunning := (ThreadPool.running_iff hc).mpr houtside
    rw [hrefines.running, hstopped] at hrunning
    cases hrunning
  have hat (w : ω) : WorkerAt _ (s.loop w) (c.worker w) (s.sections.place (.worker w)) :=
    hrefines.place (.worker w)
  have hstop : StopperAt s.stopper c.stopper (s.sections.place .stopper) :=
    hrefines.place .stopper
  have hsections : s.sections.place .stopper = .outside ∧ s.stopper ≠ .outside ∨
      ((s.sections.place .stopper).inside = true ∧
        (s.sections.place .stopper).pending = none ∧ s.stopper = .outside) := by
    cases hplace : s.sections.place .stopper with
    | outside =>
      rw [hplace] at hstop
      exact .inl ⟨rfl, fun houtside => hstopper (hstop.trans houtside)⟩
    | signalling =>
      rw [hplace] at hstop
      exact .inr ⟨rfl, rfl, hstop.2.2.1⟩
    | leaving =>
      rw [hplace] at hstop
      exact .inr ⟨rfl, rfl, hstop.2.1⟩
    | waiting | asleep =>
      rw [hplace] at hstop
      exact hstop.elim
    | entering | testing | ready =>
      rw [hplace] at hstop
      exact absurd hstop.2.2 hstopper
  refine ⟨hstopped, fun w hne => ?_, fun w k hk => ?_, fun houtside => ?_, ?_, fun hne => ?_⟩
  · have hw := hat w
    cases hplace : s.sections.place (.worker w) with
    | outside => exact absurd hplace hne
    | _ =>
      rw [hplace] at hw
      exact hw.2.1
  · have hw := hat w
    cases hplace : s.sections.place (.worker w) with
    | outside | signalling | leaving =>
      rw [hplace] at hk
      cases hk
    | _ =>
      rw [hplace] at hw hk
      cases hk
      exact hw.1
  · rcases hsections with ⟨-, hne⟩ | ⟨hinside, -, -⟩
    · exact absurd houtside hne
    · exact hinside
  · rcases hsections with ⟨hout, -⟩ | ⟨-, hnone, -⟩
    · rw [hout]
      rfl
    · exact hnone
  · rcases hsections with ⟨hout, -⟩ | ⟨-, -, houtside⟩
    · exact absurd hout hne
    · exact houtside

/-- An operation in a critical section sends nobody back, and brings its own thread nearer to its
end. -/
theorem Stopping.operation {a : Action (PoolThread ω π) (TaskQueueCall φ)} (h : s.Stopping)
    (henabled : s.enabled maxQueueSize (.operation a)) :
    (∀ u, u ≠ a.thread → (s.exec maxQueueSize (.operation a)).rankOf u ≤ s.rankOf u) ∧
      ((∀ v, a.thread ≠ .producer v) →
        (s.exec maxQueueSize (.operation a)).rankOf a.thread < s.rankOf a.thread) ∧
      (s.exec maxQueueSize (.operation a)).sections.data.running = false := by
  have hstep := step_of_enabled henabled
  change (∀ u, _ →
      (s.operate (s.sections.exec (threadPool φ maxQueueSize) a) a).rankOf u ≤ _) ∧
    (_ → (s.operate (s.sections.exec (threadPool φ maxQueueSize) a) a).rankOf _ < _) ∧
    (s.operate (s.sections.exec (threadPool φ maxQueueSize) a) a).sections.data.running = false
  generalize s.sections.exec (threadPool φ maxQueueSize) a = sections at hstep
  have hothers := hstep.others
  refine ⟨fun u hu => ?_, fun hpool => ?_, ?_⟩
  · have hloop (w : ω) (hw : .worker w ≠ a.thread) :
        (s.operate sections a).loop w = s.loop w := by
      unfold operate
      split
      · rename_i t _ _ _
        cases t with
        | worker w' =>
          exact Function.update_of_ne (fun heq => hw (congrArg PoolThread.worker heq)) ..
        | producer | stopper => rfl
      · rfl
    have hstopper (hw : .stopper ≠ a.thread) : (s.operate sections a).stopper = s.stopper := by
      unfold operate
      split
      · rename_i t _ _ _
        cases t with
        | stopper => exact absurd rfl hw
        | worker | producer => rfl
      · rfl
    cases u with
    | producer v => exact le_rfl
    | worker w =>
      change ((s.operate sections a).loop w).rank ((s.operate sections a).sections.place _) ≤
        (s.loop w).rank _
      rw [hloop w hu, operate_sections]
      rcases hothers _ hu with heq | heq
      · rw [heq]
      · rw [heq]
        exact LoopPlace.rank_wake_le ..
    | stopper =>
      change ((s.operate sections a).stopper).rank ((s.operate sections a).sections.place _) ≤
        s.stopper.rank _
      rw [hstopper hu, operate_sections]
      rcases hothers _ hu with heq | heq
      · rw [heq]
      · rw [heq]
        exact StopPlace.rank_wake_le ..
  · have hguard (w : ω) (k : TaskQueueCall φ)
        (hk : k ∈ (s.sections.place (.worker w)).pending) :
        (threadPool φ maxQueueSize).guard k s.sections.data = true := by
      rw [h.calls w k hk]
      simp [threadPool, h.stopped]
    cases hthread : a.thread with
    | producer v => exact absurd hthread (hpool v)
    | worker w =>
      cases hstep with
      | call hplace hmay =>
        cases hthread
        simp [operate, rankOf, State.move, hplace, hmay.2, LoopPlace.rank, Place.rank]
      | leave hplace =>
        cases hthread
        have hloop := h.loop w (by simp [hplace])
        simp [operate, Action.thread, receive, moveLoop, rankOf, State.move, hplace, hloop,
          LoopPlace.rank, Place.rank]
      | @test t k hplace =>
        cases hthread
        have hloop := h.loop w (by simp [hplace])
        have htrue := hguard w k (by simp [hplace, Place.pending])
        simp [operate, rankOf, State.move, hplace, hloop, htrue, LoopPlace.rank, Place.rank]
      | acquire hplace | sleep hplace | wake hplace | act hplace | signal hplace =>
        cases hthread
        have hloop := h.loop w (by simp [hplace])
        simp [operate, rankOf, State.move, hplace, hloop, LoopPlace.rank, Place.rank]
    | stopper =>
      have hpending := h.pending
      cases hstep with
      | call hplace hmay =>
        cases hthread
        have hinside := h.inside hmay.2
        simp [hplace, Place.inside] at hinside
      | leave hplace =>
        cases hthread
        have hstopper := h.joining (by simp [hplace])
        simp [operate, Action.thread, receive, rankOf, State.move, hplace, hstopper,
          StopPlace.rank, Place.rank]
      | signal hplace =>
        cases hthread
        have hstopper := h.joining (by simp [hplace])
        simp [operate, rankOf, hplace, hstopper, StopPlace.rank, Place.rank]
      | acquire hplace | test hplace | sleep hplace | wake hplace | act hplace =>
        cases hthread
        simp [hplace, Place.pending] at hpending
  · rw [operate_sections]
    cases hstep with
    | @act t k hplace =>
      cases k with
      | stop => rfl
      | addTask | takeTask | queueSize => exact h.stopped
    | _ => exact h.stopped

/-- A step outside of the critical sections brings its worker nearer to its end, and sends nobody
back. -/
theorem rankOf_moveLoop (w : ω) (loop : LoopPlace φ) (hsections : s'.sections = s.sections)
    (hloop : s'.loop = Function.update s.loop w loop) (hstopper : s'.stopper = s.stopper)
    (hlt : ∀ place, loop.rank place < (s.loop w).rank place) (u : PoolThread ω π) :
    s'.rankOf u + (if .worker w = u then 1 else 0) ≤ s.rankOf u := by
  by_cases hu : .worker w = u
  · rw [if_pos hu, ← hu]
    unfold rankOf
    dsimp only
    rw [hsections, hloop, Function.update_self]
    exact hlt _
  · rw [if_neg hu, Nat.add_zero]
    unfold rankOf
    cases u with
    | producer v => exact Nat.le_refl _
    | worker v =>
      have hne : v ≠ w := fun heq => hu (heq ▸ rfl)
      dsimp only
      rw [hsections, hloop, Function.update_of_ne hne]
    | stopper =>
      dsimp only
      rw [hsections, hstopper]

/-- Each step of a worker or of the thread that calls `stop` brings it nearer to its end, and no
step sends one of them back. -/
theorem Stopping.step {a : ProgramStep ω π φ} (h : s.Stopping)
    (henabled : s.enabled maxQueueSize a) :
    (∀ u, (∀ v, u ≠ .producer v) →
        (s.exec maxQueueSize a).rankOf u + (if a.thread = u then 1 else 0) ≤ s.rankOf u) ∧
      (s.exec maxQueueSize a).sections.data.running = false := by
  cases a with
  | operation a =>
    obtain ⟨hothers, hself, hrunning⟩ := h.operation henabled
    refine ⟨fun u hpool => ?_, hrunning⟩
    change _ + (if a.thread = u then 1 else 0) ≤ _
    by_cases hu : a.thread = u
    · subst hu
      rw [if_pos rfl]
      exact hself hpool
    · rw [if_neg hu]
      exact hothers u fun heq => hu heq.symm
  | testRunning w =>
    change s.loop w = .testing at henabled
    refine ⟨fun u _ => ?_, h.stopped⟩
    refine rankOf_moveLoop w .exited (by rfl) ?_ (by rfl) (fun place => ?_) u
    · simp [exec, moveLoop, h.stopped]
    · simp [henabled, LoopPlace.rank]
  | callTask w =>
    cases hloop : s.loop w with
    | taken task =>
      simp only [exec, hloop]
      cases task with
      | none =>
        refine ⟨fun u _ => ?_, h.stopped⟩
        refine rankOf_moveLoop w .testing (by rfl) (by rfl) (by rfl) (fun place => ?_) u
        simp [hloop, LoopPlace.rank]
      | some task =>
        refine ⟨fun u _ => ?_, h.stopped⟩
        refine rankOf_moveLoop w (.running task) (by rfl) (by rfl) (by rfl)
          (fun place => ?_) u
        simp [hloop, LoopPlace.rank]
    | _ => simp [enabled, hloop, LoopPlace.hasTaken] at henabled
  | taskReturns w =>
    cases hloop : s.loop w with
    | running task =>
      simp only [exec, hloop]
      refine ⟨fun u _ => ?_, h.stopped⟩
      refine rankOf_moveLoop w .testing (by rfl) (by rfl) (by rfl) (fun place => ?_) u
      simp [hloop, LoopPlace.rank]
    | _ => simp [enabled, hloop, LoopPlace.isRunning] at henabled
  | stopReturns =>
    refine ⟨fun u _ => ?_, h.stopped⟩
    cases u with
    | stopper =>
      unfold rankOf
      rw [henabled.1]
      exact Nat.le_refl _
    | worker | producer => exact Nat.le_refl _

/-- A stopped pool stays stopped, and its workers and the thread that calls `stop` make no more
steps than are left to them. -/
theorem steps_le {as : List (ProgramStep ω π φ)} (h : (poolProgram ω π φ maxQueueSize).Reachable s)
    (hstopped : s.sections.data.running = false)
    (hrun : (poolProgram ω π φ maxQueueSize).Run s as t) :
    (poolProgram ω π φ maxQueueSize).Reachable t ∧ t.sections.data.running = false ∧
      ∀ u, (∀ v, u ≠ .producer v) →
        t.rankOf u + (as.countP fun a => a.thread = u) ≤ s.rankOf u := by
  refine hrun.history
    (I := fun as t => (poolProgram ω π φ maxQueueSize).Reachable t ∧
      t.sections.data.running = false ∧ ∀ u, (∀ v, u ≠ .producer v) →
        t.rankOf u + (as.countP fun a => a.thread = u) ≤ s.rankOf u)
    ⟨h, hstopped, fun u _ => Nat.le_refl _⟩ fun {as₀ t₀ a₀ u₀} hI henabled hexec => ?_
  obtain ⟨hreach, hstill, hbefore⟩ := hI
  obtain ⟨hle, hrunning⟩ := (stopping_of_reachable hreach hstill).step henabled
  have heq : t₀.exec maxQueueSize a₀ = u₀ := Except.ok.inj hexec
  rw [heq] at hle hrunning
  refine ⟨hreach.snoc henabled hexec, hrunning, fun u hu => ?_⟩
  have hsum := hbefore u hu
  have hstep := hle u hu
  rw [List.countP_append, List.countP_singleton]
  simp only [decide_eq_true_eq]
  omega

omit [DecidableEq ω] [DecidableEq π] in
/-- The thread that calls `stop` has at most four steps left. -/
theorem Stopping.rankOf_stopper_le (h : s.Stopping) : s.rankOf .stopper ≤ 4 := by
  unfold rankOf
  cases hs : s.stopper with
  | joining | returned => simp [StopPlace.rank]
  | outside =>
    have hinside := h.inside hs
    have hpending := h.pending
    cases hplace : s.sections.place .stopper with
    | signalling | leaving => simp [StopPlace.rank, Place.rank]
    | outside | entering | asleep => simp [hplace, Place.inside] at hinside
    | testing | waiting | ready => simp [hplace, Place.pending] at hpending

/-- In a stopped pool no worker sleeps when nobody has the mutex. -/
theorem not_asleep_of_stopped [Fintype ω] [Fintype π] {w : ω} {k : TaskQueueCall φ}
    (h : (poolProgram ω π φ maxQueueSize).Reachable s)
    (hstopped : s.sections.data.running = false) (howner : s.sections.owner = none) :
    s.sections.place (.worker w) ≠ .asleep k := by
  intro hasleep
  obtain ⟨c, hc, hrefines⟩ := refines_of_reachable h
  have hattended : c.Attended := by
    refine hc.invariant ThreadPool.Attended.of_init fun hI henabled hexec => ?_
    cases hexec
    exact hI.step henabled
  have hsignal : atSignal (s.sections.place .stopper) = false := by
    by_contra htrue
    have hinside := inside_of_atSignal (Bool.not_eq_false _ ▸ htrue)
    have hheld := ((linear_of_reachable h).1.owner _).mp hinside
    rw [howner] at hheld
    cases hheld
  have hat : WorkerAt _ (s.loop w) (c.worker w) (s.sections.place (.worker w)) :=
    hrefines.place (.worker w)
  rw [hasleep, hsignal] at hat
  have hawake := hattended.stopped (hrefines.running.trans hstopped) w
  rw [hat.2.2] at hawake
  cases hawake

/-- A worker or the thread that calls `stop` can go on, or a producer that has the mutex can,
without a new call and without a wake-up that nobody has sent. -/
def CanGoOn (maxQueueSize : ℕ) (s : PoolProgram ω π φ) : Prop :=
  ∃ a, s.enabled maxQueueSize a ∧ (∀ u, a ≠ .operation (.wake u)) ∧
    ∀ v, a.thread = .producer v → s.sections.owner = some (.producer v) ∧
      ∃ b, a = .operation b ∧ b.continues = true

/-- The thread that has the mutex can go on. -/
theorem canGoOn_of_owner {u : PoolThread ω π} (h : (poolProgram ω π φ maxQueueSize).Reachable s)
    (howner : s.sections.owner = some u) : s.CanGoOn maxQueueSize := by
  have hinside := ((linear_of_reachable h).1.owner u).mpr howner
  obtain ⟨b, hb, hcontinues, hthread⟩ := State.exists_enabled_of_inside
    (M := threadPool φ maxQueueSize) s.MayCall hinside
  refine ⟨.operation b, hb, fun v heq => ?_, fun v hv => ⟨?_, b, rfl, hcontinues⟩⟩
  · cases heq
    cases hthread
    cases hplace : s.sections.place v with
    | asleep => simp [hplace, Action.thread, Place.inside] at hinside
    | _ =>
      change State.enabled _ _ _ (.wake v) at hb
      simp [State.enabled, hplace] at hb
  · rw [howner]
    exact congrArg some (hthread.symm.trans hv)

omit [DecidableEq ω] [DecidableEq π] in
/-- A step of a worker or of the thread that calls `stop`. -/
theorem canGoOn_of_enabled {a : ProgramStep ω π φ} (ha : s.enabled maxQueueSize a)
    (hwake : ∀ u, a ≠ .operation (.wake u)) (hpool : ∀ v, a.thread ≠ .producer v) :
    s.CanGoOn maxQueueSize :=
  ⟨a, ha, hwake, fun v hv => absurd hv (hpool v)⟩

/-- In a stopped pool in which nobody has the mutex, a worker goes on until it has ended. -/
theorem canGoOn_of_not_exited [Fintype ω] [Fintype π] {w : ω}
    (h : (poolProgram ω π φ maxQueueSize).Reachable s)
    (hstopped : s.sections.data.running = false) (howner : s.sections.owner = none)
    (hw : s.loop w ≠ .exited) : s.CanGoOn maxQueueSize := by
  cases hloop : s.loop w with
  | exited => exact absurd hloop hw
  | testing =>
    exact canGoOn_of_enabled (a := .testRunning w) hloop (by simp) (by simp [ProgramStep.thread])
  | taken task =>
    refine canGoOn_of_enabled (a := .callTask w) ?_ (by simp) (by simp [ProgramStep.thread])
    simp [enabled, hloop, LoopPlace.hasTaken]
  | running task =>
    refine canGoOn_of_enabled (a := .taskReturns w) ?_ (by simp) (by simp [ProgramStep.thread])
    simp [enabled, hloop, LoopPlace.isRunning]
  | taking =>
    cases hplace : s.sections.place (.worker w) with
    | outside =>
      refine canGoOn_of_enabled (a := .operation (.call (.worker w) .takeTask)) ?_ (by simp)
        (by simp [ProgramStep.thread, Action.thread])
      simp [enabled, State.enabled, hplace, MayCall, hloop]
    | entering k =>
      refine canGoOn_of_enabled (a := .operation (.acquire (.worker w))) ?_ (by simp)
        (by simp [ProgramStep.thread, Action.thread])
      simp [enabled, State.enabled, hplace, howner]
    | asleep k => exact absurd hplace (not_asleep_of_stopped h hstopped howner)
    | _ =>
      have hheld := ((linear_of_reachable h).1.owner (.worker w)).mp (by
        rw [hplace]
        rfl)
      rw [howner] at hheld
      cases hheld

end

/-- The worker sleeps, and `stop` has changed `running_` but has not notified. -/
def stopBeforeNotifyAll : List (ProgramStep Unit Bool ℕ) :=
  [.testRunning (), .operation (.call (.worker ()) .takeTask), .operation (.acquire (.worker ())),
    .operation (.test (.worker ())), .operation (.sleep (.worker ())),
    .operation (.call .stopper .stop), .operation (.acquire .stopper),
    .operation (.test .stopper), .operation (.act .stopper)]

/-- The worker ends, and `stop` returns. -/
def endOfStop : List (ProgramStep Unit Bool ℕ) :=
  [.operation (.signal .stopper none), .operation (.leave .stopper)] ++
    throughGuard (.worker ()) none ++ [.callTask (), .testRunning (), .stopReturns]

end PoolProgram

end Dalin
