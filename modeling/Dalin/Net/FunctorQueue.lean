import Dalin.Net.EventLoop

/-!
# The functor queue

An `EventLoop` may be entered and left many times, and its thread may use it
outside of `loop()` as well. This file adds the calls of `loop()` and a record of
the functors that were queued and started, and shows that every functor runs in
its turn, in batches that are fixed when `doPendingFunctors` swaps them out.
-/

set_option autoImplicit false

namespace Dalin.Net

open Transition

/-- An `EventLoop` with its calls of `loop()`, and a record of its functors. -/
structure LoopUse (τ φ : Type) where
  loop : EventLoop τ φ
  /-- `looping_`. -/
  looping : Bool
  /-- The functors pushed so far, in the order of the pushes under `mutex_`. -/
  pushed : List φ
  /-- The functors of `pendingFunctors_` that were called so far, in order. -/
  executed : List φ

/-- A step of a loop, or of the thread that owns it. -/
inductive UseStep (τ φ : Type)
  | step (a : LoopStep τ φ)
  /-- The owner calls `loop()`. -/
  | enter
  /-- The owner calls `queueInLoop` outside of `loop()`, up to the push. -/
  | ownerPush (f : φ)
  /-- The owner calls `quit()` outside of `loop()`. -/
  | ownerQuit

namespace LoopUse

variable {τ φ : Type} [DecidableEq τ]

/-- The functor that a step pushes. -/
def pushes : LoopStep τ φ → List φ
  | .push f => [f]
  | .foreignPush _ f => [f]
  | _ => []

/-- The functor that a step starts. -/
def starts : LoopStep τ φ → Place φ → List φ
  | .callFunctor, .running (f :: _) => [f]
  | _, _ => []

/-- The functors of the current batch that were not called yet. -/
def batch : Place φ → List φ
  | .running functors => functors
  | .functor functors => functors
  | _ => []

/-- The owner may call functions of the loop: it is in none of them. -/
def OwnerFree (u : LoopUse τ φ) : Prop :=
  u.loop.inQueueInLoop = false ∧ match u.loop.place with
    | .left | .handler _ | .functor _ => True
    | _ => False

/-- The owner is outside of `loop()`. -/
def Outside (u : LoopUse τ φ) : Prop :=
  u.loop.inQueueInLoop = false ∧ match u.loop.place with
    | .left => True
    | _ => False

instance (u : LoopUse τ φ) : Decidable u.OwnerFree := by
  unfold OwnerFree
  split <;> infer_instance

instance (u : LoopUse τ φ) : Decidable u.Outside := by
  unfold Outside
  split <;> infer_instance

/-- Which steps may come next. -/
def enabled (u : LoopUse τ φ) : UseStep τ φ → Prop
  | .step a => u.loop.enabledAt a u.loop.place
  | .enter => u.OwnerFree
  | .ownerPush _ => u.Outside
  | .ownerQuit => u.Outside

instance (u : LoopUse τ φ) (a : UseStep τ φ) : Decidable (u.enabled a) := by
  cases a <;> unfold enabled <;> infer_instance

/-- The effect of a step. -/
def exec (u : LoopUse τ φ) : UseStep τ φ → Except Failure (LoopUse τ φ)
  | .step a => .ok {
      loop := u.loop.exec a
      looping := match a with
        | .leave => false
        | _ => u.looping
      pushed := u.pushed ++ pushes a
      executed := u.executed ++ starts a u.loop.place }
  | .enter => do
    require (u.looping = false) "!looping_"
    return { u with loop := { u.loop with quit := false, place := .loopHead }, looping := true }
  | .ownerPush f => .ok { u with
      loop := { u.loop.push f with inQueueInLoop := true }
      pushed := u.pushed ++ [f] }
  | .ownerQuit => .ok { u with loop := { u.loop with quit := true } }

end LoopUse

/-- All runs from the construction of a loop on. -/
def loopUseSystem (τ φ : Type) [DecidableEq τ] : System (LoopUse τ φ) (UseStep τ φ) Failure where
  init u := u.loop.quit = false ∧ u.loop.callingPendingFunctors = false ∧
    u.loop.pendingFunctors = [] ∧ u.loop.wakeupFd = 0 ∧ u.loop.place = .left ∧
    u.loop.inQueueInLoop = false ∧ (∀ t, u.loop.caller t = .outside) ∧ u.looping = false ∧
    u.pushed = [] ∧ u.executed = []
  enabled := LoopUse.enabled
  exec := LoopUse.exec

instance {τ φ : Type} [DecidableEq τ] (u : LoopUse τ φ) (a : UseStep τ φ) :
    Decidable ((loopUseSystem τ φ).enabled u a) :=
  inferInstanceAs (Decidable (u.enabled a))

namespace LoopUse

variable {τ φ : Type} [DecidableEq τ] {u v : LoopUse τ φ}

/-- Every functor that was pushed was called, or is in the current batch, or is pending. -/
structure Queued (u : LoopUse τ φ) : Prop where
  inOrder : u.executed ++ batch u.loop.place ++ u.loop.pendingFunctors = u.pushed
  outside : u.looping = false → u.loop.place = .left

omit [DecidableEq τ] in
/-- A step of the loop that has no part in the queue keeps its record. -/
theorem Queued.of_same (h : u.Queued) {looping : Bool} {loop : EventLoop τ φ}
    (hbatch : batch loop.place = batch u.loop.place)
    (hpending : loop.pendingFunctors = u.loop.pendingFunctors)
    (houtside : looping = false → loop.place = .left) :
    Queued ⟨loop, looping, u.pushed ++ [], u.executed ++ []⟩ := by
  refine ⟨?_, houtside⟩
  rw [List.append_nil, List.append_nil, hbatch, hpending]
  exact h.inOrder

omit [DecidableEq τ] in
/-- A push appends its functor to the record and to the queue. -/
theorem Queued.of_push (h : u.Queued) (f : φ) {loop : EventLoop τ φ}
    (hplace : loop.place = u.loop.place)
    (hpending : loop.pendingFunctors = u.loop.pendingFunctors ++ [f]) :
    Queued ⟨loop, u.looping, u.pushed ++ [f], u.executed ++ []⟩ := by
  refine ⟨?_, fun hlooping => ?_⟩
  · rw [List.append_nil, hplace, hpending, ← List.append_assoc, h.inOrder]
  · rw [hplace]
    exact h.outside hlooping

/-- Every step of the loop keeps the record of the functors. -/
theorem Queued.step {a : LoopStep τ φ} (h : u.Queued)
    (henabled : u.loop.enabledAt a u.loop.place) (hexec : u.exec (.step a) = .ok v) :
    v.Queued := by
  obtain ⟨⟨quit, calling, pending, fd, place, queueing, caller⟩, looping, pushed, executed⟩ := u
  have hinOrder := h.inOrder
  have houtside := h.outside
  cases hexec
  simp only at henabled hinOrder houtside
  unfold EventLoop.enabledAt at henabled
  split at henabled
  · -- `enterPoll`
    exact h.of_same rfl rfl fun hlooping => by cases houtside hlooping
  · -- `leave`
    exact h.of_same rfl rfl fun _ => rfl
  · -- `pollReturns`
    exact h.of_same rfl rfl fun hlooping => by cases houtside hlooping
  · -- `handleEvent`
    rename_i source rest
    cases source with
    | wakeup => exact h.of_same rfl rfl fun hlooping => by cases houtside hlooping
    | other => exact h.of_same rfl rfl fun hlooping => by cases houtside hlooping
  · -- `handlerReturns`
    exact h.of_same rfl rfl fun hlooping => by cases houtside hlooping
  · -- `setCalling`
    exact h.of_same rfl rfl fun hlooping => by cases houtside hlooping
  · -- `swap`: the queue becomes the batch
    refine ⟨?_, fun hlooping => by cases houtside hlooping⟩
    change (executed ++ []) ++ pending ++ [] = pushed ++ []
    rw [← hinOrder]
    simp only [batch, List.append_nil]
  · -- `callFunctor`: the first functor of the batch becomes the last one of the record
    rename_i f rest
    refine ⟨?_, fun hlooping => by cases houtside hlooping⟩
    change (executed ++ [f]) ++ rest ++ pending = pushed ++ []
    rw [← hinOrder]
    simp only [batch, List.append_assoc, List.append_nil, List.cons_append, List.nil_append]
  · -- `functorReturns`
    exact h.of_same rfl rfl fun hlooping => by cases houtside hlooping
  · -- `clearCalling`
    exact h.of_same rfl rfl fun hlooping => by cases houtside hlooping
  · -- `push` of a handler
    exact h.of_push _ rfl rfl
  · -- `push` of a functor
    exact h.of_push _ rfl rfl
  · -- `testCalling`
    cases calling with
    | true => exact h.of_same rfl rfl houtside
    | false => exact h.of_same rfl rfl houtside
  · -- `quit` of a handler
    exact h.of_same rfl rfl houtside
  · -- `quit` of a functor
    exact h.of_same rfl rfl houtside
  · -- `foreignPush`
    exact h.of_push _ rfl rfl
  · -- `foreignWakeup`
    exact h.of_same rfl rfl houtside
  · -- `foreignQuit`
    exact h.of_same rfl rfl houtside
  · exact henabled.elim

/-- Every step keeps the record of the functors. -/
theorem Queued.use {a : UseStep τ φ} (h : u.Queued) (henabled : u.enabled a)
    (hexec : u.exec a = .ok v) : v.Queued := by
  cases a with
  | step a => exact h.step henabled hexec
  | enter =>
    obtain ⟨hlooping, hv⟩ := require_bind_eq_ok.mp hexec
    cases hv
    have hplace := h.outside hlooping
    refine ⟨?_, fun htrue => by cases htrue⟩
    rw [← h.inOrder, hplace]
    rfl
  | ownerPush f =>
    cases hexec
    refine ⟨?_, h.outside⟩
    change u.executed ++ batch u.loop.place ++ (u.loop.pendingFunctors ++ [f]) = u.pushed ++ [f]
    rw [← List.append_assoc, h.inOrder]
  | ownerQuit =>
    cases hexec
    exact ⟨h.inOrder, h.outside⟩

/-- It holds before the first step. -/
theorem Queued.of_init (h : (loopUseSystem τ φ).init u) : u.Queued := by
  obtain ⟨_, _, hpending, _, hplace, _, _, _, hpushed, hexecuted⟩ := h
  refine ⟨?_, fun _ => hplace⟩
  rw [hpending, hplace, hpushed, hexecuted]
  rfl

/-! ### Batches -/

/-- The loop is in `doPendingFunctors`, past the swap. -/
def InBatch : Place φ → Prop
  | .running _ | .functor _ => True
  | _ => False

/-- A batch of the functors `all`, which began when those of `before` had been called. -/
structure Batched (before all : List φ) (u : LoopUse τ φ) : Prop where
  inBatch : InBatch u.loop.place
  looping : u.looping = true
  fixed : u.executed ++ batch u.loop.place = before ++ all

omit [DecidableEq τ] in
/-- A step that calls no functor and stays at its place continues the batch. -/
theorem Batched.of_same {before all : List φ} (h : u.Batched before all) {loop : EventLoop τ φ}
    {pushed : List φ} (hin : InBatch loop.place) (hbatch : batch loop.place = batch u.loop.place) :
    Batched before all ⟨loop, u.looping, pushed, u.executed ++ []⟩ := by
  refine ⟨hin, h.looping, ?_⟩
  rw [List.append_nil, hbatch]
  exact h.fixed

/-- Only the end of a batch changes what it runs. -/
theorem Batched.step {before all : List φ} {a : LoopStep τ φ} (h : u.Batched before all)
    (henabled : u.loop.enabledAt a u.loop.place) (hexec : u.exec (.step a) = .ok v)
    (hend : a ≠ .clearCalling) : v.Batched before all := by
  obtain ⟨⟨quit, calling, pending, fd, place, queueing, caller⟩, looping, pushed, executed⟩ := u
  have hin := h.inBatch
  have hfixed := h.fixed
  cases hexec
  simp only at henabled hin hfixed
  unfold EventLoop.enabledAt at henabled
  split at henabled
  · exact hin.elim
  · exact hin.elim
  · exact hin.elim
  · exact hin.elim
  · exact hin.elim
  · exact hin.elim
  · exact hin.elim
  · -- `callFunctor`
    rename_i f rest
    refine ⟨trivial, h.looping, ?_⟩
    change (executed ++ [f]) ++ rest = before ++ all
    rw [← hfixed, List.append_assoc]
    rfl
  · -- `functorReturns`
    exact h.of_same trivial rfl
  · exact absurd rfl hend
  · exact hin.elim
  · -- `push` of a functor
    exact h.of_same trivial rfl
  · -- `testCalling`
    cases calling with
    | true => exact h.of_same hin rfl
    | false => exact h.of_same hin rfl
  · exact hin.elim
  · -- `quit` of a functor
    exact h.of_same trivial rfl
  · -- `foreignPush`
    exact h.of_same hin rfl
  · -- `foreignWakeup`
    exact h.of_same hin rfl
  · -- `foreignQuit`
    exact h.of_same hin rfl
  · exact henabled.elim

/-- The owner cannot do anything outside of the loop during a batch, nor enter it again. -/
theorem Batched.use {before all : List φ} {a : UseStep τ φ} (h : u.Batched before all)
    (henabled : u.enabled a) (hexec : u.exec a = .ok v) (hend : a ≠ .step .clearCalling) :
    v.Batched before all := by
  have houtside : ¬ u.Outside := by
    rintro ⟨_, hplace⟩
    have hin := h.inBatch
    split at hplace
    · rename_i heq
      rw [heq] at hin
      exact hin
    · exact hplace
  cases a with
  | step a => exact h.step henabled hexec fun heq => hend (heq ▸ rfl)
  | enter =>
    obtain ⟨hlooping, _⟩ := require_bind_eq_ok.mp hexec
    rw [h.looping] at hlooping
    cases hlooping
  | ownerPush f => exact absurd henabled houtside
  | ownerQuit => exact absurd henabled houtside

/-- A batch runs what it was given, as long as it goes on. -/
theorem Batched.run {before all : List φ} {as : List (UseStep τ φ)} (h : u.Batched before all)
    (hrun : (loopUseSystem τ φ).Run u as v) (hend : UseStep.step .clearCalling ∉ as) :
    v.Batched before all := by
  induction hrun with
  | nil => exact h
  | snoc _ henabled hexec ih =>
    rw [List.mem_append, not_or, List.mem_singleton] at hend
    exact (ih hend.1).use henabled hexec (Ne.symm hend.2)

omit [DecidableEq τ] in
/-- A batch ends when none of its functors is left. -/
theorem place_of_clearCalling {e : EventLoop τ φ} {place : Place φ}
    (h : e.enabledAt .clearCalling place) : place = .running [] := by
  cases place with
  | running functors =>
    cases functors with
    | nil => rfl
    | cons => exact h.elim
  | _ => exact h.elim

/-- **Functor queue.** The functors that were called, those of the current batch that were
not, and the pending ones are all functors that were pushed, in the order of the pushes.
From the swap on until its end, a batch runs the functors that were pending at the swap, in
this order and no others, and it ends only when all of them were called. -/
theorem functors_in_order (h : (loopUseSystem τ φ).Reachable u) :
    u.executed ++ batch u.loop.place ++ u.loop.pendingFunctors = u.pushed ∧
    (u.loop.place = .swapping → ∀ w as v, u.exec (.step .swap) = .ok w →
      (loopUseSystem τ φ).Run w as v → UseStep.step .clearCalling ∉ as →
      InBatch v.loop.place ∧
      v.executed ++ batch v.loop.place = u.executed ++ u.loop.pendingFunctors ∧
      (v.enabled (.step .clearCalling) → v.executed = u.executed ++ u.loop.pendingFunctors)) := by
  have hqueued : u.Queued := h.invariant Queued.of_init fun hI henabled hexec =>
    hI.use henabled hexec
  refine ⟨hqueued.inOrder, fun hswapping w as v hswap hrun hend => ?_⟩
  have hbatched : w.Batched u.executed u.loop.pendingFunctors := by
    cases hswap
    refine ⟨trivial, ?_, ?_⟩
    · cases hlooping : u.looping with
      | true => rfl
      | false => cases hswapping.symm.trans (hqueued.outside hlooping)
    · change (u.executed ++ []) ++ u.loop.pendingFunctors = _
      rw [List.append_nil]
  have hv := hbatched.run hrun hend
  refine ⟨hv.inBatch, hv.fixed, fun hclear => ?_⟩
  have hfixed := hv.fixed
  rw [place_of_clearCalling hclear] at hfixed
  change v.executed ++ [] = _ at hfixed
  rw [List.append_nil] at hfixed
  exact hfixed

/-- A loop that was just constructed, used by one other thread. -/
def newLoop : LoopUse Unit ℕ :=
  ⟨⟨false, false, [], 0, .left, false, fun _ => .outside⟩, false, [], []⟩

/-- The owner queues a functor and enters the loop, and another thread pushes a functor
before the swap. -/
def pushesBeforeSwap : List (UseStep Unit ℕ) :=
  [.ownerPush 1, .step .testCalling, .enter, .step .enterPoll, .step (.foreignPush () 2),
    .step (.foreignWakeup ()), .step (.pollReturns [.wakeup]), .step .handleEvent,
    .step .setCalling]

/-- The first functor queues another one and quits. -/
def nestedPush : List (UseStep Unit ℕ) :=
  [.step .callFunctor, .step (.push 3), .step .testCalling, .step .quit, .step .functorReturns,
    .step .callFunctor, .step .functorReturns]

/-- A functor that is pushed by a functor waits for the next batch. -/
theorem functors_in_order_nestedPush :
    ∃ u w v, (loopUseSystem Unit ℕ).Reachable u ∧ u.exec (.step .swap) = .ok w ∧
      (loopUseSystem Unit ℕ).Run w nestedPush v ∧ u.executed ++ u.loop.pendingFunctors = [1, 2] ∧
      v.executed = u.executed ++ u.loop.pendingFunctors := by
  have hcheck : ((loopUseSystem Unit ℕ).replay newLoop pushesBeforeSwap).any (fun u =>
      decide (u.loop.place = .swapping ∧ u.executed ++ u.loop.pendingFunctors = [1, 2]) &&
      (u.exec (.step .swap)).toOption.any fun w =>
        ((loopUseSystem Unit ℕ).replay w nestedPush).any fun v =>
          decide (v.enabled (.step .clearCalling))) = true := by decide +kernel
  obtain ⟨u, hrun, hu⟩ := System.exists_run_of_replay hcheck
  obtain ⟨hu, hbatch⟩ := Bool.and_eq_true_iff.mp hu
  obtain ⟨hswapping, hpending⟩ := of_decide_eq_true hu
  have hreach : (loopUseSystem Unit ℕ).Reachable u :=
    ⟨_, _, ⟨rfl, rfl, rfl, rfl, rfl, rfl, fun _ => rfl, rfl, rfl, rfl⟩, hrun⟩
  obtain ⟨w, hswap, hbatch⟩ := exists_ok_of_any hbatch
  obtain ⟨v, hv, hclear⟩ := System.exists_run_of_replay hbatch
  have hend : UseStep.step .clearCalling ∉ nestedPush := by simp [nestedPush]
  exact ⟨u, w, v, hreach, hswap, hv, hpending,
    ((functors_in_order hreach).2 hswapping w _ v hswap hv hend).2.2 (of_decide_eq_true hclear)⟩

end LoopUse

end Dalin.Net
