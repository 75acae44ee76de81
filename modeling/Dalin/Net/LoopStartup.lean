import Dalin.Net.FunctorQueue

/-!
# The start of a loop in its own thread

`EventLoopThread` constructs an `EventLoop` in a new thread, publishes it, and
enters `loop()`, which begins with `quit_ = false`. From the publication on,
other threads may use the loop, and `~EventLoopThread` quits it and joins the
thread. This file shows which requests survive the start.
-/

set_option autoImplicit false

namespace Dalin.Net

open Transition

/-- Who pushed a functor. -/
inductive PushedBy
  /-- The owner, before its call of `loop()`. -/
  | ownerBeforeLoop
  | others
  deriving DecidableEq

/-- An `EventLoopThread`, or another thread that owns a loop, with the threads `τ` that
may use the loop once they know it. -/
structure LoopThread (τ : Type) where
  use : LoopUse τ PushedBy
  /-- `loop_` is set, and `startLoop` may return. -/
  published : Bool
  /-- The owner has called `loop()`. -/
  entered : Bool
  /-- The thread that runs `~EventLoopThread`. -/
  destructor : Option τ
  /-- A call of `quit()` has set `quit_`. -/
  quitMade : Bool
  /-- A call of `quit()` is complete. -/
  quitCompleted : Bool
  /-- Another thread has written to the eventfd. -/
  woken : Bool

/-- A step of the owner, or of another thread. -/
inductive ThreadStep (τ : Type)
  | publish
  | use (a : UseStep τ PushedBy)
  /-- A thread runs `~EventLoopThread`, up to the assignment in `quit()`. -/
  | destroy (t : τ)

namespace LoopThread

variable {τ : Type} [DecidableEq τ]

/-- The functors that a step may push. -/
def MayPush : UseStep τ PushedBy → Prop
  | .ownerPush f => f = .ownerBeforeLoop
  | .step (.push f) => f = .others
  | .step (.foreignPush _ f) => f = .others
  | _ => True

/-- The threads that may take part in a step: the owner calls `loop()` once, after the
publication, other threads need the pointer, and the one that runs the destructor does
nothing else. -/
def MayTake (l : LoopThread τ) : UseStep τ PushedBy → Prop
  | .enter => l.published = true ∧ l.entered = false
  | .ownerPush _ => l.entered = false
  | .ownerQuit => l.entered = false
  | .step (.foreignPush t _) => l.published = true ∧ l.destructor ≠ some t
  | .step (.foreignQuit t) => l.published = true ∧ l.destructor ≠ some t
  | _ => True

instance (a : UseStep τ PushedBy) : Decidable (MayPush a) := by
  unfold MayPush
  split <;> infer_instance

instance (l : LoopThread τ) (a : UseStep τ PushedBy) : Decidable (l.MayTake a) := by
  unfold MayTake
  split <;> infer_instance

/-- Which steps may come next. -/
def enabled (l : LoopThread τ) : ThreadStep τ → Prop
  | .publish => l.published = false
  | .use a => l.use.enabled a ∧ MayPush a ∧ l.MayTake a
  | .destroy t => l.published = true ∧ l.destructor = none ∧ l.use.loop.caller t = .outside

instance (l : LoopThread τ) (a : ThreadStep τ) : Decidable (l.enabled a) := by
  cases a <;> unfold enabled <;> infer_instance

/-- A step assigns `true` to `quit_`. -/
def quits : UseStep τ PushedBy → Bool
  | .ownerQuit => true
  | .step .quit => true
  | .step (.foreignQuit _) => true
  | _ => false

/-- A step completes a call of `quit()`. -/
def completesQuit (l : LoopThread τ) : UseStep τ PushedBy → Bool
  | .ownerQuit => true
  | .step .quit => true
  | .step (.foreignWakeup t) => decide (l.use.loop.caller t = .quitting)
  | _ => false

/-- Another thread writes to the eventfd. -/
def wakes : UseStep τ PushedBy → Bool
  | .step (.foreignWakeup _) => true
  | _ => false

/-- The owner calls `loop()`. -/
def enters : UseStep τ PushedBy → Bool
  | .enter => true
  | _ => false

/-- The effect of a step. -/
def exec (l : LoopThread τ) : ThreadStep τ → Except Failure (LoopThread τ)
  | .publish => .ok { l with published := true }
  | .use a => do
    let use ← l.use.exec a
    return { l with
      use
      entered := l.entered || enters a
      quitMade := l.quitMade || quits a
      quitCompleted := l.quitCompleted || l.completesQuit a
      woken := l.woken || wakes a }
  | .destroy t => do
    let use ← l.use.exec (.step (.foreignQuit t))
    return { l with use, destructor := some t, quitMade := true }

end LoopThread

/-- All runs from the construction of the loop on. -/
def loopThreadSystem (τ : Type) [DecidableEq τ] :
    System (LoopThread τ) (ThreadStep τ) Failure where
  init l := (loopUseSystem τ PushedBy).init l.use ∧ l.published = false ∧ l.entered = false ∧
    l.destructor = none ∧ l.quitMade = false ∧ l.quitCompleted = false ∧ l.woken = false
  enabled := LoopThread.enabled
  exec := LoopThread.exec

instance {τ : Type} [DecidableEq τ] (l : LoopThread τ) (a : ThreadStep τ) :
    Decidable ((loopThreadSystem τ).enabled l a) :=
  inferInstanceAs (Decidable (l.enabled a))

namespace LoopThread

variable {τ : Type} [DecidableEq τ] {l m : LoopThread τ}

/-- `loop()` was called and has returned. -/
def Returned (l : LoopThread τ) : Prop := l.entered = true ∧ l.use.loop.place = .left

/-- A thread waits in the `join` of `~EventLoopThread`. -/
def Joining (l : LoopThread τ) : Prop :=
  ∃ t, l.destructor = some t ∧ l.use.loop.caller t = .outside

/-- Requests of the start are not lost: a completed `quit()` lasts until `loop()` returns,
nobody waits in `join` for a loop that polls without `quit_`, and no poll is entered with the
counter at zero while a functor of the owner from before `loop()` is pending. -/
structure RequestsKept (l : LoopThread τ) : Prop where
  quit : l.quitCompleted = true → ¬ l.Returned → l.use.loop.quit = true
  join : l.Joining → l.use.loop.place = .poll → l.use.loop.quit = true
  functors : l.use.loop.place = .poll →
    PushedBy.ownerBeforeLoop ∈ l.use.loop.pendingFunctors → 0 < l.use.loop.wakeupFd

/-- `loop()` begins before any `quit()`, and before its first poll another thread has written
to the eventfd if the owner had queued a functor. -/
def Prompt (l : LoopThread τ) : ThreadStep τ → Prop
  | .use .enter => l.quitMade = false
  | .use (.step .enterPoll) =>
    PushedBy.ownerBeforeLoop ∈ l.use.loop.pendingFunctors → l.woken = true
  | _ => True

instance (l : LoopThread τ) (a : ThreadStep τ) : Decidable (l.Prompt a) := by
  unfold Prompt
  split <;> infer_instance

/-! ### The step of the loop -/

omit [DecidableEq τ] in
/-- The end of `queueInLoop` only writes to the eventfd, if at all. -/
theorem testCalling_same (e : EventLoop τ PushedBy) :
    e.testCalling.quit = e.quit ∧ e.testCalling.caller = e.caller ∧
      e.testCalling.place = e.place ∧ e.testCalling.pendingFunctors = e.pendingFunctors ∧
      (0 < e.wakeupFd → 0 < e.testCalling.wakeupFd) := by
  unfold EventLoop.testCalling
  split
  · exact ⟨rfl, rfl, rfl, rfl, fun _ => EventLoop.wakeup_pos e⟩
  · exact ⟨rfl, rfl, rfl, rfl, id⟩

/-- A step that is no call of `quit()` leaves `quit_` as it is. -/
theorem quit_of_not_quits (e : EventLoop τ PushedBy) {a : LoopStep τ PushedBy}
    (h : quits (.step a) = false) : (e.exec a).quit = e.quit := by
  unfold EventLoop.exec
  split <;> first | rfl | exact (testCalling_same e).1 | cases h

/-- A call of `quit()` sets `quit_`. -/
theorem quit_of_quits (e : EventLoop τ PushedBy) {a : LoopStep τ PushedBy}
    (h : quits (.step a) = true) : (e.exec a).quit = true := by
  cases a with
  | quit => rfl
  | foreignQuit t => rfl
  | _ => cases h

/-- Another thread is between its two steps of `quit()` only after it set `quit_`. -/
theorem quits_of_caller {e : EventLoop τ PushedBy} {a : LoopStep τ PushedBy} {t : τ}
    (h : (e.exec a).caller t = .quitting) : e.caller t = .quitting ∨ quits (.step a) = true := by
  have hupdate {t' : τ} {c : Caller} (hcaller : Function.update e.caller t' c t = .quitting)
      (hc : c ≠ .quitting) : e.caller t = .quitting := by
    by_cases heq : t = t'
    · subst heq
      rw [Function.update_self] at hcaller
      exact absurd hcaller hc
    · rwa [Function.update_of_ne heq] at hcaller
  unfold EventLoop.exec at h
  split at h <;> first
    | exact Or.inl h
    | exact Or.inr rfl
    | exact Or.inl (hupdate h (by decide))
    | exact Or.inl ((congrFun (testCalling_same e).2.1 t).symm.trans h)

/-! ### `quit_` -/

/-- In a prompt run `quit_` stays set after the first call of `quit()`. -/
structure QuitKept (l : LoopThread τ) : Prop where
  quit : l.quitMade = true → l.use.loop.quit = true
  completed : l.quitCompleted = true → l.quitMade = true
  quitting : ∀ t, l.use.loop.caller t = .quitting → l.quitMade = true
  destructor : ∀ t, l.destructor = some t → l.quitMade = true

/-- A step of the loop or of the threads that use it keeps `quit_`. -/
theorem QuitKept.use {a : UseStep τ PushedBy} (h : l.QuitKept) (hprompt : l.Prompt (.use a))
    (hexec : l.exec (.use a) = .ok m) : m.QuitKept := by
  obtain ⟨use, huse, hm⟩ := bind_eq_ok.mp hexec
  cases hm
  have hmade : l.quitMade = true → (l.quitMade || quits a) = true := fun hmade => by
    rw [hmade]
    rfl
  have hcompleted (hcompletes : l.completesQuit a = true → (l.quitMade || quits a) = true)
      (hc : (l.quitCompleted || l.completesQuit a) = true) : (l.quitMade || quits a) = true := by
    rcases Bool.or_eq_true_iff.mp hc with hc | hc
    · exact hmade (h.completed hc)
    · exact hcompletes hc
  cases a with
  | step a =>
    cases huse
    refine ⟨fun hquit => ?_, hcompleted fun hc => ?_, fun t ht => ?_,
      fun t ht => hmade (h.destructor t ht)⟩
    · cases hquits : quits (.step a) with
      | true => exact quit_of_quits _ hquits
      | false =>
        change (l.quitMade || quits (.step a)) = true at hquit
        rw [hquits, Bool.or_false] at hquit
        exact (quit_of_not_quits _ hquits).trans (h.quit hquit)
    · cases a with
      | quit => exact Bool.or_true _
      | foreignWakeup t => exact hmade (h.quitting t (of_decide_eq_true hc))
      | _ => cases hc
    · rcases quits_of_caller ht with ht | hquits
      · exact hmade (h.quitting t ht)
      · change (l.quitMade || quits (.step a)) = true
        rw [hquits, Bool.or_true]
  | enter =>
    obtain ⟨_, hu⟩ := require_bind_eq_ok.mp huse
    cases hu
    change l.quitMade = false at hprompt
    have hno : (l.quitMade || quits (.enter : UseStep τ PushedBy)) = false := by
      rw [hprompt]
      rfl
    refine ⟨fun hquit => ?_, hcompleted (fun hc => by cases hc),
      fun t ht => hmade (h.quitting t ht), fun t ht => hmade (h.destructor t ht)⟩
    cases hno.symm.trans hquit
  | ownerPush f =>
    cases huse
    refine ⟨fun hquit => h.quit ?_, hcompleted (fun hc => by cases hc),
      fun t ht => hmade (h.quitting t ht), fun t ht => hmade (h.destructor t ht)⟩
    simpa [quits] using hquit
  | ownerQuit =>
    cases huse
    exact ⟨fun _ => rfl, fun _ => Bool.or_true _, fun _ _ => Bool.or_true _,
      fun _ _ => Bool.or_true _⟩

/-- Every prompt step keeps `quit_`. -/
theorem QuitKept.step {a : ThreadStep τ} (h : l.QuitKept) (hprompt : l.Prompt a)
    (hexec : l.exec a = .ok m) : m.QuitKept := by
  cases a with
  | publish =>
    cases hexec
    exact ⟨h.quit, h.completed, h.quitting, h.destructor⟩
  | use a => exact h.use hprompt hexec
  | destroy t =>
    cases hexec
    exact ⟨fun _ => rfl, fun _ => rfl, fun _ _ => rfl, fun _ _ => rfl⟩

/-! ### The functors of the owner -/

/-- In a prompt run, as long as no poll has returned, a write to the eventfd was not read
back, and it comes before a poll that finds a functor of the owner. -/
structure FunctorsKept (l : LoopThread τ) : Prop where
  outside : l.entered = false → l.use.loop.place = .left
  written : l.entered = false → l.woken = true → 0 < l.use.loop.wakeupFd
  unread : (l.use.loop.place = .left ∨ l.use.loop.place = .loopHead ∨ l.use.loop.place = .poll) →
    PushedBy.ownerBeforeLoop ∈ l.use.loop.pendingFunctors → l.woken = true →
    0 < l.use.loop.wakeupFd
  polling : l.use.loop.place = .poll →
    PushedBy.ownerBeforeLoop ∈ l.use.loop.pendingFunctors → l.woken = true
  swapped : LoopUse.InBatch l.use.loop.place →
    PushedBy.ownerBeforeLoop ∉ l.use.loop.pendingFunctors

omit [DecidableEq τ] in
/-- A step that leaves the owner where it is, takes nothing from the queue, and reads nothing. -/
theorem FunctorsKept.of_same (h : l.FunctorsKept)
    (hplace : m.use.loop.place = l.use.loop.place)
    (hpending : PushedBy.ownerBeforeLoop ∈ m.use.loop.pendingFunctors →
      PushedBy.ownerBeforeLoop ∈ l.use.loop.pendingFunctors)
    (hfd : 0 < l.use.loop.wakeupFd → 0 < m.use.loop.wakeupFd)
    (hentered : m.entered = l.entered)
    (hwoken : m.woken = l.woken ∨ m.woken = true ∧ 0 < m.use.loop.wakeupFd) :
    m.FunctorsKept := by
  have hwritten (hl : l.woken = true → 0 < l.use.loop.wakeupFd) (hw : m.woken = true) :
      0 < m.use.loop.wakeupFd := by
    rcases hwoken with hsame | ⟨_, hpos⟩
    · exact hfd (hl (hsame ▸ hw))
    · exact hpos
  refine ⟨fun hout => ?_, fun hout => hwritten (h.written (hentered ▸ hout)),
    fun hat hmem => hwritten (h.unread (hplace ▸ hat) (hpending hmem)), fun hpoll hmem => ?_,
    fun hin hmem => h.swapped (hplace ▸ hin) (hpending hmem)⟩
  · rw [hplace]
    exact h.outside (hentered ▸ hout)
  · have hpolling := h.polling (hplace ▸ hpoll) (hpending hmem)
    rcases hwoken with hsame | ⟨htrue, _⟩
    · exact hsame.trans hpolling
    · exact htrue

omit [DecidableEq τ] in
/-- A step inside the loop to a place before the next swap. -/
theorem FunctorsKept.of_handling (h : l.FunctorsKept) (hentered : m.entered = l.entered)
    (hleft : l.use.loop.place ≠ .left) (hleft' : m.use.loop.place ≠ .left)
    (hplace : ¬ EventLoop.BeforePoll m.use.loop.place) : m.FunctorsKept := by
  have hin (hout : m.entered = false) : False := hleft (h.outside (hentered ▸ hout))
  refine ⟨fun hout => (hin hout).elim, fun hout => (hin hout).elim, fun hat => ?_,
    fun hpoll => ?_, fun hbatch => ?_⟩
  · rcases hat with heq | heq | heq
    · exact absurd heq hleft'
    · exact absurd (heq ▸ trivial) hplace
    · exact absurd (heq ▸ trivial) hplace
  · exact absurd (hpoll ▸ trivial) hplace
  · cases heq : m.use.loop.place <;> rw [heq] at hbatch hplace
    case running | functor => exact absurd trivial hplace
    all_goals exact hbatch.elim

omit [DecidableEq τ] in
/-- A step inside the loop after which no functor of the owner is pending. -/
theorem FunctorsKept.of_swapped (h : l.FunctorsKept) (hentered : m.entered = l.entered)
    (hleft : l.use.loop.place ≠ .left)
    (hpending : PushedBy.ownerBeforeLoop ∉ m.use.loop.pendingFunctors) : m.FunctorsKept := by
  have hin (hout : m.entered = false) : False := hleft (h.outside (hentered ▸ hout))
  exact ⟨fun hout => (hin hout).elim, fun hout => (hin hout).elim,
    fun _ hmem => absurd hmem hpending, fun _ hmem => absurd hmem hpending, fun _ => hpending⟩

/-- A functor of another origin is not one of the owner. -/
theorem mem_of_push {f : PushedBy} {fs : List PushedBy} (hf : f = .others)
    (hmem : PushedBy.ownerBeforeLoop ∈ fs ++ [f]) : PushedBy.ownerBeforeLoop ∈ fs := by
  subst hf
  simpa using hmem

/-- A prompt step of the loop keeps the functors of the owner. -/
theorem FunctorsKept.loop {a : LoopStep τ PushedBy} (h : l.FunctorsKept)
    (henabled : l.enabled (.use (.step a))) (hprompt : l.Prompt (.use (.step a)))
    (hexec : l.exec (.use (.step a)) = .ok m) : m.FunctorsKept := by
  obtain ⟨⟨⟨quit, calling, pending, fd, place, queueing, caller⟩, looping, pushed, executed⟩,
    published, entered, destructor, quitMade, quitCompleted, woken⟩ := l
  obtain ⟨henabled, hpush, _⟩ := henabled
  have hentered : (entered || false) = entered := Bool.or_false _
  have hwoken : (woken || false) = woken := Bool.or_false _
  cases hexec
  change EventLoop.enabledAt _ a place at henabled
  unfold EventLoop.enabledAt at henabled
  split at henabled
  · -- `enterPoll`
    refine ⟨fun hout => (by cases h.outside (hentered ▸ hout)), fun hout =>
      (by cases h.outside (hentered ▸ hout)), fun _ hmem hw => ?_, fun _ hmem => ?_,
      fun hin => hin.elim⟩
    · exact h.unread (.inr (.inl rfl)) hmem (hprompt hmem)
    · exact hwoken.trans (hprompt hmem)
  · -- `leave`
    refine ⟨fun _ => rfl, fun hout => (by cases h.outside (hentered ▸ hout)), fun _ hmem hw => ?_,
      fun hpoll => (by cases hpoll), fun hin => hin.elim⟩
    exact h.unread (.inr (.inl rfl)) hmem (hwoken.symm.trans hw)
  · -- `pollReturns`
    exact h.of_handling hentered (fun hleft => by cases hleft) (fun hleft => by cases hleft) id
  · -- `handleEvent`
    rename_i source rest _
    cases source with
    | wakeup =>
      exact h.of_handling hentered (fun hleft => by cases hleft) (fun hleft => by cases hleft) id
    | other =>
      exact h.of_handling hentered (fun hleft => by cases hleft) (fun hleft => by cases hleft) id
  · -- `handlerReturns`
    exact h.of_handling hentered (fun hleft => by cases hleft) (fun hleft => by cases hleft) id
  · -- `setCalling`
    exact h.of_handling hentered (fun hleft => by cases hleft) (fun hleft => by cases hleft) id
  · -- `swap`
    exact h.of_swapped hentered (fun hleft => by cases hleft) List.not_mem_nil
  · -- `callFunctor`
    exact h.of_swapped hentered (fun hleft => by cases hleft) (h.swapped trivial)
  · -- `functorReturns`
    exact h.of_swapped hentered (fun hleft => by cases hleft) (h.swapped trivial)
  · -- `clearCalling`
    exact h.of_swapped hentered (fun hleft => by cases hleft) (h.swapped trivial)
  · -- `push` of a handler
    exact h.of_same rfl (mem_of_push hpush) id hentered (Or.inl hwoken)
  · -- `push` of a functor
    exact h.of_same rfl (mem_of_push hpush) id hentered (Or.inl hwoken)
  · -- `testCalling`
    obtain ⟨_, _, hplace, hpending, hfd⟩ := testCalling_same
      (⟨quit, calling, pending, fd, place, queueing, caller⟩ : EventLoop τ PushedBy)
    exact h.of_same hplace (fun hmem => hpending ▸ hmem) hfd hentered (Or.inl hwoken)
  · -- `quit` of a handler
    exact h.of_same rfl id id hentered (Or.inl hwoken)
  · -- `quit` of a functor
    exact h.of_same rfl id id hentered (Or.inl hwoken)
  · -- `foreignPush`
    exact h.of_same rfl (mem_of_push hpush) id hentered (Or.inl hwoken)
  · -- `foreignWakeup`
    have hpos := EventLoop.wakeup_pos
      (⟨quit, calling, pending, fd, place, queueing, caller⟩ : EventLoop τ PushedBy)
    exact h.of_same rfl id (fun _ => hpos) hentered (Or.inr ⟨Bool.or_true _, hpos⟩)
  · -- `foreignQuit`
    exact h.of_same rfl id id hentered (Or.inl hwoken)
  · exact henabled.elim

/-- Every prompt step keeps the functors of the owner. -/
theorem FunctorsKept.step {a : ThreadStep τ} (h : l.FunctorsKept) (henabled : l.enabled a)
    (hprompt : l.Prompt a) (hexec : l.exec a = .ok m) : m.FunctorsKept := by
  cases a with
  | publish =>
    cases hexec
    exact h.of_same rfl id id rfl (Or.inl rfl)
  | destroy t =>
    cases hexec
    exact h.of_same rfl id id rfl (Or.inl rfl)
  | use a =>
    have hwoken : (l.woken || false) = l.woken := Bool.or_false _
    cases a with
    | step a => exact h.loop henabled hprompt hexec
    | enter =>
      obtain ⟨_, _, _, hentered⟩ := henabled
      obtain ⟨use, huse, hm⟩ := bind_eq_ok.mp hexec
      obtain ⟨_, hu⟩ := require_bind_eq_ok.mp huse
      cases hm
      cases hu
      have hin : (l.entered || true) = true := Bool.or_true _
      exact ⟨fun hout => (by cases hin.symm.trans hout), fun hout => (by cases hin.symm.trans hout),
        fun _ _ hw => h.written hentered (hwoken.symm.trans hw), fun hpoll => (by cases hpoll),
        fun hbatch => hbatch.elim⟩
    | ownerPush f =>
      obtain ⟨_, _, hout⟩ := henabled
      have hplace := h.outside hout
      cases hexec
      refine ⟨fun _ => hplace, fun _ hw => h.written hout (hwoken.symm.trans hw),
        fun _ _ hw => h.written hout (hwoken.symm.trans hw), fun hpoll => ?_, fun hbatch => ?_⟩
      · cases hplace.symm.trans hpoll
      · change LoopUse.InBatch l.use.loop.place at hbatch
        rw [hplace] at hbatch
        exact hbatch.elim
    | ownerQuit =>
      cases hexec
      exact h.of_same rfl id id (Bool.or_false _) (Or.inl hwoken)

/-! ### Requests -/

/-- It holds before the first step. -/
theorem QuitKept.of_init (h : (loopThreadSystem τ).init l) : l.QuitKept := by
  obtain ⟨⟨_, _, _, _, _, _, hcaller, _⟩, _, _, hdestructor, hmade, hcompleted, _⟩ := h
  refine ⟨fun hm => ?_, fun hc => ?_, fun t ht => ?_, fun t ht => ?_⟩
  · cases hmade.symm.trans hm
  · cases hcompleted.symm.trans hc
  · cases (hcaller t).symm.trans ht
  · cases hdestructor.symm.trans ht

/-- It holds before the first step. -/
theorem FunctorsKept.of_init (h : (loopThreadSystem τ).init l) : l.FunctorsKept := by
  obtain ⟨⟨_, _, hpending, _, hplace, _⟩, _, _, _, _, _, hwoken⟩ := h
  have hno : PushedBy.ownerBeforeLoop ∉ l.use.loop.pendingFunctors := by simp [hpending]
  refine ⟨fun _ => hplace, fun _ hw => ?_, fun _ hmem => absurd hmem hno,
    fun _ hmem => absurd hmem hno, fun _ => hno⟩
  cases hwoken.symm.trans hw

/-- **Requests of the start.** If `loop()` begins before any `quit()`, and a poll that would
find a functor of the owner from before `loop()` comes after a wake-up by another thread,
then no request of the start is lost. -/
theorem requests_kept_at_start (h : ((loopThreadSystem τ).restrict Prompt).Reachable l) :
    l.RequestsKept := by
  have hkept : l.QuitKept ∧ l.FunctorsKept := by
    refine h.invariant (I := fun l => l.QuitKept ∧ l.FunctorsKept)
      (fun hinit => ⟨.of_init hinit, .of_init hinit⟩) ?_
    rintro l a m ⟨hquit, hfunctors⟩ ⟨henabled, hprompt⟩ hexec
    exact ⟨hquit.step hprompt hexec, hfunctors.step henabled hprompt hexec⟩
  obtain ⟨hquit, hfunctors⟩ := hkept
  refine ⟨fun hcompleted _ => hquit.quit (hquit.completed hcompleted), fun hjoin _ => ?_,
    fun hpoll hmem => hfunctors.unread (.inr (.inr hpoll)) hmem (hfunctors.polling hpoll hmem)⟩
  obtain ⟨t, ht, _⟩ := hjoin
  exact hquit.quit (hquit.destructor t ht)

/-- A loop that was just constructed in its own thread, known to one other thread. -/
def newThread : LoopThread Unit :=
  ⟨⟨⟨false, false, [], 0, .left, false, fun _ => .outside⟩, false, [], []⟩, false, false, none,
    false, false, false⟩

/-- Nothing has happened in it. -/
theorem newThread_init : (loopThreadSystem Unit).init newThread :=
  ⟨⟨rfl, rfl, rfl, rfl, rfl, rfl, fun _ => rfl, rfl, rfl, rfl⟩, rfl, rfl, rfl, rfl, rfl, rfl⟩

/-- The owner queues a functor, another thread pushes one as soon as it can, and destroys the
`EventLoopThread` during the first poll. -/
def promptStart : List (ThreadStep Unit) :=
  [.use (.ownerPush .ownerBeforeLoop), .use (.step .testCalling), .publish,
    .use (.step (.foreignPush () .others)), .use (.step (.foreignWakeup ())), .use .enter,
    .use (.step .enterPoll), .destroy (), .use (.step (.foreignWakeup ()))]

instance (l : LoopThread Unit) (a : ThreadStep Unit) :
    Decidable (((loopThreadSystem Unit).restrict Prompt).enabled l a) :=
  inferInstanceAs (Decidable (l.enabled a ∧ l.Prompt a))

/-- The other thread waits in `join`, and the loop will return from its poll and leave. -/
theorem requests_kept_at_start_promptStart :
    ∃ l, ((loopThreadSystem Unit).restrict Prompt).Reachable l ∧ l.Joining ∧
      l.quitCompleted = true ∧ l.use.loop.pendingFunctors = [.ownerBeforeLoop, .others] ∧
      l.RequestsKept := by
  have hcheck : (((loopThreadSystem Unit).restrict Prompt).replay newThread promptStart).any
      (fun l => decide (l.destructor = some () ∧ l.use.loop.caller () = .outside ∧
        l.quitCompleted = true ∧
        l.use.loop.pendingFunctors = [.ownerBeforeLoop, .others])) = true := by decide +kernel
  obtain ⟨l, hrun, hl⟩ := System.exists_run_of_replay hcheck
  obtain ⟨hdestructor, hcaller, hcompleted, hpending⟩ := of_decide_eq_true hl
  have hreach : ((loopThreadSystem Unit).restrict Prompt).Reachable l :=
    ⟨_, _, newThread_init, hrun⟩
  exact ⟨l, hreach, ⟨(), hdestructor, hcaller⟩, hcompleted, hpending,
    requests_kept_at_start hreach⟩

/-- `startLoop` returns and the `EventLoopThread` is destroyed before the new thread enters
`loop()`, which then handles the wake-up and polls again. -/
def destroyedAtStart : List (ThreadStep Unit) :=
  [.publish, .destroy (), .use (.step (.foreignWakeup ())), .use .enter, .use (.step .enterPoll),
    .use (.step (.pollReturns [.wakeup])), .use (.step .handleEvent), .use (.step .setCalling),
    .use (.step .swap), .use (.step .clearCalling), .use (.step .enterPoll)]

/-- The owner queues a functor and enters the loop. -/
def queuedAtStart : List (ThreadStep Unit) :=
  [.use (.ownerPush .ownerBeforeLoop), .use (.step .testCalling), .publish, .use .enter,
    .use (.step .enterPoll)]

/-- Both requests of the start can be lost: the destructor waits for a loop that polls, with
`quit_` false and nothing that would wake it, and a functor of the owner waits in a poll. -/
theorem requests_lost_at_start :
    (∃ l, (loopThreadSystem Unit).Reachable l ∧ l.quitCompleted = true ∧ ¬ l.Returned ∧
      l.Joining ∧ l.use.loop.place = .poll ∧ l.use.loop.quit = false ∧ l.use.loop.wakeupFd = 0) ∧
    ∃ l, (loopThreadSystem Unit).Reachable l ∧ l.use.loop.place = .poll ∧
      PushedBy.ownerBeforeLoop ∈ l.use.loop.pendingFunctors ∧ l.use.loop.wakeupFd = 0 := by
  constructor
  · have hcheck : ((loopThreadSystem Unit).replay newThread destroyedAtStart).any
        (fun l => decide (l.quitCompleted = true ∧ l.destructor = some () ∧
          l.use.loop.caller () = .outside ∧ l.use.loop.place = .poll ∧
          l.use.loop.quit = false ∧ l.use.loop.wakeupFd = 0)) = true := by decide +kernel
    obtain ⟨l, hrun, hl⟩ := System.exists_run_of_replay hcheck
    obtain ⟨hcompleted, hdestructor, hcaller, hplace, hquit, hfd⟩ := of_decide_eq_true hl
    refine ⟨l, ⟨_, _, newThread_init, hrun⟩, hcompleted, fun hreturned => ?_,
      ⟨(), hdestructor, hcaller⟩, hplace, hquit, hfd⟩
    cases hplace.symm.trans hreturned.2
  · have hcheck : ((loopThreadSystem Unit).replay newThread queuedAtStart).any
        (fun l => decide (l.use.loop.place = .poll ∧
          PushedBy.ownerBeforeLoop ∈ l.use.loop.pendingFunctors ∧ l.use.loop.wakeupFd = 0)) =
        true := by decide +kernel
    obtain ⟨l, hrun, hl⟩ := System.exists_run_of_replay hcheck
    exact ⟨l, ⟨_, _, newThread_init, hrun⟩, of_decide_eq_true hl⟩

end LoopThread

end Dalin.Net
