import Dalin.Net.EventLoopThreadPool

/-!
# The hand-over of a loop

A single `EventLoopThread` between the call of `startLoop` and its return. The
owner gets the loop of its own thread, never a null pointer, and as long as it
has not got it, one of the two threads can go on.
-/

set_option autoImplicit false

namespace Dalin.Net

open Monitors Transition

variable {k : ℕ} {s s' : HandOff}

/-- The hand-over to the owner of the thread of number `k`. -/
abbrev handOffSystem (k : ℕ) : System HandOff (Action Party HandOffCall) Empty :=
  handOff.system (MayCall k) none

/-- Only the owner waits, so the `notify` of the other thread finds it. -/
theorem handOff_attentive (k : ℕ) : State.Attentive handOff (MayCall k) handOff.guard := by
  refine ⟨fun _ _ h => h, fun c c' loop hfalse _ htrue => ?_⟩
  cases c with
  | threadFunc => cases hfalse
  | startLoop =>
    cases c' with
    | startLoop => cases hfalse.symm.trans htrue
    | threadFunc =>
      refine ⟨(), rfl, .inr ⟨rfl, fun t u c c' ht hu hc hc' => ?_⟩⟩
      cases t <;> cases u
      · rfl
      · cases hu
        cases hc'
      · cases ht
        cases hc
      · rfl

/-- What the calls of a hand-over leave behind. -/
structure LoopHandedOver (k : ℕ) (log : List (Entry Party HandOffCall (Option PoolLoop)))
    (loop : Option PoolLoop) : Prop where
  own : ∀ l ∈ loop, l = .inThread k
  given : (∃ e ∈ log, e.thread = .loopThread) → loop = some (.inThread k)
  result : ∀ e ∈ log, e.thread = .owner → e.result = some (.inThread k)

/-- Calls that act one at a time hand over the loop of the thread. -/
theorem loopHandedOver_of_run {log : List (Entry Party HandOffCall (Option PoolLoop))}
    {loop : Option PoolLoop} (hrun : (handOff.atomic Party).Run none log loop)
    (hmay : ∀ e ∈ log, MayCall k e.thread e.call) : LoopHandedOver k log loop := by
  refine hrun.history (I := fun log loop => (∀ e ∈ log, MayCall k e.thread e.call) →
    LoopHandedOver k log loop) (fun _ => ⟨by simp, by simp, by simp⟩)
    (fun {log loop e loop'} hI henabled hexec hmay => ?_) hmay
  have hwas := hI fun e he => hmay e (List.mem_append_left _ he)
  have hnow : handOff.body e.call loop = loop' := Except.ok.inj hexec
  have hcall := hmay e (List.mem_append_right _ (List.mem_singleton_self e))
  obtain ⟨t, call, r⟩ := e
  obtain ⟨hguard, hr⟩ := henabled
  cases t with
  | owner =>
    cases hcall
    cases hnow
    refine ⟨hwas.own, fun ⟨e, he, hparty⟩ => ?_, fun e he howner => ?_⟩
    · rcases List.mem_append.mp he with hold | hnew
      · exact hwas.given ⟨e, hold, hparty⟩
      · cases List.mem_singleton.mp hnew
        cases hparty
    · rcases List.mem_append.mp he with hold | hnew
      · exact hwas.result e hold howner
      · cases List.mem_singleton.mp hnew
        obtain ⟨l, hl⟩ := Option.isSome_iff_exists.mp hguard
        change r = loop at hr
        change r = _
        rw [hr, hl, hwas.own l hl]
  | loopThread =>
    cases hcall
    cases hnow
    refine ⟨fun l hl => (Option.mem_some_iff.mp hl).symm, fun _ => rfl, fun e he howner => ?_⟩
    rcases List.mem_append.mp he with hold | hnew
    · exact hwas.result e hold howner
    · cases List.mem_singleton.mp hnew
      cases howner

/-- A call has been made: it is in progress or has acted. -/
def Made (s : HandOff) (t : Party) : Prop :=
  (s.place t).pending ≠ none ∨ ∃ e ∈ s.log, e.thread = t

/-- A call that has been made is not forgotten. -/
theorem Made.step {t : Party} {a : Action Party HandOffCall} (h : Made s t)
    (hstep : State.Step handOff (MayCall k) s a s') : Made s' t := by
  rcases h with hpending | ⟨e, he, ht⟩
  · obtain ⟨c, hc⟩ := Option.ne_none_iff_exists'.mp hpending
    rcases hstep.pending_or_log hc with hnow | ⟨r, hr⟩
    · exact .inl (Option.ne_none_iff_exists'.mpr ⟨c, hnow⟩)
    · exact .inr ⟨_, hr, rfl⟩
  · exact .inr ⟨e, hstep.log_grows.subset he, ht⟩

/-- A thread of a pool whose owner has called `startLoop`. -/
structure Handing (k : ℕ) (t : EventLoopThread) : Prop where
  started : t.started = true
  reachable : (handOffSystem k).Reachable t.monitor
  owner : Made t.monitor .owner
  untouched : t.constructed = false → t.monitor.place .loopThread = .outside
  loopThread : t.constructed = true → Made t.monitor .loopThread

/-- A fresh `EventLoopThread` after the call of `startLoop`. -/
theorem Handing.startLoop (k : ℕ) :
    ∃ t, EventLoopThread.new.startLoop = .ok t ∧ Handing k t ∧
      t.monitor.place .owner ≠ .outside := by
  refine ⟨_, rfl, ⟨rfl, ?_, .inl ?_, fun _ => rfl, fun h => ?_⟩, ?_⟩
  · exact System.Reachable.snoc (a := .call .owner .startLoop)
      ⟨EventLoopThread.new.monitor, [], ⟨rfl, rfl, fun _ => rfl, rfl, rfl⟩, .nil⟩ rfl rfl
  · simp [State.move, Place.pending]
  · cases h
  · simp [State.move]

/-- The thread has constructed its loop. -/
theorem Handing.threadFunc {t : EventLoopThread} (h : Handing k t) (hnot : t.constructed = false) :
    Handing k (t.threadFunc k) := by
  have hplace := h.untouched hnot
  have henabled : (handOffSystem k).enabled t.monitor
      (.call .loopThread (.threadFunc (.inThread k))) := by
    simp [Monitor.system, State.enabled, hplace, MayCall]
  have hreach := h.reachable.snoc henabled rfl
  have hstep := State.step_of_exec henabled rfl
  refine ⟨h.started, hreach, h.owner.step hstep, fun hfalse => ?_, fun _ => .inl ?_⟩
  · cases hfalse
  · simp [EventLoopThread.threadFunc, State.move, Place.pending]

/-- An operation on the mutex or the condition. -/
theorem Handing.exec {t : EventLoopThread} {a : Action Party HandOffCall} (h : Handing k t)
    (henabled : t.monitor.enabled handOff (MayCall k) a) (ha : a.continues = true) :
    Handing k { t with monitor := t.monitor.exec handOff a } := by
  have hstep : State.Step handOff (MayCall k) t.monitor a (t.monitor.exec handOff a) :=
    State.step_of_exec (d := none) henabled rfl
  refine ⟨h.started, h.reachable.snoc (a := a) henabled rfl, h.owner.step hstep, fun hnot => ?_,
    fun hyes => (h.loopThread hyes).step hstep⟩
  have hplace := h.untouched hnot
  by_cases hthread : Party.loopThread = a.thread
  · rw [hthread] at hplace
    exact absurd hplace (hstep.not_outside ha)
  · rcases hstep.others _ hthread with heq | heq
    · exact heq.trans hplace
    · rw [hplace] at heq
      exact heq

/-- `startLoop` returns the loop of its own thread. -/
theorem Handing.returned {t : EventLoopThread} (h : Handing k t)
    (hreturned : t.monitor.place .owner = .outside) : t.returned = some (.inThread k) := by
  obtain ⟨-, hlinear⟩ := State.linear_of_reachable h.reachable
  have hcalled := State.called_of_reachable h.reachable
  have hover := loopHandedOver_of_run hlinear.atomic hcalled.log
  have hown := hlinear.own .owner
  rw [hreturned] at hown
  change _ = State.callsOf .owner t.monitor.returned ++ [] at hown
  rw [List.append_nil] at hown
  obtain ⟨e, he, hparty⟩ : ∃ e ∈ t.monitor.log, e.thread = .owner := by
    rcases h.owner with hpending | hmade
    · rw [hreturned] at hpending
      exact absurd rfl hpending
    · exact hmade
  have hne : State.callsOf .owner t.monitor.log ≠ [] :=
    List.ne_nil_of_mem (List.mem_filter.mpr ⟨he, by simp [hparty]⟩)
  have hlast := List.getLast_mem hne
  unfold EventLoopThread.returned
  rw [← hown, List.getLast?_eq_some_getLast hne]
  obtain ⟨hmem, hthread⟩ := List.mem_filter.mp hlast
  exact hover.result _ hmem (of_decide_eq_true hthread)

/-- As long as the owner waits in `startLoop`, the thread can construct its loop or one of the two
can go on with the mutex, not counting spurious wake-ups. -/
theorem Handing.exists_step {t : EventLoopThread} (h : Handing k t)
    (howner : t.monitor.place .owner ≠ .outside) : t.constructed = false ∨
      ∃ a, t.monitor.enabled handOff (MayCall k) a ∧ a.continues = true ∧
        (t.monitor.place a.thread).moving = true := by
  have hroused := (State.heard_of_reachable (handOff_attentive k) h.reachable).roused
  obtain ⟨hexcl, hlinear⟩ := State.linear_of_reachable h.reachable
  have hcalled := State.called_of_reachable h.reachable
  have hover := loopHandedOver_of_run hlinear.atomic hcalled.log
  rcases hroused.goes_on (MayCall k) hexcl with hstep | hrest
  · exact .inr hstep
  refine .inl (Bool.eq_false_iff.mpr fun hconstructed => ?_)
  obtain ⟨c, hc, hfalse⟩ := (hrest .owner).resolve_left howner
  cases hcalled.pending .owner c (by simp [hc, Place.pending])
  rcases h.loopThread hconstructed with hpending | hmade
  · -- A thread that comes to rest has returned or waits, and the new thread does not wait.
    rcases hrest .loopThread with hthread | ⟨c', hc', hfalse'⟩
    · exact hpending (by rw [hthread]; rfl)
    · cases hcalled.pending .loopThread c' (by simp [hc', Place.pending])
      cases hfalse'
  · simp [handOff, hover.given hmade] at hfalse

end Dalin.Net
