import Mathlib.Data.List.Infix

/-!
# Guarded transition systems

A program that reacts to its environment is a state, a guard saying which
actions the environment may offer next, and a function that carries an action
out. Carrying an action out may kill the program, which `Except.error` records.
This file states runs, reachable states, the invariant rule, the rule by which
one program simulates another, the rule that compares a property of all states of
a run with a condition on its steps, and a replay function that turns a concrete
list of actions into a run.
-/

set_option autoImplicit false

namespace Transition

/-- A program over states `σ` and actions `α` whose steps may stop it with an
error of type `ε`. -/
structure System (σ α ε : Type*) where
  /-- The states in which a run may begin. -/
  init : σ → Prop
  /-- The actions the environment may offer in a state. -/
  enabled : σ → α → Prop
  /-- The effect of an action, or the error that ends the program. -/
  exec : σ → α → Except ε σ

namespace System

variable {σ α ε : Type*} {S : System σ α ε}

/-- `S.Run s as t` says that the actions `as`, taken in order from `s`, are all
enabled and successful and lead to `t`. -/
inductive Run (S : System σ α ε) (s : σ) : List α → σ → Prop
  | nil : Run S s [] s
  | snoc {as : List α} {a : α} {t u : σ} : Run S s as t → S.enabled t a →
      S.exec t a = .ok u → Run S s (as ++ [a]) u

/-- A state in which some run from an initial state ends. -/
def Reachable (S : System σ α ε) (t : σ) : Prop := ∃ s as, S.init s ∧ S.Run s as t

/-- No enabled action stops the program in this state. -/
def Safe (S : System σ α ε) (s : σ) : Prop := ∀ a, S.enabled s a → ∃ t, S.exec s a = .ok t

/-- The same program under an environment that also respects `G`. -/
def restrict (S : System σ α ε) (G : σ → α → Prop) : System σ α ε :=
  { S with enabled := fun s a => S.enabled s a ∧ G s a }

/-- **Invariant rule.** A property that every step preserves holds at the end
of every run that starts with it. -/
theorem Run.invariant {s t : σ} {as : List α} {I : σ → Prop} (hrun : S.Run s as t) (hs : I s)
    (hstep : ∀ {t a u}, I t → S.enabled t a → S.exec t a = .ok u → I u) : I t := by
  induction hrun with
  | nil => exact hs
  | snoc _ henabled hexec ih => exact hstep ih henabled hexec

/-- The invariant rule for properties that also speak of the actions taken so far. -/
theorem Run.history {s t : σ} {as : List α} {I : List α → σ → Prop} (hrun : S.Run s as t)
    (hs : I [] s)
    (hstep : ∀ {as t a u}, I as t → S.enabled t a → S.exec t a = .ok u → I (as ++ [a]) u) :
    I as t := by
  induction hrun with
  | nil => exact hs
  | snoc _ henabled hexec ih => exact hstep ih henabled hexec

/-- A step from a reachable state leads to a reachable state. -/
theorem Reachable.snoc {t u : σ} {a : α} (h : S.Reachable t) (henabled : S.enabled t a)
    (hexec : S.exec t a = .ok u) : S.Reachable u := by
  obtain ⟨s, as, hs, hrun⟩ := h
  exact ⟨s, as ++ [a], hs, hrun.snoc henabled hexec⟩

/-- The invariant rule for reachable states. -/
theorem Reachable.invariant {t : σ} {I : σ → Prop} (h : S.Reachable t)
    (hinit : ∀ {s}, S.init s → I s)
    (hstep : ∀ {t a u}, I t → S.enabled t a → S.exec t a = .ok u → I u) : I t := by
  obtain ⟨s, as, hs, hrun⟩ := h
  exact hrun.invariant (hinit hs) hstep

/-- **Progress rule.** If every enabled step from a state with the invariant succeeds and keeps
it, then no reachable state has an enabled step that stops the program. -/
theorem Reachable.invariant_safe {t : σ} {I : σ → Prop} (h : S.Reachable t)
    (hinit : ∀ {s}, S.init s → I s)
    (hstep : ∀ {t a}, I t → S.enabled t a → ∃ u, S.exec t a = .ok u ∧ I u) : I t ∧ S.Safe t := by
  have hI : I t := by
    refine h.invariant hinit fun hI henabled hexec => ?_
    obtain ⟨u, hu, hIu⟩ := hstep hI henabled
    rw [hu] at hexec
    exact Except.ok.inj hexec ▸ hIu
  refine ⟨hI, fun a henabled => ?_⟩
  obtain ⟨u, hu, _⟩ := hstep hI henabled
  exact ⟨u, hu⟩

/-- A weaker condition on the environment allows all the runs of a stronger one. -/
theorem Reachable.mono {t : σ} {G G' : σ → α → Prop} (h : (S.restrict G).Reachable t)
    (hG : ∀ s a, G s a → G' s a) : (S.restrict G').Reachable t := by
  obtain ⟨s, as, hs, hrun⟩ := h
  refine ⟨s, as, hs, ?_⟩
  induction hrun with
  | nil => exact .nil
  | snoc _ henabled hexec ih => exact ih.snoc ⟨henabled.1, hG _ _ henabled.2⟩ hexec

/-- **Refinement rule.** If every step from a state with the invariant keeps it and acts on the
abstract view as `step` does, then a whole run acts on the view as its actions do in turn. -/
theorem Run.refines {τ : Type*} {s t : σ} {as : List α} {I : σ → Prop} {view : σ → τ}
    {step : τ → α → τ} (hrun : S.Run s as t) (hs : I s)
    (hstep : ∀ {t a u}, I t → S.enabled t a → S.exec t a = .ok u →
      I u ∧ view u = step (view t) a) :
    I t ∧ view t = as.foldl step (view s) := by
  induction hrun with
  | nil => exact ⟨hs, rfl⟩
  | snoc _ henabled hexec ih =>
    obtain ⟨hI, hview⟩ := hstep ih.1 henabled hexec
    refine ⟨hI, ?_⟩
    rw [hview, ih.2, List.foldl_append]
    rfl

/-- `t'` is `t`, or one step away from it. -/
def Follows (S : System σ α ε) (t t' : σ) : Prop :=
  t' = t ∨ ∃ a, S.enabled t a ∧ S.exec t a = .ok t'

/-- **Simulation rule.** If the other program can always follow a step so that the states stay
related, then every reachable state is related to a reachable one. -/
theorem Reachable.simulates {τ β δ : Type*} {T : System τ β δ} {R : σ → τ → Prop} {s : σ}
    (h : S.Reachable s) (hinit : ∀ {s}, S.init s → ∃ t, T.init t ∧ R s t)
    (hstep : ∀ {s t a s'}, S.Reachable s → R s t → S.enabled s a → S.exec s a = .ok s' →
      ∃ t', T.Follows t t' ∧ R s' t') : ∃ t, T.Reachable t ∧ R s t := by
  obtain ⟨s₀, as, hs₀, hrun⟩ := h
  induction hrun with
  | nil =>
    obtain ⟨t, ht, hR⟩ := hinit hs₀
    exact ⟨t, ⟨t, [], ht, .nil⟩, hR⟩
  | @snoc as a s s' hrun henabled hexec ih =>
    obtain ⟨t, ht, hR⟩ := ih
    obtain ⟨t', hfollows, hR'⟩ := hstep ⟨s₀, as, hs₀, hrun⟩ hR henabled hexec
    refine ⟨t', ?_, hR'⟩
    rcases hfollows with rfl | ⟨b, hb, hexec'⟩
    · exact ht
    · exact ht.snoc hb hexec'

/-- Carrying actions out is deterministic, so a run's last state is fixed by
its actions. -/
theorem Run.unique {s t u : σ} {as : List α} (ht : S.Run s as t) (hu : S.Run s as u) : t = u := by
  induction ht generalizing u with
  | nil =>
    generalize hnil : ([] : List α) = as at hu
    cases hu with
    | nil => rfl
    | snoc => simp at hnil
  | @snoc as a t v _ _ hexec ih =>
    generalize hsnoc : as ++ [a] = bs at hu
    cases hu with
    | nil => simp at hsnoc
    | snoc hrun _ hexec' =>
      obtain ⟨rfl, rfl⟩ := List.append_singleton_inj.mp hsnoc
      have := ih hrun
      subst this
      rw [hexec] at hexec'
      exact Except.ok.inj hexec'

/-- `P` holds in every state the run of `as` from `s` passes through, its two
ends included. -/
def Always (S : System σ α ε) (P : σ → Prop) (s : σ) (as : List α) : Prop :=
  ∀ bs t, bs <+: as → S.Run s bs t → P t

/-- A run passes through the states of its beginning. -/
theorem Always.of_append {s : σ} {as bs : List α} {P : σ → Prop} (h : S.Always P s (as ++ bs)) :
    S.Always P s as :=
  fun cs t hcs hrun => h cs t (hcs.trans (List.prefix_append as bs)) hrun

/-- Every step of the run of `as` from `s` is taken in a state that meets `G`. -/
def Throughout (S : System σ α ε) (G : σ → α → Prop) (s : σ) (as : List α) : Prop :=
  ∀ bs a t, bs ++ [a] <+: as → S.Run s bs t → G t a

/-- **Exact condition rule.** Suppose that `I` gives `P` and is kept by the steps that meet `G`,
and that a step meets `G` if `P` still holds after it. Then a run keeps `P` throughout exactly if
all its steps meet `G`. -/
theorem Run.always_iff_throughout_of_keeps {s t : σ} {as : List α} {I P : σ → Prop}
    {G : σ → α → Prop} (hrun : S.Run s as t) (hI : I s) (hP : ∀ {t}, I t → P t)
    (hkeep : ∀ {t a u}, I t → S.enabled t a → S.exec t a = .ok u → G t a → I u)
    (hneed : ∀ {t a u}, I t → S.enabled t a → S.exec t a = .ok u → P u → G t a) :
    S.Always P s as ↔ S.Throughout G s as := by
  suffices hboth : (S.Always P s as ↔ S.Throughout G s as) ∧ (S.Throughout G s as → I t) from
    hboth.1
  induction hrun with
  | nil =>
    refine ⟨⟨fun _ bs a t hprefix => ?_, fun _ bs t hprefix hbs => ?_⟩, fun _ => hI⟩
    · simpa using hprefix.length_le
    · obtain rfl := List.prefix_nil.mp hprefix
      rw [← Run.nil.unique hbs]
      exact hP hI
  | @snoc as a t u hrun henabled hexec ih =>
    obtain ⟨ih, hkept⟩ := ih
    have hlast : S.Throughout G s (as ++ [a]) → I u := fun hguard =>
      hkeep (hkept fun bs b v hshort hbs =>
        hguard bs b v (hshort.trans (List.prefix_append as [a])) hbs) henabled hexec
        (hguard as a t List.prefix_rfl hrun)
    refine ⟨⟨fun halways => ?_, fun hguard => ?_⟩, hlast⟩
    · have hprev : S.Throughout G s as := ih.mp fun bs v hbs hv =>
        halways bs v (hbs.trans (List.prefix_append as [a])) hv
      intro bs b v hprefix hbs
      rcases List.prefix_concat_iff.mp hprefix with heq | hshort
      · obtain ⟨rfl, rfl⟩ := List.append_singleton_inj.mp heq
        have hv := hrun.unique hbs
        subst hv
        exact hneed (hkept hprev) henabled hexec
          (halways _ u List.prefix_rfl (hrun.snoc henabled hexec))
      · exact hprev bs b v hshort hbs
    · have hprev : S.Always P s as := ih.mpr fun bs b v hbs hv =>
        hguard bs b v (hbs.trans (List.prefix_append as [a])) hv
      intro bs v hprefix hbs
      rcases List.prefix_concat_iff.mp hprefix with rfl | hshort
      · have hv := (hrun.snoc henabled hexec).unique hbs
        subst hv
        exact hP (hlast hguard)
      · exact hprev bs v hshort hbs

/-- The exact condition rule with an invariant that every step keeps: under it, a step keeps `P`
exactly if it meets `G`. -/
theorem Run.always_iff_throughout {s t : σ} {as : List α} {I P : σ → Prop} {G : σ → α → Prop}
    (hrun : S.Run s as t) (hI : I s) (hP : P s)
    (hinv : ∀ {t a u}, I t → S.enabled t a → S.exec t a = .ok u → I u)
    (hstep : ∀ {t a u}, I t → P t → S.enabled t a → S.exec t a = .ok u → (P u ↔ G t a)) :
    S.Always P s as ↔ S.Throughout G s as :=
  hrun.always_iff_throughout_of_keeps (I := fun t => I t ∧ P t) ⟨hI, hP⟩ And.right
    (fun h henabled hexec hG =>
      ⟨hinv h.1 henabled hexec, (hstep h.1 h.2 henabled hexec).mpr hG⟩)
    fun h henabled hexec hPu => (hstep h.1 h.2 henabled hexec).mp hPu

/-- A run under an environment that respects `G` is a run all of whose steps meet `G`. -/
theorem Run.throughout_of_restrict {s t : σ} {as : List α} {G : σ → α → Prop}
    (hrun : (S.restrict G).Run s as t) : S.Run s as t ∧ S.Throughout G s as := by
  induction hrun with
  | nil =>
    refine ⟨.nil, fun bs a t hprefix => ?_⟩
    simpa using hprefix.length_le
  | @snoc as a t u _ henabled hexec ih =>
    obtain ⟨hrun, hthroughout⟩ := ih
    refine ⟨hrun.snoc henabled.1 hexec, fun bs b v hprefix hbs => ?_⟩
    rcases List.prefix_concat_iff.mp hprefix with heq | hshort
    · obtain ⟨rfl, rfl⟩ := List.append_singleton_inj.mp heq
      exact hrun.unique hbs ▸ henabled.2
    · exact hthroughout bs b v hshort hbs

/-! ### Replaying a list of actions -/

/-- Carry the actions out in order, checking before each that it is enabled. -/
def replay (S : System σ α ε) [∀ s a, Decidable (S.enabled s a)] (s : σ) : List α → Option σ
  | [] => some s
  | a :: as =>
    if S.enabled s a then
      match S.exec s a with
      | .ok t => replay S t as
      | .error _ => none
    else none

/-- A run can be extended at its front. -/
theorem Run.cons {s t u : σ} {a : α} {as : List α} (henabled : S.enabled s a)
    (hexec : S.exec s a = .ok t) (hrun : S.Run t as u) : S.Run s (a :: as) u := by
  induction hrun with
  | nil => exact Run.nil.snoc henabled hexec
  | snoc _ henabled' hexec' ih => exact ih.snoc henabled' hexec'

/-- The first step of a run. -/
theorem Run.uncons {s u : σ} {a : α} {as : List α} (hrun : S.Run s (a :: as) u) :
    ∃ t, S.enabled s a ∧ S.exec s a = .ok t ∧ S.Run t as u := by
  generalize hcons : a :: as = bs at hrun
  induction hrun generalizing as with
  | nil => cases hcons
  | @snoc bs b t u hrun henabled hexec ih =>
    cases bs with
    | nil =>
      obtain ⟨rfl, rfl⟩ := List.cons_eq_cons.mp hcons
      cases hrun.unique .nil
      exact ⟨u, henabled, hexec, .nil⟩
    | cons c bs =>
      obtain ⟨rfl, rfl⟩ := List.cons_eq_cons.mp hcons
      obtain ⟨t', henabled', hexec', hrun'⟩ := ih rfl
      exact ⟨t', henabled', hexec', hrun'.snoc henabled hexec⟩

/-- A run passes through a state between any two parts of its actions. -/
theorem Run.split {s u : σ} {as bs : List α} (hrun : S.Run s (as ++ bs) u) :
    ∃ t, S.Run s as t ∧ S.Run t bs u := by
  induction as generalizing s with
  | nil => exact ⟨s, .nil, hrun⟩
  | cons a as ih =>
    obtain ⟨t, henabled, hexec, hrest⟩ := hrun.uncons
    obtain ⟨v, hfirst, hlast⟩ := ih hrest
    exact ⟨v, .cons henabled hexec hfirst, hlast⟩

/-- A successful replay is a run. -/
theorem run_of_replay [∀ s a, Decidable (S.enabled s a)] {s t : σ} {as : List α}
    (h : S.replay s as = some t) : S.Run s as t := by
  induction as generalizing s with
  | nil =>
    cases h
    exact .nil
  | cons a as ih =>
    unfold replay at h
    split at h
    · rename_i henabled
      split at h
      · rename_i t' hexec
        exact Run.cons henabled hexec (ih h)
      · cases h
    · cases h

/-- A replay that ends in a state passing a check gives a run to such a state. -/
theorem exists_run_of_replay [∀ s a, Decidable (S.enabled s a)] {s : σ} {as : List α}
    {check : σ → Bool} (h : (S.replay s as).any check = true) :
    ∃ t, S.Run s as t ∧ check t = true := by
  cases ht : S.replay s as with
  | none => simp [ht] at h
  | some t => exact ⟨t, run_of_replay ht, by simpa [ht] using h⟩

/-- A property that passes a check after every replay of a first part of the actions holds
throughout the run. -/
theorem always_of_replay [∀ s a, Decidable (S.enabled s a)] {s : σ} {as : List α}
    {check : σ → Bool} (h : (as.inits.all fun bs => (S.replay s bs).any check) = true) :
    S.Always (fun t => check t = true) s as := by
  intro bs t hprefix hrun
  have hbs := List.all_eq_true.mp h bs ((List.mem_inits bs as).mpr hprefix)
  obtain ⟨t', hrun', ht'⟩ := exists_run_of_replay hbs
  exact hrun.unique hrun' ▸ ht'

end System

/-- An outcome that passes a check is a success. -/
theorem exists_ok_of_any {ε τ : Type*} {x : Except ε τ} {check : τ → Bool}
    (h : x.toOption.any check = true) : ∃ t, x = .ok t ∧ check t = true := by
  cases x with
  | error e => cases h
  | ok t => exact ⟨t, rfl, h⟩

/-- Errors can be compared even if results cannot. -/
instance decidableEqError {ε τ : Type*} [DecidableEq ε] (x : Except ε τ) (e : ε) :
    Decidable (x = .error e) :=
  match x with
  | .ok _ => isFalse fun h => by cases h
  | .error e' => decidable_of_iff (e' = e) ⟨congrArg _, Except.error.inj⟩

end Transition
