import Dalin.Net.SocketRuns
import Mathlib.Algebra.Group.Nat.Defs

/-!
# The delay of retries

After each failed attempt `retry` waits twice as long as before, up to half a
minute. The delay is kept in a variable of the connector, the wait is made by a
timer of the loop, and a call of `start` or `restart` begins anew. This file adds a
clock to the runs of a connector and shows that the attempts keep the distances
that the delays promise, whatever fails and however late the loop is.
-/

set_option autoImplicit false

namespace Dalin.Net

open Transition Connector

/-- The wait after the attempt of number `i`: half a second, doubled `i` times, up to the bound. -/
def backoffMs (i : ℕ) : ℕ := min (kInitRetryDelayMs * 2 ^ i) kMaxRetryDelayMs

/-- The first delay respects the bound. -/
theorem initDelay_le : kInitRetryDelayMs ≤ kMaxRetryDelayMs := by decide

/-- The wait after the next attempt. -/
theorem backoffMs_succ (i : ℕ) : backoffMs (i + 1) = min (backoffMs i * 2) kMaxRetryDelayMs := by
  unfold backoffMs
  rw [Nat.pow_succ, ← Nat.mul_assoc]
  omega

/-- Attempts at these times keep their distances. -/
def Paced (attempts : List ℕ) : Prop :=
  ∀ i x y, attempts[i]? = some x → attempts[i + 1]? = some y → x + backoffMs i ≤ y

/-- One more attempt. -/
theorem Paced.snoc {attempts : List ℕ} {now : ℕ} (h : Paced attempts)
    (hlast : ∀ i x, attempts.length = i + 1 → attempts[i]? = some x → x + backoffMs i ≤ now) :
    Paced (attempts ++ [now]) := by
  intro i x y hx hy
  obtain ⟨hlt, -⟩ := List.getElem?_eq_some_iff.mp hy
  rw [List.length_append, List.length_singleton] at hlt
  rw [List.getElem?_append_left (by omega)] at hx
  by_cases hi : i + 1 < attempts.length
  · rw [List.getElem?_append_left hi] at hy
    exact h i x y hx hy
  · have hlength : attempts.length = i + 1 := by omega
    rw [List.getElem?_append_right (by omega), hlength, Nat.sub_self] at hy
    cases hy
    exact hlast i x hlength hx

/-- A connector, a clock that does not go back, and what the clock said. -/
structure TimedConnector where
  use : ConnectorUse
  /-- The clock, in milliseconds. -/
  now : ℕ
  /-- When each retry timer expires. -/
  expiration : ℕ → ℕ
  /-- The times of the calls of `::connect` since the last `start` or `restart`. -/
  attempts : List ℕ

/-- Time passes, or the user or the loop takes a step. -/
inductive TimedConnectorStep
  | wait (ms : ℕ)
  | step (a : ConnectorStep)

/-- The user asks for a connection. -/
def ConnectorStep.asks : ConnectorStep → Bool
  | start _ _ | restart _ _ => true
  | _ => false

/-- `retryDaleyMs_` when a step calls `runAfter`. -/
def ConnectorStep.delayMs (c : Connector) : ConnectorStep → ℕ
  | restart _ _ => kInitRetryDelayMs
  | _ => c.retryDelayMs

namespace TimedConnector

/-- The timers that `poll` finds have expired. -/
def MayExpire (t : TimedConnector) : ConnectorStep → Prop
  | .poll expired _ => ∀ timer ∈ expired, t.expiration timer ≤ t.now
  | _ => True

instance (t : TimedConnector) (a : ConnectorStep) : Decidable (t.MayExpire a) := by
  unfold MayExpire
  apply @ConnectorStep.casesOn _ a <;> intros <;> infer_instance

/-- Which steps may come next; `start` is called only when nothing is left of the last attempt. -/
def enabled (t : TimedConnector) : TimedConnectorStep → Prop
  | .wait _ => True
  | .step a => (t.use.enabled a ∧ t.use.StartsQuiet a) ∧ t.MayExpire a

instance (t : TimedConnector) (a : TimedConnectorStep) : Decidable (t.enabled a) := by
  unfold enabled
  apply @TimedConnectorStep.casesOn _ a <;> intros <;> infer_instance

/-- The expiration of the timers after a step. A new one expires after the delay, counted from
now. -/
def expirationAfter (t : TimedConnector) (c' : Connector) (delayMs : ℕ) : ℕ → ℕ :=
  if t.use.connector.numTimers < c'.numTimers then
    Function.update t.expiration t.use.connector.numTimers (t.now + delayMs)
  else t.expiration

/-- The effect of a step. -/
def exec (t : TimedConnector) : TimedConnectorStep → Except Failure TimedConnector
  | .wait ms => .ok { t with now := t.now + ms }
  | .step a => do
    let use ← t.use.exec a
    return {
      use
      now := t.now
      expiration := t.expirationAfter use.connector (a.delayMs t.use.connector)
      attempts := (if a.asks then [] else t.attempts) ++
        if t.use.connector.attempts < use.connector.attempts then [t.now] else [] }

end TimedConnector

/-- All runs of a connector with a clock. -/
def timedConnectorSystem : System TimedConnector TimedConnectorStep Failure where
  init t := t.use = ⟨.new, .nothing⟩ ∧ t.attempts = []
  enabled := TimedConnector.enabled
  exec := TimedConnector.exec

instance (t : TimedConnector) (a : TimedConnectorStep) :
    Decidable (timedConnectorSystem.enabled t a) := inferInstanceAs (Decidable (t.enabled a))

/-! ### What a step does to the timers -/

/-- The timers and attempts before and after a step that asks for a connection or not, and in
which `runAfter` finds this delay. -/
structure RetryProgress (c c' : Connector) (asks : Bool) (delayMs : ℕ) : Prop where
  timers : c'.numTimers = c.numTimers ∧ c'.retryDelayMs = delayMs ∨
    c'.numTimers = c.numTimers + 1 ∧ c'.retryDelayMs = min (delayMs * 2) kMaxRetryDelayMs
  /-- An attempt is asked for, or it is made by an expired timer. -/
  attempts : c'.attempts = c.attempts ∧ asks = false ∨
    c'.attempts = c.attempts + 1 ∧ (asks = true ∨ c.phase.expired ≠ [])
  /-- No timer outlasts an attempt. -/
  due : ∀ timer ∈ c'.due, timer ∈ c.due ∧ c'.attempts = c.attempts ∨
    timer = c.numTimers ∧ c'.numTimers = c.numTimers + 1
  expired : ∀ timer ∈ c'.phase.expired, timer ∈ c.phase.expired

namespace RetryProgress

variable {c c' : Connector} {errno : Errno} {sockfd : ℕ}

/-- A step that has nothing to do with timers. -/
theorem of_same (hnum : c'.numTimers = c.numTimers) (hdelay : c'.retryDelayMs = c.retryDelayMs)
    (hattempts : c'.attempts = c.attempts) (hdue : ∀ timer ∈ c'.due, timer ∈ c.due)
    (hexpired : ∀ timer ∈ c'.phase.expired, timer ∈ c.phase.expired) :
    RetryProgress c c' false c.retryDelayMs :=
  ⟨.inl ⟨hnum, hdelay⟩, .inl ⟨hattempts, rfl⟩,
    fun timer htimer => .inl ⟨hdue timer htimer, hattempts⟩, hexpired⟩

/-- What a failed attempt does to the timers. -/
theorem retry_timers (c : Connector) (sockfd : ℕ) :
    ((c.retry sockfd).numTimers = c.numTimers ∧ (c.retry sockfd).retryDelayMs = c.retryDelayMs ∧
        (c.retry sockfd).due = c.due ∨
      (c.retry sockfd).numTimers = c.numTimers + 1 ∧
        (c.retry sockfd).retryDelayMs = min (c.retryDelayMs * 2) kMaxRetryDelayMs ∧
        (c.retry sockfd).due = c.due ++ [c.numTimers]) ∧
      (c.retry sockfd).attempts = c.attempts ∧ (c.retry sockfd).phase = c.phase := by
  unfold Connector.retry
  by_cases hconnects : c.connects = true
  · rw [if_pos hconnects]
    refine ⟨.inr ⟨rfl, rfl, ?_⟩, rfl, rfl⟩
    exact (List.append_assoc ..).symm
  · rw [if_neg hconnects]
    exact ⟨.inl ⟨rfl, rfl, rfl⟩, rfl, rfl⟩

/-- A call of `::connect` while no timer will run, in a connector `c₀` that a step has come to
from `c`. -/
theorem of_attempted (c₀ : Connector) {asks : Bool} (hdue : c₀.due = [])
    (hnum : c₀.numTimers = c.numTimers) (hattempts : c₀.attempts = c.attempts)
    (hmade : asks = true ∨ c.phase.expired ≠ []) :
    RetryProgress c (c₀.attempted errno sockfd) asks c₀.retryDelayMs := by
  have hexpired : c₀.phase.expired = [] := (List.append_eq_nil_iff.mp hdue).1
  unfold Connector.attempted
  cases errno.branch with
  | connecting | close =>
    refine ⟨.inl ⟨hnum, rfl⟩, .inr ⟨congrArg (· + 1) hattempts, hmade⟩, fun timer htimer => ?_,
      fun timer htimer => ?_⟩
    · change timer ∈ c₀.due at htimer
      rw [hdue] at htimer
      cases htimer
    · change timer ∈ c₀.phase.expired at htimer
      rw [hexpired] at htimer
      cases htimer
  | retry =>
    obtain ⟨htimers, hsame, hphase⟩ := retry_timers
      { c₀ with sockets := sockfd :: c₀.sockets, attempts := c₀.attempts + 1 } sockfd
    change _ ∧ _ ∧ _ = c₀.due ∨ _ ∧ _ ∧ _ = c₀.due ++ [c₀.numTimers] at htimers
    rw [hdue] at htimers
    refine ⟨?_, .inr ⟨hsame.trans (congrArg (· + 1) hattempts), hmade⟩, fun timer htimer => ?_,
      fun timer htimer => ?_⟩
    · rcases htimers with ⟨hsame, hdelay, -⟩ | ⟨hmore, hdelay, -⟩
      · exact .inl ⟨hsame.trans hnum, hdelay⟩
      · exact .inr ⟨hmore.trans (congrArg (· + 1) hnum), hdelay⟩
    · rcases htimers with ⟨-, -, hnone⟩ | ⟨hmore, -, hone⟩
      · rw [hnone] at htimer
        cases htimer
      · rw [hone] at htimer
        exact .inr ⟨(List.mem_singleton.mp htimer).trans hnum, hmore.trans (congrArg (· + 1) hnum)⟩
    · rw [hphase] at htimer
      change timer ∈ c₀.phase.expired at htimer
      rw [hexpired] at htimer
      cases htimer

/-- The handler of the connector's channel makes no attempt, and a timer if the attempt under way
has failed. -/
theorem of_handled {handed : Option ℕ} {success : Bool} (hphase : c.phase.expired = [])
    (hhandled : Handled c sockfd success (c', handed)) :
    RetryProgress c c'.handlerDone false c.retryDelayMs := by
  have hdue : c.due = c.timers := by
    unfold Connector.due
    rw [hphase]
    rfl
  have hquiet (hdone : c'.timers = c.timers) (timer : ℕ) (htimer : timer ∈ c'.handlerDone.due) :
      timer ∈ c.due := by
    change timer ∈ c'.timers at htimer
    rwa [hdue, ← hdone]
  have hnone (timer : ℕ) (htimer : timer ∈ c'.handlerDone.phase.expired) :
      timer ∈ c.phase.expired := by
    cases htimer
  cases hhandled with
  | untouched | connected | stopped => exact .of_same rfl rfl rfl (hquiet rfl) hnone
  | failed =>
    obtain ⟨htimers, hattempts, hphase'⟩ := retry_timers (c.detached sockfd) sockfd
    have hgone : ((c.detached sockfd).retry sockfd).handlerDone.due =
        ((c.detached sockfd).retry sockfd).due := by
      change _ = LoopPhase.expired _ ++ _
      rw [hphase']
      change _ = c.phase.expired ++ _
      rw [hphase]
      rfl
    rcases htimers with ⟨hsame, hdelay, hold⟩ | ⟨hmore, hdelay, hnew⟩
    · refine .of_same hsame hdelay hattempts (fun timer htimer => ?_) hnone
      rw [hgone, hold] at htimer
      exact htimer
    · refine ⟨.inr ⟨hmore, hdelay⟩, .inl ⟨hattempts, rfl⟩, fun timer htimer => ?_, hnone⟩
      rw [hgone, hnew] at htimer
      rcases List.mem_append.mp htimer with hold | hlast
      · exact .inl ⟨hold, hattempts⟩
      · exact .inr ⟨List.mem_singleton.mp hlast, hmore⟩

end RetryProgress

/-- Every step other than a poll. -/
theorem ConnectorUse.Orderly.progress {u v : ConnectorUse} {a : ConnectorStep} (h : u.Orderly)
    (henabled : u.enabled a) (hquiet : u.StartsQuiet a) (hexec : u.exec a = .ok v)
    (hpoll : ∀ expired active, a ≠ .poll expired active) :
    RetryProgress u.connector v.connector a.asks (a.delayMs u.connector) := by
  cases a with
  | poll expired active => exact absurd rfl (hpoll expired active)
  | start errno sockfd =>
    obtain ⟨c, hok, hv⟩ := bind_eq_ok.mp hexec
    cases hv
    obtain ⟨-, -, rfl⟩ := startInLoop_eq_ok.mp hok
    exact .of_attempted { u.connector with connects := true } hquiet.2.1 rfl rfl (.inl rfl)
  | restart errno sockfd =>
    obtain ⟨c, hok, hv⟩ := bind_eq_ok.mp hexec
    cases hv
    obtain ⟨-, -, rfl⟩ := startInLoop_eq_ok.mp hok
    have hstate := h.handed (by simp [henabled.1])
    have hdue : u.connector.due = [] := by
      by_contra hne
      cases hstate.symm.trans (h.single.waiting hne)
    exact .of_attempted { u.connector.setState .kDisconnected with
      retryDelayMs := kInitRetryDelayMs
      connects := true } hdue rfl rfl (.inl rfl)
  | runTimer errno sockfd =>
    obtain ⟨-, -, timer, active, hphase, htimers⟩ := h.single.of_expired h.coherent henabled.1
    obtain ⟨c, hok, hv⟩ := bind_eq_ok.mp hexec
    cases hv
    unfold Connector.runTimer at hok
    rw [hphase] at hok
    obtain ⟨-, -, rfl⟩ := startInLoop_eq_ok.mp hok
    by_cases hconnects : u.connector.connects = true
    · rw [if_pos hconnects]
      exact .of_attempted { u.connector with phase := .timers [] active } htimers rfl rfl
        (.inr henabled.1)
    · rw [if_neg hconnects]
      refine .of_same rfl rfl rfl (fun timer' htimer => ?_) fun timer' htimer => ?_
      · change timer' ∈ u.connector.timers at htimer
        rw [htimers] at htimer
        cases htimer
      · cases htimer
  | handleEvent revents soError selfConnect =>
    have hphase : u.connector.phase = .channels (.connector :: _) := henabled
    obtain ⟨fd, ⟨c, handed⟩, -, -, -, hok, hhandled⟩ :=
      h.coherent.exists_handled (by rw [hphase]; exact List.mem_cons_self) revents soError
        selfConnect
    obtain ⟨⟨c', handed'⟩, hok', hv⟩ := bind_eq_ok.mp hexec
    cases hok.symm.trans hok'
    cases hv
    exact .of_handled (by rw [hphase]; rfl) hhandled
  | stop =>
    obtain ⟨timers, hsublist, heq⟩ := cancel_eq { u.connector with connects := false }
    cases hexec
    have hstop : u.connector.stop = { u.connector with connects := false, timers := timers } := heq
    change RetryProgress u.connector u.connector.stop false u.connector.retryDelayMs
    rw [hstop]
    exact .of_same rfl rfl rfl (fun timer htimer => (hsublist.append_left _).subset htimer)
      fun _ => id
  | closeHanded sockfd =>
    cases hexec
    exact .of_same rfl rfl rfl (fun _ => id) fun _ => id
  | timersDone | swap | resetChannel | iterationDone =>
    cases hexec
    have hphase : u.connector.phase = _ := henabled
    refine .of_same rfl rfl rfl (fun timer htimer => ?_) fun timer htimer => ?_
    · exact List.mem_append_right _ htimer
    · cases htimer

/-! ### The invariant -/

namespace TimedConnector

/-- The attempts keep their distances, and so will the one that waits for a retry timer. -/
structure BacksOff (t : TimedConnector) : Prop where
  orderly : t.use.Orderly
  known : ∀ timer ∈ t.use.connector.due, timer < t.use.connector.numTimers
  expired : ∀ timer ∈ t.use.connector.phase.expired, t.expiration timer ≤ t.now
  past : ∀ x ∈ t.attempts, x ≤ t.now
  delay : kInitRetryDelayMs ≤ t.use.connector.retryDelayMs ∧
    t.use.connector.retryDelayMs ≤ kMaxRetryDelayMs
  paced : Paced t.attempts
  /-- The delay has been doubled after every attempt but perhaps the last one. -/
  grown : ∀ i, t.attempts.length = i + 1 → backoffMs i ≤ t.use.connector.retryDelayMs
  waiting : ∀ timer ∈ t.use.connector.due, ∀ i x, t.attempts.length = i + 1 →
    t.attempts[i]? = some x → x + backoffMs i ≤ t.expiration timer ∧
      backoffMs (i + 1) ≤ t.use.connector.retryDelayMs

variable {t t' : TimedConnector}

/-- The initial state. -/
theorem BacksOff.of_init (h : timedConnectorSystem.init t) : t.BacksOff := by
  obtain ⟨use, now, expiration, attempts⟩ := t
  obtain ⟨rfl, rfl⟩ := h
  refine ⟨.of_init rfl, ?_, ?_, ?_, ?_, ?_, ?_, ?_⟩
  · intro timer htimer
    cases htimer
  · intro timer htimer
    cases htimer
  · intro x hx
    cases hx
  · exact ⟨le_rfl, initDelay_le⟩
  · intro i x y hx
    cases hx
  · intro i hlength
    cases hlength
  · intro timer htimer
    cases htimer

/-- Time passes. -/
theorem BacksOff.wait (h : t.BacksOff) (ms : ℕ) :
    BacksOff { t with now := t.now + ms } where
  orderly := h.orderly
  known := h.known
  expired timer htimer := Nat.le_add_right_of_le (h.expired timer htimer)
  past x hx := Nat.le_add_right_of_le (h.past x hx)
  delay := h.delay
  paced := h.paced
  grown := h.grown
  waiting := h.waiting

/-- A poll takes out timers that have expired. -/
theorem BacksOff.poll {expired : List ℕ} {active : List ChannelOwner} {v : ConnectorUse}
    (h : t.BacksOff) (hfound : t.use.connector.MayFind expired active)
    (hclock : ∀ timer ∈ expired, t.expiration timer ≤ t.now)
    (hv : v.connector = t.use.connector.poll expired active) (horderly : v.Orderly) :
    BacksOff { t with use := v } := by
  obtain ⟨hphase, ⟨-, hmem⟩, -⟩ := hfound
  have hdue : ∀ timer ∈ v.connector.due, timer ∈ t.use.connector.due := by
    intro timer htimer
    rw [hv] at htimer
    refine List.mem_append_right _ ?_
    rcases List.mem_append.mp htimer with hnow | hlater
    · exact hmem timer hnow
    · exact List.mem_of_mem_filter hlater
  have hdelay : v.connector.retryDelayMs = t.use.connector.retryDelayMs := by
    rw [hv]
    rfl
  have hnum : v.connector.numTimers = t.use.connector.numTimers := by
    rw [hv]
    rfl
  refine ⟨horderly, fun timer htimer => ?_, fun timer htimer => ?_, h.past, ?_, h.paced,
    fun i hlength => ?_, fun timer htimer i x hlength hx => ?_⟩
  · change timer < v.connector.numTimers
    rw [hnum]
    exact h.known timer (hdue timer htimer)
  · change timer ∈ v.connector.phase.expired at htimer
    rw [hv] at htimer
    exact hclock timer htimer
  · change _ ≤ v.connector.retryDelayMs ∧ v.connector.retryDelayMs ≤ _
    rw [hdelay]
    exact h.delay
  · change _ ≤ v.connector.retryDelayMs
    rw [hdelay]
    exact h.grown i hlength
  · change _ ∧ _ ≤ v.connector.retryDelayMs
    rw [hdelay]
    exact h.waiting timer (hdue timer htimer) i x hlength hx

/-- A step that may make a retry timer, with the attempts after it. -/
theorem BacksOff.of_attempts {v : ConnectorUse} {asks : Bool} {delayMs : ℕ} {attempts : List ℕ}
    (h : t.BacksOff) (horderly : v.Orderly)
    (hprogress : RetryProgress t.use.connector v.connector asks delayMs)
    (hdelay : kInitRetryDelayMs ≤ delayMs ∧ delayMs ≤ kMaxRetryDelayMs)
    (hpast : ∀ x ∈ attempts, x ≤ t.now) (hpaced : Paced attempts)
    (hgrown : ∀ i, attempts.length = i + 1 → backoffMs i ≤ delayMs)
    (hold : ∀ timer ∈ t.use.connector.due, v.connector.attempts = t.use.connector.attempts →
      ∀ i x, attempts.length = i + 1 → attempts[i]? = some x →
        x + backoffMs i ≤ t.expiration timer ∧ backoffMs (i + 1) ≤ delayMs) :
    BacksOff ⟨v, t.now, t.expirationAfter v.connector delayMs, attempts⟩ := by
  have hkeep (timer : ℕ) (htimer : timer ∈ t.use.connector.due) :
      t.expirationAfter v.connector delayMs timer = t.expiration timer := by
    have hne : timer ≠ t.use.connector.numTimers := Nat.ne_of_lt (h.known timer htimer)
    unfold expirationAfter
    split
    · exact Function.update_of_ne hne ..
    · rfl
  have hgrows : delayMs ≤ v.connector.retryDelayMs ∧
      v.connector.retryDelayMs ≤ kMaxRetryDelayMs := by
    rcases hprogress.timers with ⟨-, hsame⟩ | ⟨-, hdoubled⟩ <;> omega
  refine ⟨horderly, fun timer htimer => ?_, fun timer htimer => ?_, hpast, ?_, hpaced,
    fun i hlength => ?_, fun timer htimer i x hlength hx => ?_⟩
  · change timer < v.connector.numTimers
    rcases hprogress.due timer htimer with ⟨hwas, -⟩ | ⟨hnew, hmore⟩
    · have hlt := h.known timer hwas
      rcases hprogress.timers with ⟨hsame, -⟩ | ⟨hmore, -⟩ <;> omega
    · omega
  · have hwas := hprogress.expired timer htimer
    change t.expirationAfter v.connector delayMs timer ≤ t.now
    rw [hkeep timer (List.mem_append_left _ hwas)]
    exact h.expired timer hwas
  · exact ⟨hdelay.1.trans hgrows.1, hgrows.2⟩
  · exact (hgrown i hlength).trans hgrows.1
  · change _ ≤ t.expirationAfter v.connector delayMs timer ∧ _ ≤ v.connector.retryDelayMs
    rcases hprogress.due timer htimer with ⟨hwas, hnone⟩ | ⟨hnew, hmore⟩
    · obtain ⟨hwait, hnext⟩ := hold timer hwas hnone i x hlength hx
      rw [hkeep timer hwas]
      exact ⟨hwait, hnext.trans hgrows.1⟩
    · -- The timer of this step waits for the delay, which the step doubles.
      have hexpires : t.expirationAfter v.connector delayMs timer = t.now + delayMs := by
        unfold expirationAfter
        rw [if_pos (by omega), hnew, Function.update_self]
      have hle := hpast x (List.mem_of_getElem? hx)
      have hwait := hgrown i hlength
      rw [hexpires, backoffMs_succ]
      rcases hprogress.timers with ⟨hsame, -⟩ | ⟨-, hdoubled⟩ <;> omega

/-- A step that may make an attempt. -/
theorem BacksOff.progress {v : ConnectorUse} {asks : Bool} {delayMs : ℕ} (h : t.BacksOff)
    (horderly : v.Orderly) (hprogress : RetryProgress t.use.connector v.connector asks delayMs)
    (hdelay : asks = true ∧ delayMs = kInitRetryDelayMs ∨
      delayMs = t.use.connector.retryDelayMs) :
    BacksOff ⟨v, t.now, t.expirationAfter v.connector delayMs,
      (if asks then [] else t.attempts) ++
        if t.use.connector.attempts < v.connector.attempts then [t.now] else []⟩ := by
  have hbounds : kInitRetryDelayMs ≤ delayMs ∧ delayMs ≤ kMaxRetryDelayMs := by
    rcases hdelay with ⟨-, rfl⟩ | rfl
    · exact ⟨le_rfl, initDelay_le⟩
    · exact h.delay
  rcases hprogress.attempts with ⟨hnone, rfl⟩ | ⟨hmade, hcause⟩
  · have hsame : delayMs = t.use.connector.retryDelayMs := by
      rcases hdelay with ⟨hasks, -⟩ | hsame
      · cases hasks
      · exact hsame
    rw [hnone, if_neg (Nat.lt_irrefl _), List.append_nil, if_neg (by simp)]
    refine h.of_attempts horderly hprogress hbounds h.past h.paced (fun i hlength => ?_)
      fun timer htimer _ i x hlength hx => ?_
    · rw [hsame]
      exact h.grown i hlength
    · rw [hsame]
      exact h.waiting timer htimer i x hlength hx
  · have hmore : t.use.connector.attempts < v.connector.attempts := by omega
    have hnone : v.connector.attempts ≠ t.use.connector.attempts := by omega
    rw [if_pos hmore]
    cases asks with
    | true =>
      rw [if_pos rfl, List.nil_append]
      refine h.of_attempts horderly hprogress hbounds (fun x hx => ?_) (fun i x y hx hy => ?_)
        (fun i hlength => ?_) fun timer _ hsame => absurd hsame hnone
      · exact (List.mem_singleton.mp hx).le
      · rw [List.getElem?_singleton, if_neg (by omega)] at hy
        cases hy
      · rw [List.length_singleton] at hlength
        obtain rfl : i = 0 := by omega
        exact hbounds.1
    | false =>
      have hsame : delayMs = t.use.connector.retryDelayMs := by
        rcases hdelay with ⟨hasks, -⟩ | hsame
        · cases hasks
        · exact hsame
      rw [if_neg (by simp)]
      -- The attempt is made by a timer that has expired.
      obtain ⟨timer, htimer⟩ := List.exists_mem_of_ne_nil _ (hcause.resolve_left (by simp))
      have hexpired := h.expired timer htimer
      have hwaited := h.waiting timer (List.mem_append_left _ htimer)
      refine h.of_attempts horderly hprogress hbounds (fun x hx => ?_) (h.paced.snoc ?_)
        (fun i hlength => ?_) fun timer _ hsame => absurd hsame hnone
      · rcases List.mem_append.mp hx with hold | hnow
        · exact h.past x hold
        · exact (List.mem_singleton.mp hnow).le
      · intro i x hlength hx
        exact (hwaited i x hlength hx).1.trans hexpired
      · rw [List.length_append, List.length_singleton] at hlength
        rw [hsame]
        cases i with
        | zero => exact h.delay.1
        | succ i =>
          have hlt : i < t.attempts.length := by omega
          exact (hwaited i t.attempts[i] (by omega) (List.getElem?_eq_getElem hlt)).2

/-- Every step keeps the distances. -/
theorem BacksOff.step {a : TimedConnectorStep} (h : t.BacksOff) (henabled : t.enabled a)
    (hexec : t.exec a = .ok t') : t'.BacksOff := by
  cases a with
  | wait ms =>
    cases hexec
    exact h.wait ms
  | step a =>
    obtain ⟨⟨henabled, hquiet⟩, hclock⟩ := henabled
    obtain ⟨v, hok, hv⟩ := bind_eq_ok.mp hexec
    obtain ⟨v', hok', horderly⟩ := h.orderly.step henabled (h.orderly.startsIdle hquiet)
    cases hok.symm.trans hok'
    cases hv
    by_cases hpoll : ∃ expired active, a = .poll expired active
    · obtain ⟨expired, active, rfl⟩ := hpoll
      cases hok
      have hpolled := h.poll henabled hclock rfl horderly
      simpa [expirationAfter, ConnectorStep.asks, Connector.poll] using hpolled
    · have hprogress := h.orderly.progress henabled hquiet hok
        fun expired active heq => hpoll ⟨expired, active, heq⟩
      refine h.progress horderly hprogress ?_
      cases a with
      | restart => exact .inl ⟨rfl, rfl⟩
      | _ => exact .inr rfl

/-- **Retries back off.** In every run in which `start` is called only when nothing is left of the
last attempt, with a clock that does not go back: after a call of `start` or `restart`, the
attempt of number `i` is followed by the next one, if there is one before the next such call, no
earlier than `500 * 2 ^ i` milliseconds later, or 30 seconds if that is less. The delay is always
between these bounds. -/
theorem retries_back_off (h : timedConnectorSystem.Reachable t) :
    (∀ i x y, t.attempts[i]? = some x → t.attempts[i + 1]? = some y →
        x + min (500 * 2 ^ i) 30000 ≤ y) ∧
      500 ≤ t.use.connector.retryDelayMs ∧ t.use.connector.retryDelayMs ≤ 30000 := by
  have hback := h.invariant BacksOff.of_init fun hI henabled hexec => hI.step henabled hexec
  exact ⟨hback.paced, hback.delay⟩

/-- A new connector. -/
def newTimed : TimedConnector := ⟨⟨.new, .nothing⟩, 0, fun _ => 0, []⟩

/-- The retry timer of this number expires, and its attempt is refused at once. -/
def refusedAgain (timer : ℕ) : List ConnectorStep :=
  [.poll [timer] [], .runTimer .ECONNREFUSED 5, .timersDone, .swap, .iterationDone]

/-- Three attempts are refused, and the loop is late for the last one. -/
def refusedThreeTimes : List TimedConnectorStep :=
  .step (.start .ECONNREFUSED 5) :: .wait 500 :: (refusedAgain 0).map .step ++
    .wait 1200 :: (refusedAgain 1).map .step

/-- The attempts of that run are half a second apart, and then more. -/
theorem retries_back_off_refusedThreeTimes : ∃ t : TimedConnector, t.attempts = [0, 500, 1700] ∧
    t.use.connector.retryDelayMs = 4000 ∧ ∀ i x y, t.attempts[i]? = some x →
      t.attempts[i + 1]? = some y → x + min (500 * 2 ^ i) 30000 ≤ y := by
  have hcheck : (timedConnectorSystem.replay newTimed refusedThreeTimes).any
      (fun t => decide (t.attempts = [0, 500, 1700] ∧ t.use.connector.retryDelayMs = 4000)) =
        true := by decide +kernel
  obtain ⟨t, hrun, ht⟩ := System.exists_run_of_replay hcheck
  obtain ⟨hattempts, hdelay⟩ := of_decide_eq_true ht
  exact ⟨t, hattempts, hdelay, (retries_back_off ⟨newTimed, _, ⟨rfl, rfl⟩, hrun⟩).1⟩

end TimedConnector

end Dalin.Net
