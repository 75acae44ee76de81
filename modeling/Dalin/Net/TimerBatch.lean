import Dalin.Net.TimerAlarm

/-!
# Running the expired timers

`handleRead` takes the expired timers out of the tables, runs their callbacks, which
add and cancel timers as they like, and puts the repeating ones back. This file
follows the timers in the tables through a whole `handleRead` and says which
callbacks ran and which timers are in the tables at its end.
-/

set_option autoImplicit false

namespace Dalin.Net

open Transition

namespace TimerQueue

variable {q q' : TimerQueue} {id : TimerId} {t : Timer}

/-! ### The schedule -/

/-- The timer with this id is in the tables, and is `t`. -/
def Scheduled (q : TimerQueue) (id : TimerId) (t : Timer) : Prop :=
  q.heap id.timer = some t ∧ t.sequence = id.sequence ∧
    (⟨t.expiration, id.timer⟩ : Entry) ∈ q.timers

/-- A scheduled timer is in `activeTimers_`. -/
theorem Agreed.mem_active_iff (h : q.Agreed) : id ∈ q.activeTimers ↔ ∃ t, q.Scheduled id t :=
  h.tables.active id

/-- The timers of the schedule after a step. -/
def ScheduledAfter (q : TimerQueue) (id : TimerId) (t : Timer) : TimerAction → Prop
  | .addTimer timer expiration interval repeats _ =>
    q.Scheduled id t ∨ id = ⟨timer, q.numCreated + 1⟩ ∧ t = q.created expiration interval repeats
  | .runPending _ => q.Scheduled id t ∨
    q.pendingTimers.head? = some id.timer ∧ q.heap id.timer = some t ∧ t.sequence = id.sequence
  | .cancel id' => q.Scheduled id t ∧ id ≠ id'
  | .handleRead now => q.Scheduled id t ∧ now < t.expiration
  | .reset _ => q.Scheduled id t ∨ ∃ b ∈ q.batch, id.timer ∈ q.expiredTimers ∧
    ∃ t₀, q.heap id.timer = some t₀ ∧ t₀.sequence = id.sequence ∧ q.Restarts id.timer t₀ ∧
      t = t₀.restart b.now
  | _ => q.Scheduled id t

/-- A new timer is not at the address of a timer in the tables. -/
theorem Agreed.ne_of_mayCreate (h : q.Agreed) {timer : ℕ} {interval : ℤ} {repeats : Bool}
    (hmay : q.MayCreate timer interval repeats) {e : Entry} (he : e ∈ q.timers) :
    e.timer ≠ timer := by
  obtain ⟨t, ht, _⟩ := h.tables.scheduled e he
  exact ne_of_allocated hmay ht

/-- What a step does to the schedule. -/
theorem Agreed.scheduled_iff {a : TimerAction} (h : q.Agreed) (hmay : q.mayStep a)
    (hstepped : q.Stepped a q') : q'.Scheduled id t ↔ q.ScheduledAfter id t a := by
  unfold Scheduled
  rw [hstepped.timers, hstepped.heap]
  cases a with
  | addTimer timer expiration interval repeats now =>
    change Function.update q.heap timer _ id.timer = some t ∧ _ ∧ (_ ∨ _) ↔ (_ ∧ _ ∧ _) ∨ _
    constructor
    · rintro ⟨ht, hsequence, hmem | hentry⟩
      · rw [Function.update_of_ne (h.ne_of_mayCreate hmay.2 hmem)] at ht
        exact Or.inl ⟨ht, hsequence, hmem⟩
      · obtain ⟨_, htimer⟩ := (Entry.mk.injEq ..).mp hentry
        rw [htimer, Function.update_self] at ht
        obtain rfl := Option.some.inj ht
        cases id
        exact Or.inr ⟨(TimerId.mk.injEq ..).mpr ⟨htimer, hsequence.symm⟩, rfl⟩
    · rintro (⟨ht, hsequence, hmem⟩ | ⟨rfl, rfl⟩)
      · rw [Function.update_of_ne (h.ne_of_mayCreate hmay.2 hmem)]
        exact ⟨ht, hsequence, Or.inl hmem⟩
      · exact ⟨Function.update_self .., rfl, Or.inr rfl⟩
  | foreignAddTimer timer expiration interval repeats =>
    change Function.update q.heap timer _ id.timer = some t ∧ _ ∧ _ ↔ _ ∧ _ ∧ _
    constructor
    · rintro ⟨ht, hsequence, hmem⟩
      rw [Function.update_of_ne (h.ne_of_mayCreate hmay hmem)] at ht
      exact ⟨ht, hsequence, hmem⟩
    · rintro ⟨ht, hsequence, hmem⟩
      rw [Function.update_of_ne (h.ne_of_mayCreate hmay hmem)]
      exact ⟨ht, hsequence, hmem⟩
  | runPending now =>
    constructor
    · rintro ⟨ht, hsequence, hmem | ⟨hhead, _⟩⟩
      · exact Or.inl ⟨ht, hsequence, hmem⟩
      · exact Or.inr ⟨hhead, ht, hsequence⟩
    · rintro (⟨ht, hsequence, hmem⟩ | ⟨hhead, ht, hsequence⟩)
      · exact ⟨ht, hsequence, Or.inl hmem⟩
      · exact ⟨ht, hsequence, Or.inr ⟨hhead, t, ht, rfl⟩⟩
  | cancel id' =>
    rw [heapAfter_cancel]
    by_cases hid : id' ∈ q.activeTimers
    · obtain ⟨t', ht', hsequence', _⟩ := h.mem_active_iff.mp hid
      rw [if_pos hid]
      constructor
      · rintro ⟨ht, hsequence, hmem, hnot⟩
        have hne : id.timer ≠ id'.timer := fun heq => hnot ⟨hid, heq⟩
        rw [Function.update_of_ne hne] at ht
        exact ⟨⟨ht, hsequence, hmem⟩, fun heq => hne (congrArg TimerId.timer heq)⟩
      · rintro ⟨⟨ht, hsequence, hmem⟩, hne⟩
        -- two timers at one address are the same timer
        have hother : id.timer ≠ id'.timer := fun heq =>
          hne (eq_of_timer ht hsequence ht' hsequence' heq)
        rw [Function.update_of_ne hother]
        exact ⟨ht, hsequence, hmem, fun hgone => hother hgone.2⟩
    · rw [if_neg hid]
      constructor
      · rintro ⟨ht, hsequence, hmem, _⟩
        refine ⟨⟨ht, hsequence, hmem⟩, fun heq => hid (h.mem_active_iff.mpr ⟨t, ?_⟩)⟩
        exact heq ▸ ⟨ht, hsequence, hmem⟩
      · rintro ⟨⟨ht, hsequence, hmem⟩, _⟩
        exact ⟨ht, hsequence, hmem, fun hgone => hid hgone.1⟩
  | handleRead now =>
    constructor
    · rintro ⟨ht, hsequence, hmem, hlater⟩
      exact ⟨⟨ht, hsequence, hmem⟩, hlater⟩
    · rintro ⟨⟨ht, hsequence, hmem⟩, hlater⟩
      exact ⟨ht, hsequence, hmem, hlater⟩
  | reset clock =>
    obtain ⟨b, hb, _⟩ := exists_batch hmay
    rw [heapAfter_reset hb]
    constructor
    · rintro ⟨ht, hsequence, hmem | ⟨_, _, hexpired, t₀, ht₀, hrestarts, _⟩⟩
      · rw [restartedHeap_of_not_mem (h.not_mem_of_expired hmem)] at ht
        exact Or.inl ⟨ht, hsequence, hmem⟩
      · rw [restartedHeap_of_mem hexpired ht₀, if_pos hrestarts] at ht
        obtain rfl := Option.some.inj ht
        exact Or.inr ⟨b, hb, hexpired, t₀, ht₀, hsequence, hrestarts, rfl⟩
    · rintro (⟨ht, hsequence, hmem⟩ | ⟨b', hb', hexpired, t₀, ht₀, hsequence, hrestarts, rfl⟩)
      · rw [restartedHeap_of_not_mem (h.not_mem_of_expired hmem)]
        exact ⟨ht, hsequence, Or.inl hmem⟩
      · obtain rfl := Option.some.inj (hb.symm.trans hb')
        rw [restartedHeap_of_mem hexpired ht₀, if_pos hrestarts]
        refine ⟨rfl, hsequence, Or.inr ⟨b, hb, hexpired, t₀, ht₀, hrestarts, ?_⟩⟩
        exact expiration_restart hrestarts.1 b.now
  | _ => exact Iff.rfl

/-- Until `reset`, a timer outside of the tables stays as it is. -/
theorem Agreed.heap_of_expired {a : TimerAction} (h : q.Agreed) (hmay : q.mayStep a)
    (hstepped : q.Stepped a q') (hnot : ∀ clock, a ≠ .reset clock) {timer : ℕ}
    (htimer : timer ∈ q.expiredTimers) : q'.heap timer = q.heap timer := by
  obtain ⟨t, ht⟩ := h.tables.allocated timer (List.mem_append_left _ htimer)
  rw [hstepped.heap]
  cases a with
  | addTimer => exact Function.update_of_ne (ne_of_allocated hmay.2 ht) ..
  | foreignAddTimer => exact Function.update_of_ne (ne_of_allocated hmay ht) ..
  | cancel id =>
    rw [heapAfter_cancel]
    split
    · rename_i hid
      obtain ⟨_, _, _, hmem⟩ := h.mem_active_iff.mp hid
      have hother : timer ≠ id.timer := fun heq => h.not_mem_of_expired hmem (heq ▸ htimer)
      exact Function.update_of_ne hother ..
    · rfl
  | reset clock => exact absurd rfl (hnot clock)
  | _ => rfl

/-! ### A batch in progress -/

end TimerQueue

/-- A call of `addTimer`. -/
def TimerAction.creates : TimerAction → Bool
  | .addTimer .. => true
  | .foreignAddTimer .. => true
  | _ => false

/-- A step that the loop takes by itself: the next callback starts, or it returns at once. -/
def TimerAction.Plain (a : TimerAction) : Prop := a = .runTimer ∨ a = .callbackReturns

namespace TimerQueue

variable {q q' : TimerQueue} {id : TimerId} {t : Timer} {now : ℤ} {as post : List TimerAction}

/-- The timers whose callbacks were started, in order. -/
def started (q : TimerQueue) : List TimerId :=
  q.history.filterMap fun
    | .started id => some id
    | .cancelled _ => none

/-- A callback adds this timer in one of the steps `as` from `q` on; the steps `post` come after
it. -/
def Adds (q : TimerQueue) (as : List TimerAction) (id : TimerId) (t : Timer)
    (post : List TimerAction) : Prop :=
  ∃ pre timer expiration interval repeats clock,
    as = pre ++ .addTimer timer expiration interval repeats clock :: post ∧
      id = ⟨timer, q.numCreated + pre.countP TimerAction.creates + 1⟩ ∧
      t = ⟨expiration, interval, repeats, id.sequence⟩

/-- The timer of an entry, with its id. -/
def identify (q : TimerQueue) (e : Entry) : Option (TimerId × Timer) :=
  (q.heap e.timer).map fun t => (⟨e.timer, t.sequence⟩, t)

/-- The entries that a `handleRead` at this time takes out of `timers_`. -/
def expiring (q : TimerQueue) (now : ℤ) : List Entry := q.timers.below ⟨now, UINTPTR_MAX⟩

/-- The action adds this timer in a callback, after the steps `as` from `q` on. -/
def AddsNow (q : TimerQueue) (as : List TimerAction) (id : TimerId) (t : Timer)
    (a : TimerAction) : Prop :=
  ∃ timer expiration interval repeats clock,
    a = .addTimer timer expiration interval repeats clock ∧
      id = ⟨timer, q.numCreated + as.countP TimerAction.creates + 1⟩ ∧
      t = ⟨expiration, interval, repeats, id.sequence⟩

/-- The last step adds a timer, or it comes after the one that did. -/
theorem adds_append_singleton {a : TimerAction} : q.Adds (as ++ [a]) id t post ↔
    (∃ post', post = post' ++ [a] ∧ q.Adds as id t post') ∨ post = [] ∧ q.AddsNow as id t a := by
  constructor
  · rintro ⟨pre, timer, expiration, interval, repeats, clock, heq, hid, ht⟩
    rcases List.eq_nil_or_concat' post with rfl | ⟨post', b, rfl⟩
    · obtain ⟨rfl, rfl⟩ := List.append_singleton_inj.mp heq
      exact Or.inr ⟨rfl, timer, expiration, interval, repeats, clock, rfl, hid, ht⟩
    · rw [← List.cons_append, ← List.append_assoc] at heq
      obtain ⟨rfl, rfl⟩ := List.append_singleton_inj.mp heq
      exact Or.inl ⟨post', rfl, pre, timer, expiration, interval, repeats, clock, rfl, hid, ht⟩
  · rintro (⟨post', rfl, pre, timer, expiration, interval, repeats, clock, rfl, hid, ht⟩ |
      ⟨rfl, timer, expiration, interval, repeats, clock, rfl, hid, ht⟩)
    · refine ⟨pre, timer, expiration, interval, repeats, clock, ?_, hid, ht⟩
      rw [List.append_assoc, List.cons_append]
    · exact ⟨as, timer, expiration, interval, repeats, clock, rfl, hid, ht⟩

/-- A timer that was added and not cancelled since is new, or was there and is not cancelled. -/
theorem exists_adds_append_singleton {a : TimerAction} :
    (∃ post, q.Adds (as ++ [a]) id t post ∧ .cancel id ∉ post) ↔
      (∃ post, q.Adds as id t post ∧ .cancel id ∉ post) ∧ a ≠ .cancel id ∨
        q.AddsNow as id t a := by
  constructor
  · rintro ⟨post, hadds, hnot⟩
    rcases adds_append_singleton.mp hadds with ⟨post', rfl, hadds'⟩ | ⟨rfl, hnow⟩
    · rw [List.mem_append, List.mem_singleton, not_or] at hnot
      exact Or.inl ⟨⟨post', hadds', hnot.1⟩, Ne.symm hnot.2⟩
    · exact Or.inr hnow
  · rintro (⟨⟨post, hadds, hnot⟩, hne⟩ | hnow)
    · refine ⟨post ++ [a], adds_append_singleton.mpr (Or.inl ⟨post, rfl, hadds⟩), ?_⟩
      rw [List.mem_append, List.mem_singleton, not_or]
      exact ⟨hnot, Ne.symm hne⟩
    · exact ⟨[], adds_append_singleton.mpr (Or.inr ⟨rfl, hnow⟩), List.not_mem_nil⟩

/-- The state of a `handleRead` at `now` that began in `q`, after the steps `as`. -/
structure InBatch (q : TimerQueue) (now : ℤ) (as : List TimerAction) (s : TimerQueue) : Prop where
  agreed : s.Agreed
  batch : ∃ b done, s.batch = some b ∧ b.now = now ∧ b.expired = q.expiring now ∧
    b.expired = done ++ b.rest ∧
    s.started = q.started ++ (done.filterMap q.identify).map Prod.fst
  heap : ∀ timer ∈ (q.expiring now).map Entry.timer, s.heap timer = q.heap timer
  scheduled : ∀ id t, s.Scheduled id t ↔
    q.Scheduled id t ∧ now < t.expiration ∧ .cancel id ∉ as ∨
      ∃ post, q.Adds as id t post ∧ .cancel id ∉ post
  canceling : ∀ id t, q.Scheduled id t → t.expiration ≤ now →
    (id ∈ s.cancelingTimers ↔ .cancel id ∈ as)
  fresh : ∀ id t post, q.Adds as id t post → id.timer ∉ (q.expiring now).map Entry.timer
  numCreated : s.numCreated = q.numCreated + as.countP TimerAction.creates

/-- The timers of the batch are those that `handleRead` took out of `timers_`. -/
theorem InBatch.expiredTimers {s : TimerQueue} (h : q.InBatch now as s) :
    s.expiredTimers = (q.expiring now).map Entry.timer := by
  obtain ⟨b, _, hb, _, hexpired, _⟩ := h.batch
  rw [expiredTimers_of_some hb, hexpired]

/-- A scheduled timer that has expired is in the batch. -/
theorem Agreed.mem_expiring (h : q.Agreed) (hscheduled : q.Scheduled id t)
    (hle : t.expiration ≤ now) : id.timer ∈ (q.expiring now).map Entry.timer :=
  List.mem_map.mpr ⟨_, h.tables.mem_below_iff.mpr ⟨hscheduled.2.2, hle⟩, rfl⟩

/-- The first step of `handleRead`. -/
theorem Agreed.inBatch {s : TimerQueue} (h : q.Agreed) (hmay : q.mayStep (.handleRead now))
    (hexec : q.exec (.handleRead now) = .ok s) : q.InBatch now [] s := by
  obtain ⟨hagreed, hstepped⟩ := h.of_step hmay hexec
  obtain ⟨events, hevents, hhistory⟩ := hstepped.history
  have hno {post : List TimerAction} {id : TimerId} {t : Timer} : ¬ q.Adds [] id t post := by
    rintro ⟨pre, _, _, _, _, _, heq, _⟩
    simp at heq
  refine ⟨hagreed, ⟨_, [], hstepped.batch, rfl, rfl, rfl, ?_⟩, fun timer _ => ?_, fun id t => ?_,
    fun id t _ _ => ?_, fun id t post hadds => absurd hadds hno, hstepped.numCreated⟩
  · unfold started
    rw [hhistory, show events = [] from hevents, List.append_nil]
    exact (List.append_nil _).symm
  · rw [hstepped.heap]
    rfl
  · rw [h.scheduled_iff hmay hstepped]
    constructor
    · exact fun hin => Or.inl ⟨hin.1, hin.2, List.not_mem_nil⟩
    · rintro (hin | ⟨_, hadds, _⟩)
      · exact ⟨hin.1, hin.2.1⟩
      · exact absurd hadds hno
  · rw [hstepped.canceling]
    exact iff_of_false not_false List.not_mem_nil

/-- A step counts if it creates a timer. -/
theorem Stepped.numCreated_eq {a : TimerAction} (h : q.Stepped a q') :
    q'.numCreated = q.numCreated + [a].countP TimerAction.creates := by
  rw [h.numCreated]
  cases a <;> rfl

/-- A step of the batch keeps the batch together. -/
theorem InBatch.batch_of_step {s s' : TimerQueue} {a : TimerAction} (h : q.InBatch now as s)
    (hstepped : s.Stepped a s') (hmay : s.mayStep a) (hnot : ∀ clock, a ≠ .reset clock) :
    ∃ b done, s'.batch = some b ∧ b.now = now ∧ b.expired = q.expiring now ∧
      b.expired = done ++ b.rest ∧
      s'.started = q.started ++ (done.filterMap q.identify).map Prod.fst := by
  obtain ⟨b, done, hb, hnow, hexpired, hdone, hstarted⟩ := h.batch
  obtain ⟨events, hevents, hhistory⟩ := hstepped.history
  have hbatch := hstepped.batch
  have hquiet (hnone : events.filterMap (fun
      | .started id => some id
      | .cancelled _ => none) = []) : s'.started = s.started := by
    unfold started
    rw [hhistory, List.filterMap_append, hnone, List.append_nil]
  cases a with
  | runTimer =>
    obtain ⟨b', hb', entry, t, hhead, ht, rfl⟩ := hevents
    obtain rfl := Option.some.inj (hb.symm.trans hb')
    obtain ⟨rest, hrest⟩ := List.head?_eq_some_iff.mp hhead
    have hmem : entry ∈ q.expiring now := by
      rw [← hexpired, hdone, hrest]
      exact List.mem_append_right _ List.mem_cons_self
    have hentry : q.identify entry = some (⟨entry.timer, t.sequence⟩, t) := by
      unfold identify
      rw [← h.heap entry.timer (List.mem_map_of_mem hmem), ht]
      rfl
    refine ⟨{ b with rest := b.rest.tail, inCallback := true }, done ++ [entry], ?_, hnow,
      hexpired, ?_, ?_⟩
    · rw [hbatch]
      simp only [batchAfter, hb, Option.map_some]
    · change b.expired = _ ++ b.rest.tail
      rw [hdone, hrest, List.append_assoc]
      rfl
    · unfold started at hstarted ⊢
      rw [hhistory, List.filterMap_append, hstarted, List.filterMap_append, List.map_append,
        ← List.append_assoc]
      simp only [List.filterMap_cons, List.filterMap_nil, hentry, List.map_cons, List.map_nil]
  | callbackReturns =>
    refine ⟨{ b with inCallback := false }, done, ?_, hnow, hexpired, hdone, ?_⟩
    · rw [hbatch]
      simp only [batchAfter, hb, Option.map_some]
    · rw [hquiet (by rw [show events = [] from hevents]; rfl), hstarted]
  | cancel target =>
    refine ⟨b, done, hbatch.trans hb, hnow, hexpired, hdone, ?_⟩
    rw [hquiet, hstarted]
    rw [show events = _ from hevents]
    split <;> rfl
  | reset clock => exact absurd rfl (hnot clock)
  | handleRead now' =>
    have hidle : s.batch.isNone = true := hmay
    rw [hb] at hidle
    cases hidle
  | _ =>
    refine ⟨b, done, hbatch.trans hb, hnow, hexpired, hdone, ?_⟩
    rw [hquiet (by rw [show events = [] from hevents]; rfl), hstarted]

/-- In a callback, timers leave the tables by `cancel` and enter them by `addTimer` only. -/
theorem InBatch.scheduledAfter_iff {s : TimerQueue} {a : TimerAction} (h : q.InBatch now as s)
    (hmay : s.mayStep a) (hnot : ∀ clock, a ≠ .reset clock) :
    s.ScheduledAfter id t a ↔ s.Scheduled id t ∧ a ≠ .cancel id ∨ q.AddsNow as id t a := by
  obtain ⟨b, _, hb, _⟩ := h.batch
  have hbusy : s.batch.isNone ≠ true := by
    rw [hb]
    exact Bool.false_ne_true
  have hother (hcancel : a ≠ .cancel id) (hadd : ¬ q.AddsNow as id t a) :
      s.Scheduled id t ↔ s.Scheduled id t ∧ a ≠ .cancel id ∨ q.AddsNow as id t a := by
    rw [or_iff_left hadd, and_iff_left hcancel]
  have hno {a : TimerAction} (hne : ∀ timer expiration interval repeats clock,
      a ≠ .addTimer timer expiration interval repeats clock) : ¬ q.AddsNow as id t a := by
    rintro ⟨timer, expiration, interval, repeats, clock, heq, _⟩
    exact hne _ _ _ _ _ heq
  cases a with
  | addTimer timer expiration interval repeats clock =>
    refine or_congr (and_iff_left (by simp)).symm ⟨?_, ?_⟩
    · rintro ⟨rfl, rfl⟩
      rw [h.numCreated]
      exact ⟨timer, expiration, interval, repeats, clock, rfl, rfl, by
        unfold created; rw [h.numCreated]⟩
    · rintro ⟨_, _, _, _, _, heq, rfl, rfl⟩
      obtain ⟨rfl, rfl, rfl, rfl, rfl⟩ := (TimerAction.addTimer.injEq ..).mp heq
      unfold created
      rw [h.numCreated]
      exact ⟨rfl, rfl⟩
  | cancel target =>
    rw [or_iff_left (hno (by simp))]
    refine and_congr_right fun _ => not_congr ⟨fun heq => heq ▸ rfl, fun heq => ?_⟩
    exact ((TimerAction.cancel.injEq ..).mp heq).symm
  | runPending clock => exact absurd hmay.1 hbusy
  | handleRead now' => exact absurd hmay hbusy
  | reset clock => exact absurd rfl (hnot clock)
  | _ => exact hother (by simp) (hno (by simp))

/-- A timer of the batch is in no table. -/
theorem InBatch.not_mem_active {s : TimerQueue} (h : q.InBatch now as s)
    (hid : id.timer ∈ (q.expiring now).map Entry.timer) : id ∉ s.activeTimers := by
  intro hmem
  obtain ⟨_, _, _, hentry⟩ := h.agreed.mem_active_iff.mp hmem
  exact h.agreed.not_mem_of_expired hentry (h.expiredTimers ▸ hid)

/-- In a callback, `cancel` notes the ids that are in no table. -/
theorem InBatch.noted_iff {s : TimerQueue} {a : TimerAction} (h : q.InBatch now as s)
    (hmay : s.mayStep a) (hid : id ∉ s.activeTimers) :
    s.Noted id a ↔ id ∈ s.cancelingTimers ∨ .cancel id = a := by
  obtain ⟨b, _, hb, _⟩ := h.batch
  cases a with
  | cancel target =>
    refine or_congr_right ⟨fun hin => congrArg _ hin.1, fun heq => ?_⟩
    refine ⟨(TimerAction.cancel.injEq ..).mp heq, hid, ?_⟩
    rw [hb]
    rfl
  | handleRead now' =>
    have hidle : s.batch.isNone = true := hmay
    rw [hb] at hidle
    cases hidle
  | _ => exact (or_iff_left (by simp)).symm

/-- Every step before `reset` keeps the batch in progress. -/
theorem InBatch.step {s s' : TimerQueue} {a : TimerAction} (h : q.InBatch now as s)
    (hagreed : q.Agreed) (hmay : s.mayStep a) (hnot : ∀ clock, a ≠ .reset clock)
    (hexec : s.exec a = .ok s') : q.InBatch now (as ++ [a]) s' := by
  obtain ⟨hagreed', hstepped⟩ := h.agreed.of_step hmay hexec
  have hcancel (id : TimerId) : .cancel id ∉ as ++ [a] ↔ .cancel id ∉ as ∧ a ≠ .cancel id := by
    rw [List.mem_append, List.mem_singleton, not_or]
    exact and_congr_right fun _ => not_congr eq_comm
  refine ⟨hagreed', h.batch_of_step hstepped hmay hnot, fun timer htimer => ?_, fun id t => ?_,
    fun id t hscheduled hle => ?_, fun id t post hadds => ?_, ?_⟩
  · rw [← h.heap timer htimer]
    exact h.agreed.heap_of_expired hmay hstepped hnot (h.expiredTimers ▸ htimer)
  · rw [h.agreed.scheduled_iff hmay hstepped, h.scheduledAfter_iff hmay hnot, h.scheduled,
      exists_adds_append_singleton, hcancel, or_and_right, or_assoc]
    refine or_congr_left ⟨?_, ?_⟩
    · rintro ⟨⟨hscheduled, hlater, hnot⟩, hne⟩
      exact ⟨hscheduled, hlater, hnot, hne⟩
    · rintro ⟨hscheduled, hlater, hnot, hne⟩
      exact ⟨⟨hscheduled, hlater, hnot⟩, hne⟩
  · have hactive := h.not_mem_active (hagreed.mem_expiring hscheduled hle)
    rw [hstepped.canceling, h.noted_iff hmay hactive, h.canceling id t hscheduled hle,
      List.mem_append, List.mem_singleton]
  · rcases adds_append_singleton.mp hadds with ⟨_, _, hadds'⟩ | ⟨_, _, _, _, _, _, rfl, rfl, _⟩
    · exact h.fresh id t _ hadds'
    · intro hmem
      obtain ⟨t', ht'⟩ := h.agreed.tables.allocated _
        (List.mem_append_left _ (h.expiredTimers ▸ hmem))
      rw [Option.isNone_iff_eq_none.mp hmay.2.1] at ht'
      cases ht'
  · rw [hstepped.numCreated_eq, h.numCreated, List.countP_append, Nat.add_assoc]

/-- A batch in which no callback is running can be completed. -/
theorem exists_finish_between {rest : List Entry} {s : TimerQueue} {b : Batch} (h : s.Agreed)
    (hb : s.batch = some b) (hreturned : b.inCallback = false) (hrest : b.rest = rest)
    (clock : ℤ) :
    ∃ bs s', (∀ a ∈ bs, TimerAction.Plain a) ∧ timerRuns.Run s (bs ++ [.reset clock]) s' := by
  induction rest generalizing s b with
  | nil =>
    have hmay : s.mayStep (.reset clock) := by
      unfold mayStep
      rw [hb]
      simp [hreturned, hrest]
    obtain ⟨s', hexec, _⟩ := h.step hmay
    exact ⟨[], s', fun a ha => absurd ha List.not_mem_nil, System.Run.nil.snoc hmay hexec⟩
  | cons entry rest ih =>
    have hmay : s.mayStep .runTimer := by
      unfold mayStep
      rw [hb]
      simp [hreturned, hrest]
    obtain ⟨s₁, hexec₁, h₁, hstepped₁⟩ := h.step hmay
    have hb₁ : s₁.batch = some { b with rest := b.rest.tail, inCallback := true } := by
      rw [hstepped₁.batch]
      simp only [batchAfter, hb, Option.map_some]
    have hmay₁ : s₁.mayStep .callbackReturns := by
      unfold mayStep
      rw [hb₁]
      rfl
    obtain ⟨s₂, hexec₂, h₂, hstepped₂⟩ := h₁.step hmay₁
    have hb₂ : s₂.batch = some { b with rest := b.rest.tail, inCallback := false } := by
      rw [hstepped₂.batch]
      simp only [batchAfter, hb₁, Option.map_some]
    obtain ⟨bs, s', hplain, hrun⟩ := ih h₂ hb₂ rfl (by simp [hrest])
    refine ⟨.runTimer :: .callbackReturns :: bs, s', fun a ha => ?_,
      (hrun.cons hmay₁ hexec₂).cons hmay hexec₁⟩
    rcases List.mem_cons.mp ha with rfl | ha
    · exact Or.inl rfl
    · rcases List.mem_cons.mp ha with rfl | ha
      · exact Or.inr rfl
      · exact hplain a ha

/-- A `handleRead` whose callbacks return comes to its end. -/
theorem InBatch.exists_finish {s : TimerQueue} (h : q.InBatch now as s) (clock : ℤ) :
    ∃ bs s', (∀ a ∈ bs, TimerAction.Plain a) ∧ timerRuns.Run s (bs ++ [.reset clock]) s' := by
  obtain ⟨b, _, hb, _⟩ := h.batch
  cases hin : b.inCallback with
  | false => exact exists_finish_between h.agreed hb hin rfl clock
  | true =>
    have hmay : s.mayStep .callbackReturns := by
      unfold mayStep
      rw [hb]
      exact hin
    obtain ⟨s₁, hexec, h₁, hstepped⟩ := h.agreed.step hmay
    have hb₁ : s₁.batch = some { b with inCallback := false } := by
      rw [hstepped.batch]
      simp only [batchAfter, hb, Option.map_some]
    obtain ⟨bs, s', hplain, hrun⟩ := exists_finish_between h₁ hb₁ rfl rfl clock
    refine ⟨.callbackReturns :: bs, s', fun a ha => ?_, hrun.cons hmay hexec⟩
    rcases List.mem_cons.mp ha with rfl | ha
    · exact Or.inr rfl
    · exact hplain a ha

/-! ### The whole of `handleRead` -/

/-- What a `handleRead` at `now` that began in `q` has done at its end, in `q'`. The steps `as`
between are those of its callbacks and of other threads. -/
structure HandledRead (q : TimerQueue) (now : ℤ) (as : List TimerAction) (q' : TimerQueue) :
    Prop where
  /-- Exactly the callbacks of the timers that had expired ran, each once and in the order of the
  expirations, and none of a timer that was added meanwhile. -/
  ran : ∃ run : List (TimerId × Timer), q'.started = q.started ++ run.map Prod.fst ∧
    (run.map Prod.fst).Nodup ∧ run.Pairwise (fun x y => x.2.expiration ≤ y.2.expiration) ∧
    (∀ id t, (id, t) ∈ run ↔ q.Scheduled id t ∧ t.expiration ≤ now) ∧
    ∀ id t post, q.Adds as id t post → id ∉ run.map Prod.fst
  /-- The tables hold the later timers that were not cancelled, the new ones that were not
  cancelled afterwards, and the repeating ones of the batch that were not cancelled, restarted. -/
  scheduled : ∀ id t, q'.Scheduled id t ↔
    q.Scheduled id t ∧ now < t.expiration ∧ .cancel id ∉ as ∨
      (∃ post, q.Adds as id t post ∧ .cancel id ∉ post) ∨
      ∃ t₀, q.Scheduled id t₀ ∧ t₀.expiration ≤ now ∧ t₀.repeats = true ∧ .cancel id ∉ as ∧
        t = { t₀ with expiration := now + t₀.interval }

/-- The timers of the expiring entries, with their ids. -/
theorem Agreed.mem_filterMap_identify (h : q.Agreed) :
    (id, t) ∈ (q.expiring now).filterMap q.identify ↔ q.Scheduled id t ∧ t.expiration ≤ now := by
  rw [List.mem_filterMap]
  constructor
  · rintro ⟨e, he, hidentify⟩
    obtain ⟨t', ht', heq⟩ := Option.map_eq_some_iff.mp hidentify
    obtain ⟨rfl, rfl⟩ := Prod.mk.inj heq
    obtain ⟨hmem, hle⟩ := h.tables.mem_below_iff.mp he
    have hentry := h.tables.entry_unique hmem ht'
    have hexpiration : t'.expiration = e.expiration := (congrArg Entry.expiration hentry).symm
    refine ⟨⟨ht', rfl, ?_⟩, hexpiration ▸ hle⟩
    rw [← hentry]
    exact hmem
  · rintro ⟨⟨ht, hsequence, hmem⟩, hle⟩
    refine ⟨_, h.tables.mem_below_iff.mpr ⟨hmem, hle⟩, ?_⟩
    unfold identify
    rw [ht, Option.map_some, hsequence]

/-- The expiring timers are at different addresses and sorted by their expirations. -/
theorem Agreed.pairwise_identify (h : q.Agreed) :
    ((q.expiring now).filterMap q.identify).Pairwise fun x y =>
      x.1 ≠ y.1 ∧ x.2.expiration ≤ y.2.expiration := by
  have hmem {e : Entry} (he : e ∈ q.expiring now) : e ∈ q.timers :=
    (h.tables.mem_below_iff.mp he).1
  have hsorted : (q.expiring now).Pairwise (· < ·) :=
    q.timers.sorted.sublist (List.takeWhile_sublist _)
  have hnodup : ((q.expiring now).map Entry.timer).Nodup :=
    (List.nodup_append.mp h.tables.nodup).2.1.sublist ((List.takeWhile_sublist _).map _)
  rw [List.pairwise_filterMap]
  refine ((hsorted.and (List.pairwise_map.mp hnodup)).imp_of_mem ?_)
  rintro e e' he he' ⟨hlt, hne⟩ x hx y hy
  obtain ⟨t, ht, rfl⟩ := Option.map_eq_some_iff.mp hx
  obtain ⟨t', ht', rfl⟩ := Option.map_eq_some_iff.mp hy
  refine ⟨fun heq => hne (congrArg TimerId.timer heq), ?_⟩
  have hexpiration := congrArg Entry.expiration (h.tables.entry_unique (hmem he) ht)
  have hexpiration' := congrArg Entry.expiration (h.tables.entry_unique (hmem he') ht')
  change e.expiration = t.expiration at hexpiration
  change e'.expiration = t'.expiration at hexpiration'
  have hle := expiration_le hlt.le
  change t.expiration ≤ t'.expiration
  omega

/-- The timers that `reset` restarts are the repeating ones that no callback cancelled. -/
theorem InBatch.restarts_iff {s : TimerQueue} (h : q.InBatch now as s) (hagreed : q.Agreed) :
    (∃ b ∈ s.batch, id.timer ∈ s.expiredTimers ∧ ∃ t₀, s.heap id.timer = some t₀ ∧
      t₀.sequence = id.sequence ∧ s.Restarts id.timer t₀ ∧ t = t₀.restart b.now) ↔
    ∃ t₀, q.Scheduled id t₀ ∧ t₀.expiration ≤ now ∧ t₀.repeats = true ∧ .cancel id ∉ as ∧
      t = { t₀ with expiration := now + t₀.interval } := by
  obtain ⟨b, _, hb, rfl, _⟩ := h.batch
  have hrestart {t₀ : Timer} (hrepeats : t₀.repeats = true) :
      t₀.restart b.now = { t₀ with expiration := b.now + t₀.interval } := by
    unfold Timer.restart
    rw [if_pos hrepeats]
  constructor
  · rintro ⟨b', hb', hexpired, t₀, ht₀, hsequence, ⟨hrepeats, hnot⟩, rfl⟩
    obtain rfl := Option.some.inj (hb.symm.trans hb')
    rw [h.expiredTimers] at hexpired
    obtain ⟨e, he, heq⟩ := List.mem_map.mp hexpired
    rw [h.heap _ hexpired] at ht₀
    have hscheduled : q.Scheduled id t₀ ∧ t₀.expiration ≤ b.now := by
      refine hagreed.mem_filterMap_identify.mp (List.mem_filterMap.mpr ⟨e, he, ?_⟩)
      unfold identify
      rw [heq, ht₀, Option.map_some, hsequence]
    rw [hsequence] at hnot
    refine ⟨t₀, hscheduled.1, hscheduled.2, hrepeats, fun hmem => ?_, hrestart hrepeats⟩
    exact hnot ((h.canceling id t₀ hscheduled.1 hscheduled.2).mpr hmem)
  · rintro ⟨t₀, hscheduled, hle, hrepeats, hnot, rfl⟩
    have hmem := hagreed.mem_expiring hscheduled hle
    refine ⟨b, hb, h.expiredTimers ▸ hmem, t₀, (h.heap _ hmem).trans hscheduled.1,
      hscheduled.2.1, ⟨hrepeats, fun hcanceling => ?_⟩, (hrestart hrepeats).symm⟩
    rw [hscheduled.2.1] at hcanceling
    exact hnot ((h.canceling id t₀ hscheduled hle).mp hcanceling)

/-- The last step of `handleRead`. -/
theorem InBatch.handledRead {s : TimerQueue} {clock : ℤ} (h : q.InBatch now as s)
    (hagreed : q.Agreed) (hmay : s.mayStep (.reset clock))
    (hexec : s.exec (.reset clock) = .ok q') :
    q.HandledRead now as q' := by
  obtain ⟨_, hstepped⟩ := h.agreed.of_step hmay hexec
  obtain ⟨events, hevents, hhistory⟩ := hstepped.history
  obtain ⟨b, done, hb, _, hexpired, hdone, hstarted⟩ := h.batch
  obtain ⟨b', hb', hend⟩ := exists_batch hmay
  obtain rfl := Option.some.inj (hb.symm.trans hb')
  have hrest : b.rest = [] := by
    simp only [Bool.and_eq_true, List.isEmpty_iff] at hend
    exact hend.2
  have hall : done = q.expiring now := by
    rw [← hexpired, hdone, hrest, List.append_nil]
  have hpairwise : ((q.expiring now).filterMap q.identify).Pairwise fun x y =>
      x.1 ≠ y.1 ∧ x.2.expiration ≤ y.2.expiration := hagreed.pairwise_identify
  refine ⟨⟨(q.expiring now).filterMap q.identify, ?_, ?_, hpairwise.imp And.right,
    fun id t => hagreed.mem_filterMap_identify, fun id t post hadds hmem => ?_⟩, fun id t => ?_⟩
  · rw [← hall, ← hstarted]
    unfold started
    rw [hhistory, show events = [] from hevents, List.append_nil]
  · exact List.pairwise_map.mpr (hpairwise.imp And.left)
  · obtain ⟨⟨_, t'⟩, hran, rfl⟩ := List.mem_map.mp hmem
    obtain ⟨hscheduled, hle⟩ := hagreed.mem_filterMap_identify.mp hran
    exact h.fresh _ t post hadds (hagreed.mem_expiring hscheduled hle)
  · rw [h.agreed.scheduled_iff hmay hstepped]
    refine Iff.trans (or_congr (h.scheduled id t) (h.restarts_iff hagreed)) ?_
    rw [or_assoc]

/-- **`handleRead` end to end.** From every state in which the tables agree, and at every time,
`handleRead` can be carried out, whatever its callbacks add and cancel: no step fails, it comes to
its end once the callbacks return, and then `HandledRead` says what it has done. -/
theorem handleRead_end_to_end (h : q.Agreed) (hidle : q.batch = none) (now : ℤ) :
    (∃ s, timerRuns.Run q [.handleRead now] s) ∧
      ∀ as s, timerRuns.Run q (.handleRead now :: as) s → (∀ clock, .reset clock ∉ as) →
        timerRuns.Safe s ∧
        (∀ clock, ∃ bs q', (∀ b ∈ bs, TimerAction.Plain b) ∧
          timerRuns.Run s (bs ++ [.reset clock]) q') ∧
        ∀ clock q', timerRuns.Run s [.reset clock] q' → q.HandledRead now as q' := by
  have hmay : q.mayStep (.handleRead now) := Option.isNone_iff_eq_none.mpr hidle
  refine ⟨?_, fun as s hrun has => ?_⟩
  · obtain ⟨s, hexec, _⟩ := h.step hmay
    exact ⟨s, System.Run.nil.snoc hmay hexec⟩
  · obtain ⟨s₀, _, hexec₀, hrest⟩ := hrun.uncons
    have hbatch : q.InBatch now as s := by
      refine hrest.history (I := fun as s => (∀ clock, .reset clock ∉ as) → q.InBatch now as s)
        (fun _ => h.inBatch hmay hexec₀) (fun hI hmay' hexec has => ?_) has
      refine (hI fun clock hmem => has clock (List.mem_append_left _ hmem)).step h hmay'
        (fun clock heq => has clock ?_) hexec
      exact List.mem_append_right _ (List.mem_singleton.mpr heq.symm)
    refine ⟨hbatch.agreed.safe, hbatch.exists_finish, fun clock q' hend => ?_⟩
    obtain ⟨u, hmay', hexec, hnil⟩ := hend.uncons
    obtain rfl := hnil.unique .nil
    exact hbatch.handledRead h hmay' hexec

/-- Two repeating timers, a later one and one that has expired first. -/
def fourTimers : List TimerAction :=
  [.addTimer 1 100 10 true 1, .addTimer 2 100 20 true 2, .addTimer 3 500 0 false 3,
    .addTimer 4 50 0 false 4, .expire]

/-- The first callback cancels a timer that comes after it in the batch and adds one; the second
cancels the later timer and an id that was never returned. -/
def busyBatch : List TimerAction :=
  [.runTimer, .cancel ⟨2, 2⟩, .addTimer 5 90 7 true 101, .callbackReturns, .runTimer,
    .cancel ⟨3, 3⟩, .cancel ⟨9, 9⟩, .callbackReturns, .runTimer, .callbackReturns]

/-- That batch runs to its end, with what it added and cancelled. -/
theorem handleRead_end_to_end_busyBatch : ∃ q q', timerRuns.Reachable q ∧
    q.HandledRead 100 busyBatch q' ∧ q'.started = [⟨4, 4⟩, ⟨1, 1⟩, ⟨2, 2⟩] ∧
    q'.timers.toList = [⟨90, 5⟩, ⟨110, 1⟩] := by
  have hcheck : (timerRuns.replay newQueue fourTimers).any (fun q => q.batch.isNone &&
      (timerRuns.replay q (.handleRead 100 :: busyBatch)).any (fun s =>
        (timerRuns.replay s [.reset 110]).any (fun q' =>
          decide (q'.started = [⟨4, 4⟩, ⟨1, 1⟩, ⟨2, 2⟩] ∧
            q'.timers.toList = [⟨90, 5⟩, ⟨110, 1⟩])))) = true := by
    decide +kernel
  obtain ⟨q, hq, hcheck⟩ := System.exists_run_of_replay hcheck
  rw [Bool.and_eq_true] at hcheck
  obtain ⟨s, hs, hend⟩ := System.exists_run_of_replay hcheck.2
  obtain ⟨q', hq', hresult⟩ := System.exists_run_of_replay hend
  have hreach : timerRuns.Reachable q := ⟨_, _, newQueue_init, hq⟩
  obtain ⟨_, hrun⟩ := handleRead_end_to_end (.of_reachable hreach)
    (Option.isNone_iff_eq_none.mp hcheck.1) 100
  obtain ⟨_, _, hread⟩ := hrun busyBatch s hs (by simp [busyBatch])
  exact ⟨q, q', hreach, hread 110 q' hq', of_decide_eq_true hresult⟩

end TimerQueue

end Dalin.Net
