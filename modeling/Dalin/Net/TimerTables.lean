import Dalin.Net.TimerQueue

/-!
# Agreement of the timer tables

Every timer on the heap that the queue still knows is in one place: in `timers_`
and `activeTimers_`, which list the same timers, or outside of them, in the
expired batch or in a queued call of `addTimerInLoop`. The operations of the
queue move timers between these places, and none of their assertions fails.
-/

set_option autoImplicit false

namespace Dalin.Net.TimerQueue

variable {q q' : TimerQueue} {outside : List ℕ}

/-- A timer on the heap can be read. -/
theorem deref_of_some {timer : ℕ} {t : Timer} (h : q.heap timer = some t) :
    q.deref timer = .ok t := by
  unfold deref
  rw [h]

/-- A timer on the heap is not at the address of a new one. -/
theorem ne_of_allocated {timer timer' : ℕ} {interval : ℤ} {repeats : Bool} {t : Timer}
    (hmay : q.MayCreate timer' interval repeats) (ht : q.heap timer = some t) :
    timer ≠ timer' := by
  intro heq
  rw [heq, Option.isNone_iff_eq_none.mp hmay.1] at ht
  cases ht

/-- Two ids of the timer at one address are the same id. -/
theorem eq_of_timer {id id' : TimerId} {t t' : Timer} (ht : q.heap id.timer = some t)
    (hsequence : t.sequence = id.sequence) (ht' : q.heap id'.timer = some t')
    (hsequence' : t'.sequence = id'.sequence) (htimer : id.timer = id'.timer) : id = id' := by
  rw [htimer, ht'] at ht
  obtain rfl := Option.some.inj ht
  cases id
  cases id'
  exact (TimerId.mk.injEq ..).mpr ⟨htimer, hsequence.symm.trans hsequence'⟩

/-- The addresses of the timers in `timers_`. -/
def addresses (s : OrderedSet Entry) : List ℕ := s.toList.map Entry.timer

/-- The tables agree. `outside` lists the timers that are on the heap but not in them. -/
structure Tables (q : TimerQueue) (outside : List ℕ) : Prop where
  nodup : (outside ++ addresses q.timers).Nodup
  allocated : ∀ timer ∈ outside, ∃ t, q.heap timer = some t
  scheduled : ∀ e ∈ q.timers, ∃ t, q.heap e.timer = some t ∧ t.expiration = e.expiration
  active : ∀ id, id ∈ q.activeTimers ↔ ∃ t, q.heap id.timer = some t ∧ t.sequence = id.sequence ∧
    (⟨t.expiration, id.timer⟩ : Entry) ∈ q.timers
  sizes : q.timers.size = q.activeTimers.size
  heap : ∀ timer t, q.heap timer = some t →
    timer < UINTPTR_MAX ∧ (t.repeats = true → 0 ≤ t.interval)

/-- A timer in `timers_` is not outside of them. -/
theorem Tables.not_mem (h : Tables q outside) {e : Entry} (he : e ∈ q.timers) :
    e.timer ∉ outside := by
  intro hmem
  exact (List.nodup_append.mp h.nodup).2.2 _ hmem _ (List.mem_map_of_mem he) rfl

/-- A list without duplicates contains none. -/
theorem nodup_of_subperm {l l' : List ℕ} (hsub : l.Subperm l') (h : l'.Nodup) : l.Nodup := by
  obtain ⟨l'', hperm, hsublist⟩ := hsub
  exact hperm.nodup_iff.mp (h.sublist hsublist)

/-- Timers outside of the tables may be forgotten, and their order does not matter. -/
theorem Tables.subperm {outside' : List ℕ} (h : Tables q outside)
    (hsub : outside'.Subperm outside) : Tables q outside' :=
  ⟨nodup_of_subperm ((List.subperm_append_right _).mpr hsub) h.nodup,
    fun timer hmem => h.allocated timer (hsub.subset hmem), h.scheduled, h.active, h.sizes, h.heap⟩

/-- The tables do not depend on the rest of the queue. -/
theorem Tables.congr (h : Tables q outside) (hheap : q'.heap = q.heap)
    (htimers : q'.timers = q.timers) (hactive : q'.activeTimers = q.activeTimers) :
    Tables q' outside := by
  refine ⟨?_, ?_, ?_, ?_, ?_, ?_⟩ <;> simp only [hheap, htimers, hactive]
  · exact h.nodup
  · exact h.allocated
  · exact h.scheduled
  · exact h.active
  · exact h.sizes
  · exact h.heap

/-- The tables with one more timer. -/
def withTimer (q : TimerQueue) (timer : ℕ) (t : Timer) : TimerQueue :=
  { q with
    timers := q.timers.insert ⟨t.expiration, timer⟩
    activeTimers := q.activeTimers.insert ⟨timer, t.sequence⟩ }

/-- A timer at this expiration would be the earliest. -/
def earliest (q : TimerQueue) (expiration : ℤ) : Bool :=
  match q.timers.first? with
  | none => true
  | some e => decide (expiration < e.expiration)

/-- `insert` moves a timer from outside into the tables. -/
theorem Tables.insert {timer : ℕ} {t : Timer} (h : Tables q (timer :: outside))
    (ht : q.heap timer = some t) :
    q.insert timer = .ok (q.withTimer timer t, q.earliest t.expiration) ∧
      Tables (q.withTimer timer t) outside := by
  have hentry : (⟨t.expiration, timer⟩ : Entry) ∉ q.timers := fun hmem =>
    h.not_mem hmem List.mem_cons_self
  have hid : (⟨timer, t.sequence⟩ : TimerId) ∉ q.activeTimers := by
    intro hmem
    obtain ⟨t', ht', _, hmem'⟩ := (h.active _).mp hmem
    exact h.not_mem hmem' List.mem_cons_self
  have hsizes := h.sizes
  have hsizes' : (q.timers.insert ⟨t.expiration, timer⟩).size =
      (q.activeTimers.insert ⟨timer, t.sequence⟩).size := by
    rw [OrderedSet.size_insert hentry, OrderedSet.size_insert hid, hsizes]
  refine ⟨?_, ⟨?_, fun timer' hmem => h.allocated timer' (List.mem_cons_of_mem _ hmem),
    fun e he => ?_, fun id => ?_, hsizes', h.heap⟩⟩
  · exact bind_eq_ok.mpr ⟨(), require_of_true h.sizes, bind_eq_ok.mpr ⟨t, deref_of_some ht,
      bind_eq_ok.mpr ⟨(), require_of_true hentry, bind_eq_ok.mpr ⟨(), require_of_true hid,
        bind_eq_ok.mpr ⟨(), require_of_true hsizes', rfl⟩⟩⟩⟩⟩
  · have hperm := (OrderedSet.perm_insert hentry).map Entry.timer
    exact ((hperm.append_left outside).trans List.perm_middle).nodup_iff.mpr h.nodup
  · rcases OrderedSet.mem_insert.mp he with rfl | he
    · exact ⟨t, ht, rfl⟩
    · exact h.scheduled e he
  · simp only [withTimer, OrderedSet.mem_insert, h.active]
    constructor
    · rintro (rfl | ⟨t', ht', hseq, hmem⟩)
      · exact ⟨t, ht, rfl, Or.inl rfl⟩
      · exact ⟨t', ht', hseq, Or.inr hmem⟩
    · rintro ⟨t', ht', hseq, heq | hmem⟩
      · left
        obtain ⟨timer', sequence⟩ := id
        obtain ⟨_, rfl⟩ := (Entry.mk.injEq ..).mp heq
        rw [ht] at ht'
        cases ht'
        exact congrArg (TimerId.mk timer') hseq.symm
      · exact Or.inr ⟨t', ht', hseq, hmem⟩

/-- The entry of a timer in `timers_` is the only one with its address. -/
theorem Tables.entry_unique (h : Tables q outside) {e : Entry} {t : Timer} (he : e ∈ q.timers)
    (ht : q.heap e.timer = some t) : e = ⟨t.expiration, e.timer⟩ := by
  obtain ⟨t', ht', hexpiration⟩ := h.scheduled e he
  rw [ht] at ht'
  cases ht'
  rw [hexpiration]

/-- `cancelInLoop` removes a timer from the tables and deletes it, or notes the cancellation
during `handleRead`, or does nothing. -/
theorem Tables.cancelInLoop (h : Tables q outside) (id : TimerId) :
    ∃ q', q.cancelInLoop id = .ok q' ∧ Tables q' outside ∧
      ((id ∈ q.activeTimers ∧ ∃ t, q.heap id.timer = some t ∧ t.sequence = id.sequence ∧
          q' = { q with
            timers := q.timers.erase ⟨t.expiration, id.timer⟩
            heap := Function.update q.heap id.timer none
            activeTimers := q.activeTimers.erase id }) ∨
        (id ∉ q.activeTimers ∧ q.callingExpiredTimers = true ∧
          q' = { q with cancelingTimers := q.cancelingTimers.insert id }) ∨
        (id ∉ q.activeTimers ∧ q.callingExpiredTimers = false ∧ q' = q)) := by
  have hsizes := h.sizes
  by_cases hid : id ∈ q.activeTimers
  · obtain ⟨t, ht, hsequence, hmem⟩ := (h.active id).mp hid
    have hsizes' : (q.timers.erase ⟨t.expiration, id.timer⟩).size =
        (q.activeTimers.erase id).size := by
      have htimers := OrderedSet.size_erase hmem
      have hactive := OrderedSet.size_erase hid
      omega
    have hother {e : Entry} (he : e ∈ q.timers) (hne : e ≠ ⟨t.expiration, id.timer⟩) :
        e.timer ≠ id.timer := by
      intro heq
      refine hne ((h.entry_unique he (heq ▸ ht)).trans ?_)
      rw [heq]
    have hheap {timer : ℕ} (hne : timer ≠ id.timer) :
        Function.update q.heap id.timer none timer = q.heap timer := Function.update_of_ne hne ..
    refine ⟨_, ?_, ⟨?_, fun timer htimer => ?_, fun e he => ?_, fun id' => ?_, hsizes',
      fun timer t' ht' => ?_⟩, Or.inl ⟨hid, t, ht, hsequence, rfl⟩⟩
    · refine bind_eq_ok.mpr ⟨(), require_of_true h.sizes, ?_⟩
      rw [if_pos hid]
      exact bind_eq_ok.mpr ⟨t, deref_of_some ht, bind_eq_ok.mpr ⟨(), require_of_true hmem,
        bind_eq_ok.mpr ⟨(), require_of_true hsizes', rfl⟩⟩⟩
    · exact h.nodup.sublist (List.Sublist.append_left ((OrderedSet.erase_sublist _ _).map _) _)
    · obtain ⟨t', ht'⟩ := h.allocated timer htimer
      have hne : timer ≠ id.timer := fun heq => h.not_mem hmem (heq ▸ htimer)
      exact ⟨t', (hheap hne).trans ht'⟩
    · obtain ⟨hne, he⟩ := OrderedSet.mem_erase.mp he
      obtain ⟨t', ht', hexpiration⟩ := h.scheduled e he
      exact ⟨t', (hheap (hother he hne)).trans ht', hexpiration⟩
    · simp only [OrderedSet.mem_erase, h.active]
      constructor
      · rintro ⟨hne, t', ht', hsequence', hmem'⟩
        have hentry : (⟨t'.expiration, id'.timer⟩ : Entry) ≠ ⟨t.expiration, id.timer⟩ := by
          intro heq
          obtain ⟨_, htimer⟩ := (Entry.mk.injEq ..).mp heq
          exact hne (eq_of_timer ht' hsequence' ht hsequence htimer)
        exact ⟨t', (hheap (hother hmem' hentry)).trans ht', hsequence', hentry, hmem'⟩
      · rintro ⟨t', ht', hsequence', hentry, hmem'⟩
        have hne := hother hmem' hentry
        rw [hheap hne] at ht'
        exact ⟨fun heq => hne (congrArg TimerId.timer heq), t', ht', hsequence', hmem'⟩
    · change Function.update q.heap id.timer none timer = some t' at ht'
      by_cases heq : timer = id.timer
      · subst heq
        rw [Function.update_self] at ht'
        cases ht'
      · exact h.heap timer t' ((hheap heq).symm.trans ht')
  · by_cases hcalling : q.callingExpiredTimers = true
    · refine ⟨{ q with cancelingTimers := q.cancelingTimers.insert id }, ?_, h.congr rfl rfl rfl,
        Or.inr (Or.inl ⟨hid, hcalling, rfl⟩)⟩
      refine bind_eq_ok.mpr ⟨(), require_of_true h.sizes, ?_⟩
      rw [if_neg hid, if_pos hcalling]
      rfl
    · refine ⟨q, ?_, h, Or.inr (Or.inr ⟨hid, Bool.eq_false_iff.mpr hcalling, rfl⟩)⟩
      refine bind_eq_ok.mpr ⟨(), require_of_true h.sizes, ?_⟩
      rw [if_neg hid, if_neg hcalling]
      rfl

/-! ### The expired timers -/

/-- The loop of `getExpired` takes the timers of the entries out of `activeTimers_`. -/
theorem eraseActive_eq {entries : List Entry} (hnodup : (entries.map Entry.timer).Nodup)
    (hentries : ∀ e ∈ entries, ∃ t, q.heap e.timer = some t ∧
      (⟨e.timer, t.sequence⟩ : TimerId) ∈ q.activeTimers)
    (hactive : ∀ id ∈ q.activeTimers, ∃ t, q.heap id.timer = some t ∧ t.sequence = id.sequence) :
    ∃ active, q.eraseActive entries = .ok { q with activeTimers := active } ∧
      active.size + entries.length = q.activeTimers.size ∧
      ∀ id, id ∈ active ↔ id ∈ q.activeTimers ∧ id.timer ∉ entries.map Entry.timer := by
  induction entries generalizing q with
  | nil => exact ⟨q.activeTimers, rfl, rfl, fun id => by simp⟩
  | cons entry rest ih =>
    obtain ⟨hnot, hrest⟩ := List.nodup_cons.mp hnodup
    obtain ⟨t, ht, hmem⟩ := hentries entry List.mem_cons_self
    have hrest' : ∀ e ∈ rest, ∃ t', q.heap e.timer = some t' ∧
        (⟨e.timer, t'.sequence⟩ : TimerId) ∈ q.activeTimers.erase ⟨entry.timer, t.sequence⟩ := by
      intro e he
      obtain ⟨t', ht', hmem'⟩ := hentries e (List.mem_cons_of_mem _ he)
      refine ⟨t', ht', OrderedSet.mem_erase.mpr ⟨fun heq => hnot ?_, hmem'⟩⟩
      have htimer : e.timer = entry.timer := congrArg TimerId.timer heq
      rw [← htimer]
      exact List.mem_map_of_mem he
    obtain ⟨active, hok, hsize, hactive'⟩ := ih
      (q := { q with activeTimers := q.activeTimers.erase ⟨entry.timer, t.sequence⟩ }) hrest hrest'
      fun id hid => hactive id (OrderedSet.mem_erase.mp hid).2
    refine ⟨active, ?_, ?_, fun id => ?_⟩
    · unfold eraseActive
      exact bind_eq_ok.mpr ⟨t, deref_of_some ht,
        bind_eq_ok.mpr ⟨(), require_of_true hmem, hok⟩⟩
    · have hsize' := OrderedSet.size_erase hmem
      rw [List.length_cons]
      change active.size + rest.length = (q.activeTimers.erase _).size at hsize
      omega
    · rw [hactive', OrderedSet.mem_erase, List.map_cons, List.mem_cons, not_or]
      constructor
      · rintro ⟨⟨hne, hid⟩, hnot'⟩
        refine ⟨hid, fun heq => hne ?_, hnot'⟩
        obtain ⟨t', ht', hsequence⟩ := hactive id hid
        rw [heq, ht] at ht'
        cases ht'
        cases id
        exact (TimerId.mk.injEq ..).mpr ⟨heq, hsequence.symm⟩
      · rintro ⟨hid, hne, hnot'⟩
        exact ⟨⟨fun heq => hne (congrArg TimerId.timer heq), hid⟩, hnot'⟩

/-- The order of the entries: an entry from the sentry on is later than `now`, because no timer
is at the last address. -/
theorem lt_of_sentry_le {now : ℤ} {e : Entry} (h : (⟨now, UINTPTR_MAX⟩ : Entry) ≤ e)
    (he : e.timer < UINTPTR_MAX) : now < e.expiration := by
  rcases Prod.Lex.le_iff.mp h with hlt | ⟨_, hle⟩
  · exact hlt
  · change UINTPTR_MAX ≤ e.timer at hle
    omega

/-- An entry below the sentry is not later than `now`. -/
theorem le_of_lt_sentry {now : ℤ} {e : Entry} (h : e < (⟨now, UINTPTR_MAX⟩ : Entry)) :
    e.expiration ≤ now := by
  rcases Prod.Lex.lt_iff.mp h with hlt | ⟨heq, _⟩
  · exact hlt.le
  · exact heq.le

/-- The sentry cuts `timers_` between the timers that have expired and the later ones. -/
theorem Tables.mem_below_iff (h : Tables q outside) {now : ℤ} {e : Entry} :
    e ∈ q.timers.below ⟨now, UINTPTR_MAX⟩ ↔ e ∈ q.timers ∧ e.expiration ≤ now := by
  have hmem := OrderedSet.mem_iff_below_or_above (s := q.timers) (x := ⟨now, UINTPTR_MAX⟩) (y := e)
  refine ⟨fun he => ⟨hmem.mpr (Or.inl he), le_of_lt_sentry (OrderedSet.lt_of_mem_below he)⟩, ?_⟩
  rintro ⟨he, hle⟩
  refine (hmem.mp he).resolve_right fun habove => ?_
  obtain ⟨t, ht, _⟩ := h.scheduled e he
  have hlt := lt_of_sentry_le (OrderedSet.le_of_mem_above habove) (h.heap _ t ht).1
  omega

/-- `getExpired` moves the timers that have expired out of the tables. -/
theorem Tables.getExpired (h : Tables q outside) (now : ℤ) :
    ∃ active, q.getExpired now = .ok ({ q with
        timers := q.timers.above ⟨now, UINTPTR_MAX⟩
        activeTimers := active }, q.timers.below ⟨now, UINTPTR_MAX⟩) ∧
      Tables { q with
        timers := q.timers.above ⟨now, UINTPTR_MAX⟩
        activeTimers := active }
        ((q.timers.below ⟨now, UINTPTR_MAX⟩).map Entry.timer ++ outside) ∧
      (∀ e ∈ q.timers.above ⟨now, UINTPTR_MAX⟩, now < e.expiration) ∧
      ∀ e ∈ q.timers.below ⟨now, UINTPTR_MAX⟩, e.expiration ≤ now := by
  generalize hsentry : (⟨now, UINTPTR_MAX⟩ : Entry) = sentry
  have hmem {e : Entry} : e ∈ q.timers ↔ e ∈ q.timers.below sentry ∨ e ∈ q.timers.above sentry :=
    OrderedSet.mem_iff_below_or_above
  have hlater : ∀ e ∈ q.timers.above sentry, now < e.expiration := by
    intro e he
    obtain ⟨t, ht, _⟩ := h.scheduled e (hmem.mpr (Or.inr he))
    exact lt_of_sentry_le (hsentry ▸ OrderedSet.le_of_mem_above he) (h.heap _ t ht).1
  have hnodup : ((q.timers.below sentry).map Entry.timer ++ outside ++
      addresses (q.timers.above sentry)).Nodup := by
    have hperm : (outside ++ addresses q.timers).Perm
        ((q.timers.below sentry).map Entry.timer ++ outside ++
          addresses (q.timers.above sentry)) := by
      unfold addresses
      rw [← q.timers.below_append_above sentry, List.map_append, ← List.append_assoc]
      exact List.perm_append_comm.append_right _
    exact hperm.nodup_iff.mp h.nodup
  have hbelow := (List.nodup_append.mp (List.nodup_append.mp hnodup).1).1
  have hentries : ∀ e ∈ q.timers.below sentry, ∃ t, q.heap e.timer = some t ∧
      (⟨e.timer, t.sequence⟩ : TimerId) ∈ q.activeTimers := by
    intro e he
    obtain ⟨t, ht, _⟩ := h.scheduled e (hmem.mpr (Or.inl he))
    refine ⟨t, ht, (h.active _).mpr ⟨t, ht, rfl, ?_⟩⟩
    rw [← h.entry_unique (hmem.mpr (Or.inl he)) ht]
    exact hmem.mpr (Or.inl he)
  obtain ⟨active, hok, hsize, hactive⟩ := eraseActive_eq
    (q := { q with timers := q.timers.above sentry }) hbelow hentries fun id hid => by
      obtain ⟨t, ht, hsequence, _⟩ := (h.active id).mp hid
      exact ⟨t, ht, hsequence⟩
  have hsizes : (q.timers.above sentry).size = active.size := by
    have htotal := q.timers.size_below_add_above sentry
    have hsizes := h.sizes
    change active.size + (q.timers.below sentry).length = q.activeTimers.size at hsize
    omega
  refine ⟨active, ?_, ⟨hnodup, fun timer htimer => ?_,
    fun e he => h.scheduled e (hmem.mpr (Or.inr he)), fun id => ?_, hsizes, h.heap⟩, hlater,
    fun e he => le_of_lt_sentry (hsentry ▸ OrderedSet.lt_of_mem_below he)⟩
  · unfold TimerQueue.getExpired
    rw [hsentry]
    refine bind_eq_ok.mpr ⟨(), require_of_true h.sizes, bind_eq_ok.mpr ⟨(),
      require_of_true fun e he => hlater e (OrderedSet.le_of_first? he).1,
      bind_eq_ok.mpr ⟨_, hok, bind_eq_ok.mpr ⟨(), require_of_true hsizes, rfl⟩⟩⟩⟩
  · rcases List.mem_append.mp htimer with htimer | htimer
    · obtain ⟨e, he, rfl⟩ := List.mem_map.mp htimer
      obtain ⟨t, ht, _⟩ := hentries e he
      exact ⟨t, ht⟩
    · exact h.allocated timer htimer
  · rw [hactive, h.active]
    constructor
    · rintro ⟨⟨t, ht, hsequence, he⟩, hnot⟩
      refine ⟨t, ht, hsequence, (hmem.mp he).resolve_left fun hbelow => hnot ?_⟩
      exact List.mem_map.mpr ⟨_, hbelow, rfl⟩
    · rintro ⟨t, ht, hsequence, he⟩
      refine ⟨⟨t, ht, hsequence, hmem.mpr (Or.inr he)⟩, fun hbelow => ?_⟩
      refine (List.nodup_append.mp hnodup).2.2 _ (List.mem_append_left _ hbelow) _ ?_ rfl
      exact List.mem_map.mpr ⟨_, he, rfl⟩

/-! ### Timers outside of the tables -/

/-- A timer outside of the tables may be written, or created if its address is free. -/
theorem Tables.update_heap {timer : ℕ} {t : Timer} (h : Tables q outside)
    (hnot : ∀ e ∈ q.timers, e.timer ≠ timer) (haddress : timer < UINTPTR_MAX)
    (hinterval : t.repeats = true → 0 ≤ t.interval) (n : ℕ) :
    Tables { q with heap := Function.update q.heap timer (some t), numCreated := n } outside := by
  have hheap {timer' : ℕ} (hne : timer' ≠ timer) :
      Function.update q.heap timer (some t) timer' = q.heap timer' := Function.update_of_ne hne ..
  refine ⟨h.nodup, fun timer' hmem => ?_, fun e he => ?_, fun id => ?_, h.sizes,
    fun timer' t' ht' => ?_⟩
  · by_cases heq : timer' = timer
    · subst heq
      exact ⟨t, Function.update_self ..⟩
    · obtain ⟨t', ht'⟩ := h.allocated timer' hmem
      exact ⟨t', (hheap heq).trans ht'⟩
  · obtain ⟨t', ht', hexpiration⟩ := h.scheduled e he
    exact ⟨t', (hheap (hnot e he)).trans ht', hexpiration⟩
  · rw [h.active]
    constructor
    · rintro ⟨t', ht', hsequence, hmem⟩
      exact ⟨t', (hheap (hnot _ hmem)).trans ht', hsequence, hmem⟩
    · rintro ⟨t', ht', hsequence, hmem⟩
      exact ⟨t', (hheap (hnot _ hmem)).symm.trans ht', hsequence, hmem⟩
  · change Function.update q.heap timer (some t) timer' = some t' at ht'
    by_cases heq : timer' = timer
    · subst heq
      rw [Function.update_self] at ht'
      cases ht'
      exact ⟨haddress, hinterval⟩
    · exact h.heap timer' t' ((hheap heq).symm.trans ht')

/-- A new timer is outside of the tables. -/
theorem Tables.newTimer {timer : ℕ} {interval : ℤ} {repeats : Bool} (h : Tables q outside)
    (hmay : q.MayCreate timer interval repeats) (expiration : ℤ) :
    Tables (q.newTimer timer expiration interval repeats) (timer :: outside) := by
  have ⟨_, haddress, hinterval⟩ := hmay
  have hscheduled : ∀ e ∈ q.timers, e.timer ≠ timer := by
    intro e he
    obtain ⟨t, ht, _⟩ := h.scheduled e he
    exact ne_of_allocated hmay ht
  have houtside : timer ∉ outside := by
    intro hmem
    obtain ⟨t, ht⟩ := h.allocated timer hmem
    exact ne_of_allocated hmay ht rfl
  have hnew := h.update_heap (t := ⟨expiration, interval, repeats, q.numCreated + 1⟩) hscheduled
    haddress hinterval (q.numCreated + 1)
  refine ⟨List.nodup_cons.mpr ⟨fun hmem => ?_, h.nodup⟩, fun timer' hmem => ?_, hnew.scheduled,
    hnew.active, hnew.sizes, hnew.heap⟩
  · rcases List.mem_append.mp hmem with hmem | hmem
    · exact houtside hmem
    · obtain ⟨e, he, heq⟩ := List.mem_map.mp hmem
      exact hscheduled e he heq
  · rcases List.mem_cons.mp hmem with rfl | hmem
    · exact ⟨_, Function.update_self ..⟩
    · exact hnew.allocated timer' hmem

/-- `reset` restarts this timer if it is in the batch. -/
def Restarts (q : TimerQueue) (timer : ℕ) (t : Timer) : Prop :=
  t.repeats = true ∧ (⟨timer, t.sequence⟩ : TimerId) ∉ q.cancelingTimers

instance (q : TimerQueue) (timer : ℕ) (t : Timer) : Decidable (q.Restarts timer t) :=
  inferInstanceAs (Decidable (_ ∧ _))

/-- The heap after `reset` of a batch with the timers at these addresses. -/
def restartedHeap (q : TimerQueue) (now : ℤ) (batch : List ℕ) (timer : ℕ) : Option Timer :=
  (q.heap timer).map fun t =>
    if timer ∈ batch ∧ q.Restarts timer t then t.restart now else t

/-- A timer outside of the batch stays as it is. -/
theorem restartedHeap_of_not_mem {batch : List ℕ} {timer : ℕ} (h : timer ∉ batch) (now : ℤ) :
    q.restartedHeap now batch timer = q.heap timer := by
  unfold restartedHeap
  simp only [h, false_and, if_false, Option.map_id']

/-- A timer of the batch is restarted or stays as it is. -/
theorem restartedHeap_of_mem {batch : List ℕ} {timer : ℕ} {t : Timer} (h : timer ∈ batch)
    (ht : q.heap timer = some t) (now : ℤ) : q.restartedHeap now batch timer =
      some (if q.Restarts timer t then t.restart now else t) := by
  unfold restartedHeap
  simp only [ht, h, true_and, Option.map_some]

/-- A timer that is restarted expires one interval later. -/
theorem expiration_restart {t : Timer} (h : t.repeats = true) (now : ℤ) :
    (t.restart now).expiration = now + t.interval := by
  unfold Timer.restart
  simp only [h, if_true]

/-- A timer on the heap after `reset` was there before, with the same number. -/
theorem exists_of_restartedHeap {now : ℤ} {batch : List ℕ} {timer : ℕ} {t : Timer}
    (h : q.restartedHeap now batch timer = some t) : ∃ t', q.heap timer = some t' ∧
      t.sequence = t'.sequence ∧ t.repeats = t'.repeats := by
  obtain ⟨t', ht', rfl⟩ := Option.map_eq_some_iff.mp h
  refine ⟨t', ht', ?_⟩
  split <;> exact ⟨rfl, rfl⟩

/-- Restarting the first timer of a batch and then the others restarts the batch. -/
theorem restartedHeap_cons {timer : ℕ} {t : Timer} {batch : List ℕ} (now : ℤ)
    (ht : q.heap timer = some t) (hnot : timer ∉ batch) :
    restartedHeap { q with
        heap := Function.update q.heap timer
          (some (if q.Restarts timer t then t.restart now else t)) } now batch =
      q.restartedHeap now (timer :: batch) := by
  funext timer'
  unfold restartedHeap
  by_cases heq : timer' = timer
  · subst heq
    simp only [Function.update_self, ht, Option.map_some, hnot, false_and, if_false,
      List.mem_cons_self, true_and]
  · simp only [Function.update_of_ne heq, List.mem_cons, heq, false_or]
    rfl

/-- The loop of `reset` puts repeating timers that were not cancelled back into the tables. -/
theorem Tables.restartTimers {entries : List Entry}
    (h : Tables q (entries.map Entry.timer ++ outside)) (now : ℤ) :
    ∃ timers active, q.restartTimers now entries = .ok { q with
        heap := q.restartedHeap now (entries.map Entry.timer)
        timers := timers
        activeTimers := active } ∧
      Tables { q with
        heap := q.restartedHeap now (entries.map Entry.timer)
        timers := timers
        activeTimers := active } outside ∧
      ∀ e, e ∈ timers ↔ e ∈ q.timers ∨ e.timer ∈ entries.map Entry.timer ∧
        ∃ t, q.heap e.timer = some t ∧ q.Restarts e.timer t ∧ e.expiration = now + t.interval := by
  induction entries generalizing q with
  | nil =>
    have hsame : q.restartedHeap now [] = q.heap := by
      funext timer
      unfold restartedHeap
      simp
    refine ⟨q.timers, q.activeTimers, ?_, ?_, fun e => by simp⟩
    · rw [List.map_nil, hsame]
      rfl
    · rw [List.map_nil, hsame]
      exact h
  | cons entry rest ih =>
    obtain ⟨t, ht⟩ := h.allocated entry.timer List.mem_cons_self
    have hnot : entry.timer ∉ rest.map Entry.timer := by
      have hnodup := (List.nodup_cons.mp h.nodup).1
      exact fun hmem => hnodup (List.mem_append_left _ (List.mem_append_left _ hmem))
    have hcons := restartedHeap_cons now ht hnot
    have hother {timer : ℕ} (hmem : timer ∈ rest.map Entry.timer) : timer ≠ entry.timer :=
      fun heq => hnot (heq ▸ hmem)
    by_cases hrestart : q.Restarts entry.timer t
    · have hfree : ∀ e ∈ q.timers, e.timer ≠ entry.timer := fun e he heq =>
        h.not_mem he (heq ▸ List.mem_cons_self)
      obtain ⟨haddress, hinterval⟩ := h.heap _ t ht
      have hwritten := h.update_heap (t := t.restart now) hfree haddress hinterval q.numCreated
      obtain ⟨hinsert, htables⟩ := hwritten.insert (t := t.restart now)
        (Function.update_self ..)
      obtain ⟨timers, active, hok, htables', htimers⟩ := ih htables
      rw [if_pos hrestart] at hcons
      have hheap : (withTimer { q with
          heap := Function.update q.heap entry.timer (some (t.restart now))
          numCreated := q.numCreated } entry.timer (t.restart now)).restartedHeap now
            (rest.map Entry.timer) = q.restartedHeap now (entry.timer :: rest.map Entry.timer) :=
        hcons
      rw [hheap] at hok htables'
      refine ⟨timers, active, ?_, htables', fun e => ?_⟩
      · unfold TimerQueue.restartTimers
        refine bind_eq_ok.mpr ⟨t, deref_of_some ht, (if_pos hrestart).trans ?_⟩
        exact bind_eq_ok.mpr ⟨_, hinsert, hok⟩
      · rw [htimers, List.map_cons, List.mem_cons]
        change e ∈ q.timers.insert _ ∨ _ ∧ (∃ t', Function.update q.heap entry.timer _ e.timer = _ ∧
          q.Restarts e.timer t' ∧ _) ↔ _
        rw [OrderedSet.mem_insert, expiration_restart hrestart.1]
        constructor
        · rintro ((rfl | he) | ⟨hmem, t', ht', hrest⟩)
          · exact Or.inr ⟨Or.inl rfl, t, ht, hrestart, rfl⟩
          · exact Or.inl he
          · rw [Function.update_of_ne (hother hmem)] at ht'
            exact Or.inr ⟨Or.inr hmem, t', ht', hrest⟩
        · rintro (he | ⟨heq | hmem, t', ht', hrestart', hexpiration⟩)
          · exact Or.inl (Or.inr he)
          · obtain ⟨expiration, timer⟩ := e
            change timer = entry.timer at heq
            subst heq
            obtain rfl := Option.some.inj (ht.symm.trans ht')
            exact Or.inl (Or.inl ((Entry.mk.injEq ..).mpr ⟨hexpiration, rfl⟩))
          · refine Or.inr ⟨hmem, t', ?_, hrestart', hexpiration⟩
            rw [Function.update_of_ne (hother hmem)]
            exact ht'
    · rw [if_neg hrestart, Function.update_eq_self_iff.mpr ht.symm] at hcons
      obtain ⟨timers, active, hok, htables, htimers⟩ :=
        ih (h.subperm (List.sublist_cons_self ..).subperm)
      have hheap : q.restartedHeap now (rest.map Entry.timer) =
          q.restartedHeap now (entry.timer :: rest.map Entry.timer) := hcons
      rw [hheap] at hok htables
      refine ⟨timers, active, ?_, htables, fun e => ?_⟩
      · unfold TimerQueue.restartTimers
        exact bind_eq_ok.mpr ⟨t, deref_of_some ht, (if_neg hrestart).trans hok⟩
      · rw [htimers, List.map_cons, List.mem_cons]
        refine or_congr_right ⟨fun hin => ⟨Or.inr hin.1, hin.2⟩, ?_⟩
        rintro ⟨heq | hmem, t', ht', hrestart', hexpiration⟩
        · rw [heq] at ht' hrestart'
          obtain rfl := Option.some.inj (ht.symm.trans ht')
          exact absurd hrestart' hrestart
        · exact ⟨hmem, t', ht', hrestart', hexpiration⟩

end Dalin.Net.TimerQueue
