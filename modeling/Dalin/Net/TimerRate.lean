import Dalin.Net.TimerStale

/-!
# The rate of the timers

The callback of a timer is started when the clock of a `handleRead` has reached
its expiration, and `reset` sets the expiration of a repeating timer from that
same reading. So the starts of a timer are at least its interval apart, by these
readings, whatever the clock does between them and however late `handleRead` is.
-/

set_option autoImplicit false

namespace Dalin.Net

open Transition

/-- The start of a callback, with the timer as it was then. -/
structure TimerStart where
  id : TimerId
  /-- The clock reading of the `handleRead`. -/
  now : ℤ
  expiration : ℤ
  interval : ℤ
  repeats : Bool

/-- A timer queue with the starts so far, oldest first. -/
structure TimedQueue where
  queue : TimerQueue
  starts : List TimerStart

/-- The start that a step makes. -/
def TimerQueue.startOf (q : TimerQueue) : TimerAction → Option TimerStart
  | .runTimer =>
    match q.batch with
    | some ⟨now, _, entry :: _, _⟩ => (q.heap entry.timer).map fun t =>
      ⟨⟨entry.timer, t.sequence⟩, now, t.expiration, t.interval, t.repeats⟩
    | _ => none
  | _ => none

/-- All runs of a timer queue, with the starts of the callbacks. -/
def timedSystem : System TimedQueue TimerAction Failure where
  init s := timerRuns.init s.queue ∧ s.starts = []
  enabled s a := timerRuns.enabled s.queue a
  exec s a := do
    let q ← timerRuns.exec s.queue a
    return ⟨q, s.starts ++ (s.queue.startOf a).toList⟩

instance (s : TimedQueue) (a : TimerAction) : Decidable (timedSystem.enabled s a) :=
  inferInstanceAs (Decidable (s.queue.mayStep a))

namespace TimerQueue

variable {q q' : TimerQueue} {timer : ℕ} {t : Timer} {a : TimerAction} {start : TimerStart}

/-- Only the call of the next `run()` starts a callback. -/
theorem startOf_eq_some (h : q.startOf a = some start) :
    a = .runTimer ∧ ∃ b ∈ q.batch, ∃ entry rest t, b.rest = entry :: rest ∧
      q.heap entry.timer = some t ∧
      start = ⟨⟨entry.timer, t.sequence⟩, b.now, t.expiration, t.interval, t.repeats⟩ := by
  unfold startOf at h
  split at h
  · split at h
    · rename_i now expired entry rest inCallback hb
      obtain ⟨t, ht, rfl⟩ := Option.map_eq_some_iff.mp h
      exact ⟨rfl, _, hb, entry, rest, t, rfl, ht, rfl⟩
    · cases h
  · cases h

/-- The callback of this timer may be started without a restart of the timer. -/
def Waiting (q : TimerQueue) (timer : ℕ) : Prop :=
  timer ∈ q.pendingTimers ∨ (∃ e ∈ q.timers, e.timer = timer) ∨
    ∃ b ∈ q.batch, timer ∈ b.rest.map Entry.timer

/-- A timer that waits has waited before, unless it is new or restarted. -/
theorem Stepped.waiting (h : q.Stepped a q') (hnew : ∀ id ∈ q.newId a, id.timer ≠ timer)
    (hwaiting : q'.Waiting timer) : q.Waiting timer ∨ ∃ clock b t, a = .reset clock ∧
      q.batch = some b ∧ timer ∈ q.expiredTimers ∧ q.heap timer = some t ∧
      q.Restarts timer t := by
  unfold Waiting at hwaiting
  simp only [h.pending, h.timers, h.batch] at hwaiting
  cases a with
  | addTimer timer' =>
    rcases hwaiting with hmem | ⟨e, he | rfl, heq⟩ | hbatch
    · exact .inl (.inl hmem)
    · exact .inl (.inr (.inl ⟨e, he, heq⟩))
    · exact absurd heq (hnew _ rfl)
    · exact .inl (.inr (.inr hbatch))
  | foreignAddTimer timer' =>
    rcases hwaiting with hmem | hrest
    · rcases List.mem_append.mp hmem with hold | hlast
      · exact .inl (.inl hold)
      · exact absurd (List.mem_singleton.mp hlast).symm (hnew _ rfl)
    · exact .inl (.inr hrest)
  | runPending now =>
    rcases hwaiting with hmem | ⟨e, he | ⟨hhead, -⟩, heq⟩ | hbatch
    · exact .inl (.inl (List.mem_of_mem_tail hmem))
    · exact .inl (.inr (.inl ⟨e, he, heq⟩))
    · exact .inl (.inl (heq ▸ List.mem_of_head? hhead))
    · exact .inl (.inr (.inr hbatch))
  | cancel target =>
    rcases hwaiting with hmem | ⟨e, he, heq⟩ | hbatch
    · exact .inl (.inl hmem)
    · exact .inl (.inr (.inl ⟨e, he.1, heq⟩))
    · exact .inl (.inr (.inr hbatch))
  | handleRead now =>
    rcases hwaiting with hmem | ⟨e, he, heq⟩ | ⟨b, hb, hmem⟩
    · exact .inl (.inl hmem)
    · exact .inl (.inr (.inl ⟨e, he.1, heq⟩))
    · obtain rfl := Option.some.inj hb
      obtain ⟨e, he, heq⟩ := List.mem_map.mp hmem
      exact .inl (.inr (.inl ⟨e, OrderedSet.mem_iff_below_or_above.mpr (.inl he), heq⟩))
  | runTimer =>
    rcases hwaiting with hmem | htimers | ⟨b', hb', hmem⟩
    · exact .inl (.inl hmem)
    · exact .inl (.inr (.inl htimers))
    · obtain ⟨b, hb, rfl⟩ := Option.map_eq_some_iff.mp hb'
      exact .inl (.inr (.inr ⟨b, hb, ((List.tail_sublist b.rest).map Entry.timer).subset hmem⟩))
  | callbackReturns =>
    rcases hwaiting with hmem | htimers | ⟨b', hb', hmem⟩
    · exact .inl (.inl hmem)
    · exact .inl (.inr (.inl htimers))
    · obtain ⟨b, hb, rfl⟩ := Option.map_eq_some_iff.mp hb'
      exact .inl (.inr (.inr ⟨b, hb, hmem⟩))
  | reset clock =>
    rcases hwaiting with hmem | ⟨e, he | ⟨b, hb, hexpired, t, ht, hrestarts, -⟩, heq⟩ | ⟨b, hb, -⟩
    · exact .inl (.inl hmem)
    · exact .inl (.inr (.inl ⟨e, he, heq⟩))
    · subst heq
      exact .inr ⟨clock, b, t, rfl, hb, hexpired, ht, hrestarts⟩
    · cases hb
  | expire => exact .inl hwaiting

/-- A timer on the heap is new, or was there before and is unchanged or restarted. -/
theorem Stepped.heap_before (h : q.Stepped a q') (ht : q'.heap timer = some t) :
    (⟨timer, t.sequence⟩ : TimerId) ∈ q.newId a ∨ (∀ id ∈ q.newId a, id.timer ≠ timer) ∧
      ∃ t₀, q.heap timer = some t₀ ∧ (t = t₀ ∨ ∃ b ∈ q.batch, timer ∈ q.expiredTimers ∧
        t₀.repeats = true ∧ t = t₀.restart b.now) := by
  rcases h.exists_of_heap ht with hnew | ⟨hother, t₀, ht₀, -⟩
  · exact .inl hnew
  refine .inr ⟨hother, t₀, ht₀, ?_⟩
  rw [h.heap] at ht
  cases a with
  | addTimer =>
    rw [heapAfter, Function.update_of_ne (hother _ rfl).symm, ht₀] at ht
    exact .inl (Option.some.inj ht).symm
  | foreignAddTimer =>
    rw [heapAfter, Function.update_of_ne (hother _ rfl).symm, ht₀] at ht
    exact .inl (Option.some.inj ht).symm
  | cancel id =>
    rw [heapAfter_cancel] at ht
    split at ht
    · by_cases heq : timer = id.timer
      · rw [heq, Function.update_self] at ht
        cases ht
      · rw [Function.update_of_ne heq, ht₀] at ht
        exact .inl (Option.some.inj ht).symm
    · rw [ht₀] at ht
      exact .inl (Option.some.inj ht).symm
  | reset clock =>
    cases hb : q.batch with
    | none =>
      simp only [heapAfter, hb, ht₀] at ht
      exact .inl (Option.some.inj ht).symm
    | some b =>
      rw [heapAfter_reset hb] at ht
      by_cases hexpired : timer ∈ q.expiredTimers
      · rw [restartedHeap_of_mem hexpired ht₀] at ht
        split at ht
        · rename_i hrestarts
          exact .inr ⟨b, rfl, hexpired, hrestarts.1, (Option.some.inj ht).symm⟩
        · exact .inl (Option.some.inj ht).symm
      · rw [restartedHeap_of_not_mem hexpired, ht₀] at ht
        exact .inl (Option.some.inj ht).symm
  | _ => exact .inl (Option.some.inj (ht₀.symm.trans ht)).symm

/-- The timer of an earlier start: if it may start again, then one interval later. -/
structure Followed (q : TimerQueue) (start : TimerStart) (t : Timer) : Prop where
  interval : t.interval = start.interval
  repeats : t.repeats = start.repeats
  waiting : q.Waiting start.id.timer → t.repeats = true ∧ start.now + t.interval ≤ t.expiration
  batch : ∀ b ∈ q.batch, start.id.timer ∈ q.expiredTimers → start.now ≤ b.now

end TimerQueue

open TimerQueue

namespace TimedQueue

variable {s s' : TimedQueue} {a : TimerAction}

/-- What a run keeps of the starts. -/
structure OnTime (s : TimedQueue) : Prop where
  agreed : s.queue.Agreed
  numbered : s.queue.Numbered
  batch : ∀ b ∈ s.queue.batch, ∀ timer ∈ s.queue.expiredTimers, ∀ t ∈ s.queue.heap timer,
    t.expiration ≤ b.now
  bounded : ∀ start ∈ s.starts, start.id.sequence ≤ s.queue.numCreated
  followed : ∀ start ∈ s.starts, ∀ t ∈ s.queue.heap start.id.timer,
    t.sequence = start.id.sequence → s.queue.Followed start t
  early : ∀ start ∈ s.starts, start.expiration ≤ start.now
  spaced : s.starts.Pairwise fun start start' => start.id = start'.id →
    start.repeats = true ∧ start'.interval = start.interval ∧
      start.now + start.interval ≤ start'.expiration

/-- It holds in a new queue. -/
theorem OnTime.of_init (h : timedSystem.init s) : s.OnTime := by
  obtain ⟨hinit, hstarts⟩ := h
  have hagreed := Agreed.of_init hinit
  refine ⟨hagreed, .of_init hinit, fun b hb => ?_, ?_, ?_, ?_, ?_⟩
  · rw [hinit.2.2.2.2.2.2.1] at hb
    cases hb
  · simp [hstarts]
  · simp [hstarts]
  · simp [hstarts]
  · simp [hstarts]

/-- A timer of the batch that is due stays so. -/
theorem OnTime.batch_step (h : s.OnTime) (hmay : s.queue.mayStep a) {q' : TimerQueue}
    (hstepped : s.queue.Stepped a q') {b : Batch} (hb : b ∈ q'.batch) {timer : ℕ}
    (htimer : timer ∈ q'.expiredTimers) {t : Timer} (ht : t ∈ q'.heap timer) :
    t.expiration ≤ b.now := by
  rw [hstepped.expiredTimers] at htimer
  rcases now_of_step hstepped hb with rfl | ⟨b₀, hb₀, hnow⟩
  · obtain ⟨e, he, rfl⟩ := List.mem_map.mp htimer
    obtain ⟨hmem, hle⟩ := h.agreed.tables.mem_below_iff.mp he
    obtain ⟨t₀, ht₀, hexpiration⟩ := h.agreed.tables.scheduled e hmem
    rw [hstepped.heap] at ht
    cases ht₀.symm.trans ht
    rw [hexpiration]
    exact hle
  · rw [← hnow]
    cases a with
    | handleRead now =>
      have hnone := Option.isNone_iff_eq_none.mp hmay
      rw [hnone] at hb₀
      cases hb₀
    | reset clock => cases htimer
    | _ =>
      rw [h.agreed.heap_of_expired hmay hstepped (by simp) htimer] at ht
      exact h.batch b₀ hb₀ timer htimer t ht

/-- The timers of earlier starts are followed through a step. -/
theorem OnTime.followed_step (h : s.OnTime) (hmay : s.queue.mayStep a) {q' : TimerQueue}
    (hstepped : s.queue.Stepped a q') {start : TimerStart} (hstart : start ∈ s.starts) {t : Timer}
    (ht : t ∈ q'.heap start.id.timer) (hsequence : t.sequence = start.id.sequence) :
    q'.Followed start t := by
  rcases hstepped.heap_before ht with hnew | ⟨hother, t₀, ht₀, hchange⟩
  · have hnumber := sequence_of_newId hnew
    have hle := h.bounded start hstart
    change t.sequence = _ at hnumber
    omega
  have hsame : t.interval = t₀.interval ∧ t.repeats = t₀.repeats ∧ t.sequence = t₀.sequence := by
    rcases hchange with rfl | ⟨b, -, -, -, rfl⟩
    · exact ⟨rfl, rfl, rfl⟩
    · exact ⟨rfl, rfl, rfl⟩
  have hwas := h.followed start hstart t₀ ht₀ (hsame.2.2.symm.trans hsequence)
  have hrestarted {b : Batch} (hb : b ∈ s.queue.batch)
      (hexpired : start.id.timer ∈ s.queue.expiredTimers) (hrepeats : t₀.repeats = true)
      (hnow : t = t₀.restart b.now) :
      t.repeats = true ∧ start.now + t.interval ≤ t.expiration := by
    have hle := hwas.batch b hb hexpired
    rw [hnow, expiration_restart hrepeats]
    exact ⟨hrepeats, Int.add_le_add_right hle _⟩
  refine ⟨hsame.1.trans hwas.interval, hsame.2.1.trans hwas.repeats, fun hwaiting => ?_,
    fun b hb hexpired => ?_⟩
  · rcases hstepped.waiting hother hwaiting with
      hwaiting | ⟨clock, b, t₁, rfl, hb, hexpired, ht₁, hrestarts⟩
    · rcases hchange with rfl | ⟨b, hb, hexpired, hrepeats, hnow⟩
      · exact hwas.waiting hwaiting
      · exact hrestarted hb hexpired hrepeats hnow
    · cases ht₀.symm.trans ht₁
      refine hrestarted hb hexpired hrestarts.1 ?_
      rw [hstepped.heap, heapAfter_reset hb, restartedHeap_of_mem hexpired ht₀,
        if_pos hrestarts] at ht
      exact (Option.some.inj ht).symm
  · rw [hstepped.expiredTimers] at hexpired
    rcases now_of_step hstepped hb with rfl | ⟨b₀, hb₀, hnow⟩
    · obtain ⟨e, he, heq⟩ := List.mem_map.mp hexpired
      obtain ⟨hmem, hle⟩ := h.agreed.tables.mem_below_iff.mp he
      obtain ⟨t₁, ht₁, hexpiration⟩ := h.agreed.tables.scheduled e hmem
      rw [heq] at ht₁
      cases ht₀.symm.trans ht₁
      obtain ⟨hrepeats, hspaced⟩ := hwas.waiting (.inr (.inl ⟨e, hmem, heq⟩))
      have hinterval := (h.agreed.tables.heap _ t₀ ht₀).2 hrepeats
      omega
    · rw [← hnow]
      cases a with
      | handleRead now =>
        have hnone := Option.isNone_iff_eq_none.mp hmay
        rw [hnone] at hb₀
        cases hb₀
      | reset clock => cases hexpired
      | _ => exact hwas.batch b₀ hb₀ hexpired

/-- A timer that is started does not wait any more. -/
theorem not_waiting_of_start {q q' : TimerQueue} (hagreed : q.Agreed)
    (hstepped : q.Stepped .runTimer q') {b : Batch} (hb : q.batch = some b)
    {entry : TimerQueue.Entry} {rest : List TimerQueue.Entry} (hrest : b.rest = entry :: rest) :
    ¬q'.Waiting entry.timer := by
  have hnodup := hagreed.tables.nodup
  rw [expiredTimers_of_some hb] at hnodup
  have hsuffix := hagreed.batch b hb
  rw [hrest] at hsuffix
  have hexpired : entry.timer ∈ b.expired.map TimerQueue.Entry.timer :=
    List.mem_map_of_mem (hsuffix.subset List.mem_cons_self)
  unfold Waiting
  simp only [hstepped.pending, hstepped.timers, hstepped.batch]
  rintro (hmem | ⟨e, he, heq⟩ | ⟨b', hb', hmem⟩)
  · have hdisjoint := (List.nodup_append.mp (List.nodup_append.mp hnodup).1).2.2
    exact hdisjoint _ hexpired _ hmem rfl
  · refine hagreed.not_mem_of_expired he ?_
    rw [heq, expiredTimers_of_some hb]
    exact hexpired
  · simp only [batchAfter, hb, Option.map_some] at hb'
    cases hb'
    rw [hrest] at hmem
    have hdistinct : ((entry :: rest).map TimerQueue.Entry.timer).Nodup :=
      (List.nodup_append.mp (List.nodup_append.mp hnodup).1).1.sublist
        (hsuffix.sublist.map TimerQueue.Entry.timer)
    exact (List.nodup_cons.mp hdistinct).1 hmem

/-- Every step keeps the starts on time. -/
theorem OnTime.step (h : s.OnTime) (hmay : timedSystem.enabled s a)
    (hexec : timedSystem.exec s a = .ok s') : s'.OnTime := by
  obtain ⟨q', hok, hnow⟩ := bind_eq_ok.mp hexec
  cases hnow
  obtain ⟨hagreed, hstepped⟩ := h.agreed.of_step hmay hok
  have hgrows : s.queue.numCreated ≤ q'.numCreated :=
    hstepped.numCreated ▸ Nat.le_add_right ..
  have hbatch : ∀ b ∈ q'.batch, ∀ timer ∈ q'.expiredTimers, ∀ t ∈ q'.heap timer,
      t.expiration ≤ b.now := fun b hb timer htimer t ht => h.batch_step hmay hstepped hb htimer ht
  have hfollowed : ∀ start ∈ s.starts, ∀ t ∈ q'.heap start.id.timer,
      t.sequence = start.id.sequence → q'.Followed start t :=
    fun start hstart t ht hsequence => h.followed_step hmay hstepped hstart ht hsequence
  have hbounded : ∀ start ∈ s.starts, start.id.sequence ≤ q'.numCreated :=
    fun start hstart => (h.bounded start hstart).trans hgrows
  cases hstart : s.queue.startOf a with
  | none =>
    simp only [Option.toList_none, List.append_nil]
    exact ⟨hagreed, h.numbered.step hstepped, hbatch, hbounded, hfollowed, h.early, h.spaced⟩
  | some new =>
    obtain ⟨rfl, b, hb, entry, rest, t, hrest, ht, rfl⟩ := startOf_eq_some hstart
    have hexpired : entry.timer ∈ s.queue.expiredTimers := by
      rw [expiredTimers_of_some hb]
      refine List.mem_map_of_mem ((h.agreed.batch b hb).subset ?_)
      rw [hrest]
      exact List.mem_cons_self
    have hwaiting : s.queue.Waiting entry.timer := by
      refine .inr (.inr ⟨b, hb, ?_⟩)
      rw [hrest]
      exact List.mem_cons_self
    have hdue := h.batch b hb entry.timer hexpired t ht
    simp only [Option.toList_some]
    refine ⟨hagreed, h.numbered.step hstepped, hbatch, fun start hmem => ?_, fun start hmem => ?_,
      fun start hmem => ?_, ?_⟩
    · rcases List.mem_append.mp hmem with hold | hnew
      · exact hbounded start hold
      · cases List.mem_singleton.mp hnew
        exact (h.numbered.bounded _ (h.numbered.known _ t ht)).trans hgrows
    · rcases List.mem_append.mp hmem with hold | hnew
      · exact hfollowed start hold
      · cases List.mem_singleton.mp hnew
        intro t' ht' _
        rw [hstepped.heap] at ht'
        cases ht.symm.trans ht'
        refine ⟨rfl, rfl, fun hno => ?_, fun b' hb' _ => ?_⟩
        · exact absurd hno (not_waiting_of_start h.agreed hstepped hb hrest)
        · rcases now_of_step hstepped hb' with heq | ⟨b₀, hb₀, hnow⟩
          · cases heq
          · cases hb.symm.trans hb₀
            exact hnow.le
    · rcases List.mem_append.mp hmem with hold | hnew
      · exact h.early start hold
      · cases List.mem_singleton.mp hnew
        exact hdue
    · refine List.pairwise_append.mpr ⟨h.spaced, List.pairwise_singleton .., ?_⟩
      intro start hold new hnew hid
      cases List.mem_singleton.mp hnew
      obtain ⟨hinterval, hrepeats, hspaced, -⟩ := h.followed start hold t (hid ▸ ht) (hid ▸ rfl)
      obtain ⟨hyes, hle⟩ := hspaced (hid ▸ hwaiting)
      refine ⟨hrepeats ▸ hyes, hinterval, ?_⟩
      rw [← hinterval]
      exact hle

/-- Starts of one timer have one interval. -/
theorem OnTime.same_interval (h : s.OnTime) {start start' : TimerStart} (hstart : start ∈ s.starts)
    (hstart' : start' ∈ s.starts) (hid : start.id = start'.id) :
    start.interval = start'.interval := by
  have hall : s.starts.Pairwise fun x y => x.id = y.id → x.interval = y.interval :=
    h.spaced.imp fun hxy hid => (hxy hid).2.1.symm
  exact List.Pairwise.forall_of_forall_of_flip (fun _ _ _ => rfl) hall
    (hall.imp fun hxy hid => (hxy hid.symm).symm) hstart hstart' hid

/-- Readings that are `d` apart and lie in a window. -/
theorem spaced_length_le {d hi : ℤ} (lo : ℤ) {readings : List ℤ} (hne : readings ≠ [])
    (hspaced : readings.Pairwise fun x y => x + d ≤ y) (hin : ∀ x ∈ readings, lo ≤ x ∧ x ≤ hi) :
    ((readings.length : ℤ) - 1) * d ≤ hi - lo := by
  induction readings generalizing lo with
  | nil => exact absurd rfl hne
  | cons x rest ih =>
    obtain ⟨hlo, hhi⟩ := hin x List.mem_cons_self
    cases rest with
    | nil =>
      rw [List.length_singleton]
      omega
    | cons y rest =>
      obtain ⟨hfirst, hrest⟩ := List.pairwise_cons.mp hspaced
      have hwindow := ih (x + d) (by simp) hrest fun z hz =>
        ⟨hfirst z hz, (hin z (List.mem_cons_of_mem _ hz)).2⟩
      have hlength : ((x :: y :: rest).length : ℤ) - 1 = ((y :: rest).length : ℤ) - 1 + 1 := by
        simp only [List.length_cons]
        omega
      rw [hlength, Int.add_mul, Int.one_mul]
      generalize (((y :: rest).length : ℤ) - 1) * d = steps at hwindow ⊢
      omega

/-- **Timers keep their rate.** In every run, however late `handleRead` is and whatever the clock
does, as long as no sum of a time and an interval leaves the range of `int64_t`, no callback is
started before its timer is due, a timer that does not repeat is started at most once, and a
repeating one is not due again before an interval has passed since the reading of an earlier start.
So in any window of clock readings it is started at most once per interval, and once more. -/
theorem timers_keep_rate (h : timedSystem.Reachable s) :
    (∀ start ∈ s.starts, start.expiration ≤ start.now) ∧
      s.starts.Pairwise (fun start start' => start.id = start'.id → start.repeats = true ∧
        start'.interval = start.interval ∧ start.now + start.interval ≤ start'.expiration) ∧
      ∀ start ∈ s.starts, ∀ lo hi, lo ≤ start.now → start.now ≤ hi →
        ((s.starts.countP fun start' =>
          start'.id = start.id ∧ lo ≤ start'.now ∧ start'.now ≤ hi : ℤ) - 1) * start.interval ≤
            hi - lo := by
  have htime := h.invariant OnTime.of_init fun hI henabled hexec => hI.step henabled hexec
  refine ⟨htime.early, htime.spaced, fun start hstart lo hi hlo hhi => ?_⟩
  rw [List.countP_eq_length_filter, ← List.length_map TimerStart.now]
  refine spaced_length_le lo ?_ ?_ fun x hx => ?_
  · exact List.ne_nil_of_mem (List.mem_map_of_mem (List.mem_filter.mpr
      ⟨hstart, decide_eq_true ⟨rfl, hlo, hhi⟩⟩))
  · refine List.pairwise_map.mpr ?_
    refine List.Pairwise.imp_of_mem ?_ (htime.spaced.sublist List.filter_sublist)
    intro first second hfirst hsecond hspaced
    obtain ⟨hfirst, hid⟩ := List.mem_filter.mp hfirst
    obtain ⟨hsecond, hid'⟩ := List.mem_filter.mp hsecond
    have hid := (of_decide_eq_true hid).1
    have hid' := (of_decide_eq_true hid').1
    obtain ⟨-, -, hle⟩ := hspaced (hid.trans hid'.symm)
    rw [htime.same_interval hfirst hstart hid] at hle
    exact hle.trans (htime.early second hsecond)
  · obtain ⟨start', hmem, rfl⟩ := List.mem_map.mp hx
    exact (of_decide_eq_true (List.mem_filter.mp hmem).2).2

/-- A timer that repeats every 50 microseconds, and a late `handleRead`. -/
def lateRead : List TimerAction :=
  [.addTimer 5 100 50 true 10, .expire, .handleRead 180, .runTimer, .callbackReturns, .reset 181,
    .expire, .handleRead 230, .runTimer, .callbackReturns, .reset 231]

/-- The timer was started twice, and not before it was due. -/
theorem timers_keep_rate_lateRead : ∃ s : TimedQueue, s.starts.length = 2 ∧
    ∀ start ∈ s.starts, start.expiration ≤ start.now := by
  have hcheck : (timedSystem.replay ⟨newQueue, []⟩ lateRead).any
      (fun s => decide (s.starts.length = 2)) = true := by decide +kernel
  obtain ⟨s, hrun, hs⟩ := System.exists_run_of_replay hcheck
  have hinit : timedSystem.init ⟨newQueue, []⟩ := ⟨newQueue_init, rfl⟩
  exact ⟨s, of_decide_eq_true hs, (timers_keep_rate ⟨_, _, hinit, hrun⟩).1⟩

end TimedQueue

end Dalin.Net
