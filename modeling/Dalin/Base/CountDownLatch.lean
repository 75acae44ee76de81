import Dalin.Library.Monitor

/-!
# The count-down latch

The member functions of `CountDownLatch` hold `mutex_` from their first to their
last line, so the latch is a monitor, and its threads may stop between any two
operations on the mutex and the condition. Nobody gets past `wait` early, and
nobody is left behind: the one `notifyAll` that the latch makes on its way down is
enough. The count is an `int`, and it is told from the calls in runs that do not
take it below the range of its type.
-/

set_option autoImplicit false

namespace Dalin

open Monitors Transition

/-- The member functions of `CountDownLatch`. -/
inductive LatchCall
  | wait
  | countDown
  | getCount
  deriving DecidableEq

/-- `CountDownLatch`. Its data is `count_`, and its only condition is `cond_`. -/
def countDownLatch : Monitor (BitVec 32) LatchCall Unit (Option (BitVec 32)) where
  guard
    -- `while (count_ > 0)`
    | .wait, count => !decide (0 < count.toInt)
    | _, _ => true
  cond
    | .wait => some ()
    | _ => none
  body
    | .countDown, count => count - 1
    | _, count => count
  result
    | .getCount, count => some count
    | _, _ => none
  signal
    | .countDown, count => if count - 1 = 0 then .all () else .silent
    | _, _ => .silent

/-- A latch in use by the threads `θ`. -/
abbrev LatchState (θ : Type*) := State θ (BitVec 32) LatchCall Unit (Option (BitVec 32))

/-- A latch with this count in the hands of some threads, each of which may call all of its
functions as often as it likes. -/
def latchSystem (θ : Type*) [DecidableEq θ] (count : BitVec 32) :
    System (LatchState θ) (Action θ LatchCall) Empty :=
  countDownLatch.system (fun _ _ => True) count

instance {θ : Type*} [Fintype θ] [DecidableEq θ] (count : BitVec 32) (s : LatchState θ)
    (a : Action θ LatchCall) : Decidable ((latchSystem θ count).enabled s a) :=
  inferInstanceAs (Decidable (s.enabled countDownLatch (fun _ _ => True) a))

namespace LatchCall

variable {θ : Type*} {n count : BitVec 32}
  {entries entries' : List (Entry θ LatchCall (Option (BitVec 32)))}

/-- How often `countDown` is among some calls. -/
def countDowns (entries : List (Entry θ LatchCall (Option (BitVec 32)))) : ℕ :=
  entries.countP fun e => e.call = .countDown

/-- No `--count_` among these calls of a latch for `n` takes the count below the range of `int`. -/
def InRange (n : BitVec 32) (entries : List (Entry θ LatchCall (Option (BitVec 32)))) : Prop :=
  -2147483648 ≤ n.toInt - countDowns entries

instance : Decidable (InRange n entries) := inferInstanceAs (Decidable (_ ≤ _))

/-- The `countDown`s of two lists of calls add up. -/
theorem countDowns_append :
    countDowns (entries ++ entries') = countDowns entries + countDowns entries' :=
  List.countP_append

/-- The beginning of a list of calls has no more `countDown`s. -/
theorem countDowns_le_of_beginning (h : entries <+: entries') :
    countDowns entries ≤ countDowns entries' :=
  h.sublist.countP_le

/-- What stays in range was in range before. -/
theorem InRange.of_beginning (hrange : InRange n entries') (h : entries <+: entries') :
    InRange n entries := by
  have hle := countDowns_le_of_beginning h
  unfold InRange at hrange ⊢
  omega

/-- `--count_` takes one off, unless the count is the least `int`. -/
theorem toInt_pred (h : -2147483648 < count.toInt) : (count - 1).toInt = count.toInt - 1 := by
  have hlt := BitVec.toInt_lt (x := count)
  rw [BitVec.toInt_sub]
  exact Int.bmod_eq_of_le (by simp; omega) (by simp at *; omega)

/-- The count after some calls that acted one at a time. -/
theorem toInt_count (h : (countDownLatch.atomic θ).Run n entries count)
    (hrange : InRange n entries) : count.toInt = n.toInt - countDowns entries := by
  revert hrange
  refine h.history
    (I := fun entries count => InRange n entries → count.toInt = n.toInt - countDowns entries)
    (by simp [countDowns]) fun {entries count e count'} hI _ hexec hrange => ?_
  have hbefore := hI (hrange.of_beginning (List.prefix_append ..))
  have hbody : countDownLatch.body e.call count = count' := Except.ok.inj hexec
  unfold InRange at hrange
  rw [countDowns_append] at hrange ⊢
  rw [← hbody]
  obtain ⟨t, call, r⟩ := e
  cases call with
  | countDown =>
    have hone : countDowns [(⟨t, .countDown, r⟩ : Entry θ LatchCall (Option (BitVec 32)))] = 1 :=
      rfl
    rw [hone] at hrange ⊢
    change (count - 1).toInt = _
    rw [toInt_pred (by omega)]
    omega
  | wait | getCount =>
    change count.toInt = n.toInt - (countDowns entries + 0 : ℕ)
    omega

end LatchCall

open LatchCall

section

variable {θ : Type*} [DecidableEq θ] {n : BitVec 32} {s t : LatchState θ}

omit [DecidableEq θ] in
/-- Only the `countDown` that brings the count to zero lets a `wait` go on, and it notifies. -/
theorem countDownLatch_attentive :
    State.Attentive countDownLatch (fun (_ : θ) (_ : LatchCall) => True)
      countDownLatch.guard := by
  refine ⟨fun _ _ h => h, fun c c' count hfalse _ htrue => ?_⟩
  cases c with
  | countDown | getCount => cases hfalse
  | wait =>
    have hpos : 0 < count.toInt := by simpa [countDownLatch] using hfalse
    cases c' with
    | countDown =>
      have hle : (count - 1).toInt ≤ 0 := by simpa [countDownLatch] using htrue
      have hpred : (count - 1).toInt = count.toInt - 1 := toInt_pred (by omega)
      have hzero : count - 1 = 0 := by
        apply BitVec.eq_of_toInt_eq
        change (count - 1).toInt = 0
        omega
      exact ⟨(), rfl, .inl (if_pos hzero)⟩
    | wait | getCount =>
      have hle : count.toInt ≤ 0 := by simpa [countDownLatch] using htrue
      omega

/-- As long as the count is in range, it tells the `countDown`s. -/
theorem toInt_data (h : (latchSystem θ n).Reachable s) (hrange : InRange n s.log) :
    s.data.toInt = n.toInt - countDowns s.log :=
  toInt_count (State.linear_of_reachable h).2.atomic hrange

/-- The count never goes up, so that in a latch that is down nobody has to wait again. -/
theorem free_of_down {as : List (Action θ LatchCall)} (h : (latchSystem θ n).Reachable s)
    (hdown : s.data.toInt ≤ 0) (hrun : (countDownLatch.continuing (fun _ _ => True) n).Run s as t)
    (hrange : InRange n t.log) :
    (countDownLatch.continuing (fun _ _ => True) n).Always (State.Free countDownLatch) s as := by
  intro bs u hshort hbs
  obtain ⟨cs, rfl⟩ := hshort
  obtain ⟨u', hbefore, hafter⟩ := hrun.split
  obtain rfl := hbs.unique hbefore
  have hrangeNow : InRange n u.log :=
    hrange.of_beginning (State.log_grows_of_run hafter.throughout_of_restrict.1)
  have hlog : s.log <+: u.log := State.log_grows_of_run hbs.throughout_of_restrict.1
  have hthen := toInt_data h (hrangeNow.of_beginning hlog)
  have hnow := toInt_data (State.reachable_of_continuing h hbs) hrangeNow
  have hle := countDowns_le_of_beginning hlog
  intro c
  cases c with
  | wait =>
    have hstill : u.data.toInt ≤ 0 := by omega
    simpa [countDownLatch] using hstill
  | countDown | getCount => rfl

/-- **A latch holds until it is counted down.** In every reachable state in which no `--count_` has
left the range of `int`, every `wait` that has passed, in particular every one that has returned,
did so after as many completed `countDown`s as the latch was made for, and every `getCount` told the
count of its moment. -/
theorem latch_holds (h : (latchSystem θ n).Reachable s) (hrange : InRange n s.log) :
    s.data.toInt = n.toInt - countDowns s.log ∧
      (∀ e ∈ s.returned, e ∈ s.log) ∧
      ∀ before e after, s.log = before ++ e :: after →
        (e.call = .wait → n.toInt ≤ countDowns before) ∧
        (e.call = .getCount →
          ∃ count, e.result = some count ∧ count.toInt = n.toInt - countDowns before) := by
  obtain ⟨-, hlinear⟩ := State.linear_of_reachable h
  refine ⟨toInt_data h hrange, fun e he => hlinear.returned_subset he,
    fun before e after hlog => ?_⟩
  have hrun := hlinear.atomic
  rw [hlog] at hrun
  obtain ⟨count, hbefore, hrest⟩ := hrun.split
  obtain ⟨-, ⟨hguard, hresult⟩, -, -⟩ := hrest.uncons
  have hcount := toInt_count hbefore (hrange.of_beginning (hlog ▸ List.prefix_append ..))
  obtain ⟨u, call, r⟩ := e
  refine ⟨?_, ?_⟩
  · rintro rfl
    have hle : count.toInt ≤ 0 := by simpa [countDownLatch] using hguard
    omega
  · rintro rfl
    exact ⟨count, hresult, hcount⟩

/-- **A latch that is down wakes everybody up.** Whoever is asleep in `wait` although the count is
not positive is about to be woken up: a thread with the mutex is on its way from `--count_` to
`notifyAll`. -/
theorem latch_wakes (h : (latchSystem θ n).Reachable s) {u : θ}
    (hasleep : s.place u = .asleep .wait) (hdown : s.data.toInt ≤ 0) :
    ∃ v r, s.owner = some v ∧ s.place v = .signalling .countDown r (.all ()) := by
  have hheard := State.heard_of_reachable countDownLatch_attentive h
  have hexcl := (State.linear_of_reachable h).1
  obtain ⟨v, c, r, sig, hv, hsig⟩ := hheard.signalled u .wait hasleep
    (by simpa [countDownLatch] using hdown)
  have howner := (hexcl.owner v).mp (by simp [hv, Place.inside])
  obtain ⟨count, hsignal⟩ := hheard.signals v c r sig hv
  obtain ⟨cond, -, hsig⟩ := hsig
  rcases hsig with rfl | ⟨rfl, hsolo⟩
  · cases c with
    | countDown => exact ⟨v, r, howner, hv⟩
    | wait | getCount => cases hsignal
  · obtain rfl : u = v := hsolo u v .wait .wait trivial trivial rfl rfl
    cases hasleep.symm.trans hv

/-- **A latch that is down lets everybody go.** Once the count is not positive, each thread in the
latch makes at most seven steps without new calls, as long as no `--count_` leaves the range of
`int`, and one that is awake can take the next step until all of them have returned. -/
theorem latch_opens {as : List (Action θ LatchCall)}
    (h : (latchSystem θ n).Reachable s) (hdown : s.data.toInt ≤ 0)
    (hrun : (countDownLatch.continuing (fun _ _ => True) n).Run s as t)
    (hrange : InRange n t.log) :
    (∀ u, (as.countP fun a => a.thread = u) ≤ 7) ∧
      ((∃ a, (countDownLatch.continuing (fun _ _ => True) n).enabled t a ∧
          (t.place a.thread).moving = true) ∨
        ∀ u, t.place u = .outside) :=
  State.all_return (fun h => (State.heard_of_reachable countDownLatch_attentive h).roused) h
    (free_of_down h hdown hrun hrange) hrun

end

/-- A latch for one `countDown`. -/
def newLatch : LatchState Bool := ⟨1, none, fun _ => .outside, [], []⟩

/-- One thread waits, and the other counts down but has not notified yet. -/
def countBeforeNotify : List (Action Bool LatchCall) :=
  [.call true .wait, .acquire true, .test true, .sleep true, .call false .countDown,
    .acquire false, .test false, .act false]

/-- Both return. -/
def notifyAndReturn : List (Action Bool LatchCall) :=
  [.signal false none, .leave false, .acquire true, .test true, .act true, .signal true none,
    .leave true]

/-- A run of a latch for one `countDown` ends in a reachable state. -/
theorem newLatch_reachable {s : LatchState Bool} {as : List (Action Bool LatchCall)}
    (h : (latchSystem Bool 1).Run newLatch as s) : (latchSystem Bool 1).Reachable s :=
  ⟨newLatch, as, ⟨rfl, rfl, fun _ => rfl, rfl, rfl⟩, h⟩

/-- The `wait` has returned, and the count is down. -/
theorem latch_holds_notifyAndReturn : ∃ s : LatchState Bool,
    (∃ e ∈ s.returned, e.call = .wait) ∧ s.data.toInt = 1 - countDowns s.log := by
  have hcheck : ((latchSystem Bool 1).replay newLatch (countBeforeNotify ++ notifyAndReturn)).any
      (fun s => decide ((∃ e ∈ s.returned, e.call = .wait) ∧ InRange 1 s.log)) = true := by
    decide +kernel
  obtain ⟨s, hrun, hs⟩ := System.exists_run_of_replay hcheck
  obtain ⟨hwait, hrange⟩ := of_decide_eq_true hs
  exact ⟨s, hwait, (latch_holds (newLatch_reachable hrun) hrange).1⟩

/-- The thread between `--count_` and `notifyAll` is about to wake the other up. -/
theorem latch_wakes_countBeforeNotify : ∃ (s : LatchState Bool) (v : Bool)
    (r : Option (BitVec 32)), s.owner = some v ∧
      s.place v = .signalling .countDown r (.all ()) := by
  have hcheck : ((latchSystem Bool 1).replay newLatch countBeforeNotify).any
      (fun s => decide (s.place true = .asleep .wait ∧ s.data.toInt ≤ 0)) = true := by
    decide +kernel
  obtain ⟨s, hrun, hs⟩ := System.exists_run_of_replay hcheck
  obtain ⟨hasleep, hdown⟩ := of_decide_eq_true hs
  exact ⟨s, latch_wakes (newLatch_reachable hrun) hasleep hdown⟩

/-- From there both return in seven steps. -/
theorem latch_opens_notifyAndReturn : ∃ s t : LatchState Bool,
    s.place true = .asleep .wait ∧
      (∀ u, (notifyAndReturn.countP fun a => a.thread = u) ≤ 7) ∧
      ((∃ a, (countDownLatch.continuing (fun _ _ => True) 1).enabled t a ∧
          (t.place a.thread).moving = true) ∨
        ∀ u, t.place u = .outside) := by
  have hcheck : ((latchSystem Bool 1).replay newLatch countBeforeNotify).any
      (fun s => decide (s.place true = .asleep .wait ∧ s.data.toInt ≤ 0) &&
        ((countDownLatch.continuing (fun _ _ => True) 1).replay s notifyAndReturn).any
          fun t => decide (InRange 1 t.log)) = true := by
    decide +kernel
  obtain ⟨s, hrun, hs⟩ := System.exists_run_of_replay hcheck
  obtain ⟨hfirst, hrest⟩ := Bool.and_eq_true_iff.mp hs
  obtain ⟨hasleep, hdown⟩ := of_decide_eq_true hfirst
  obtain ⟨t, hlast, ht⟩ := System.exists_run_of_replay hrest
  exact ⟨s, t, hasleep,
    latch_opens (newLatch_reachable hrun) hdown hlast (of_decide_eq_true ht)⟩

end Dalin
