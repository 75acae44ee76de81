import Dalin.Net.PollerEvents
import Dalin.Net.PollerUse

/-!
# The dispatch of events

`EventLoop::loop` polls, and then walks the list of active channels and calls
`handleEvent` of each. The handlers may register, update and remove channels, so
that `pollfds_` is rearranged while the list is walked. This file proves that a
poll fills the list with exactly the channels that have events, and that the
handlers do not change which channels are dispatched, or with which events.
-/

set_option autoImplicit false

namespace Dalin.Net

open Transition

/-- The events that `poll(2)` may write into an entry: none for a negated descriptor, and
otherwise any mask that is not negative as a `short`. -/
def PollFd.Reports (pfd : PollFd) (revents : BitVec 16) : Prop :=
  if pfd.fd < 0 then revents = 0 else 0 ≤ revents.toInt

instance (pfd : PollFd) (revents : BitVec 16) : Decidable (pfd.Reports revents) :=
  inferInstanceAs (Decidable (if pfd.fd < 0 then revents = 0 else 0 ≤ revents.toInt))

variable {ι : Type} [DecidableEq ι]

namespace Poller

/-- The results that `poll(2)` may write into the table. -/
def Reports (p : Poller ι) (revents : List (BitVec 16)) : Prop :=
  List.Forall₂ PollFd.Reports p.pollfds revents

instance (p : Poller ι) (revents : List (BitVec 16)) : Decidable (p.Reports revents) :=
  inferInstanceAs (Decidable (List.Forall₂ _ _ _))

/-- `Poller::poll`, when `poll(2)` writes `revents` and returns the number of entries with
events: the Poller and `activeChannels`. -/
def poll (p : Poller ι) (revents : List (BitVec 16)) : Except Failure (Poller ι × List ι) :=
  let numEvents := (revents.filter (· ≠ 0)).length
  if 0 < numEvents then (p.report revents).fillActiveChannels else .ok (p.report revents, [])

/-- What a poll gives. The active channels are the registered ones whose entries have events, in
the order of their entries, each once. Each gets the events of its own entry, and nothing else
changes in any channel. -/
structure Dispatches (p p' : Poller ι) (revents : List (BitVec 16)) (active : List ι) : Prop where
  pollfds : p'.pollfds = (p.report revents).pollfds
  channels : p'.channels = p.channels
  mem_iff : ∀ c, c ∈ active ↔ p.Registered c ∧
    ∃ r, revents[(p.channel c).index.toNat]? = some r ∧ r ≠ 0
  nodup : active.Nodup
  sorted : active.Pairwise fun c d => (p.channel c).index < (p.channel d).index
  revents : ∀ c ∈ active, ∃ r, revents[(p.channel c).index.toNat]? = some r ∧
    p'.channel c = { p.channel c with revents := r.signExtend 32 }
  others : ∀ c, c ∉ active → p'.channel c = p.channel c

end Poller

/-- A Poller and the state of the loop of `EventLoop::loop` over the active channels. -/
structure DispatchLoop (ι : Type) where
  poller : Poller ι
  /-- `activeChannels_`. -/
  activeChannels : List ι
  /-- The place of the iterator. -/
  next : ℕ
  /-- The channels whose `handleEvent` the loop has called, with the `revents_` it met. -/
  handled : List (ι × BitVec 32)

/-- A step of the loop thread. -/
inductive DispatchStep (ι : Type)
  /-- A handler, or a functor between two polls, uses the Poller. -/
  | table (op : Poller.TableOp ι)
  | poll (revents : List (BitVec 16))
  /-- The loop calls `handleEvent` of the next channel. -/
  | handleEvent
  /-- The loop over the active channels ends. -/
  | dispatched

namespace DispatchLoop

/-- A loop that has not polled yet. -/
def start (p : Poller ι) : DispatchLoop ι := ⟨p, [], 0, []⟩

/-- The steps that can be taken. An active channel stays alive until the dispatch is over. -/
def enabled (s : DispatchLoop ι) : DispatchStep ι → Prop
  | .table op => s.poller.tableEnabled op ∧ ∀ c ∈ s.activeChannels, op.Spares c
  | .poll revents => s.activeChannels = [] ∧ s.poller.Reports revents
  | .handleEvent => s.next < s.activeChannels.length
  | .dispatched => s.next = s.activeChannels.length

/-- What a step does. -/
def exec (s : DispatchLoop ι) : DispatchStep ι → Except Failure (DispatchLoop ι)
  | .table op => do
    let p ← s.poller.tableExec op
    return { s with poller := p }
  | .poll revents => do
    let (p, activeChannels) ← s.poller.poll revents
    return ⟨p, activeChannels, 0, []⟩
  | .handleEvent =>
    match s.activeChannels[s.next]? with
    | some c => .ok { s with
        next := s.next + 1
        handled := s.handled ++ [(c, (s.poller.channel c).revents)] }
    | none => .ok s
  | .dispatched => .ok ⟨s.poller, [], 0, []⟩

end DispatchLoop

/-- A loop thread with its Poller. -/
def dispatchSystem (ι : Type) [DecidableEq ι] :
    System (DispatchLoop ι) (DispatchStep ι) Failure where
  init s := ∃ p : Poller ι, p.Empty ∧ s = .start p
  enabled := DispatchLoop.enabled
  exec := DispatchLoop.exec

instance (op : Poller.TableOp ι) (c : ι) : Decidable (op.Spares c) :=
  match op with
  | .new _ _ => inferInstanceAs (Decidable (_ ≠ _))
  | .updateChannel _ _ | .removeChannel _ => inferInstanceAs (Decidable True)

instance [Fintype ι] (s : DispatchLoop ι) :
    (a : DispatchStep ι) → Decidable ((dispatchSystem ι).enabled s a)
  | .table op =>
    inferInstanceAs (Decidable ((Poller.tableSystem ι).enabled s.poller op ∧
      ∀ c ∈ s.activeChannels, op.Spares c))
  | .poll revents => inferInstanceAs (Decidable (s.activeChannels = [] ∧ s.poller.Reports revents))
  | .handleEvent => inferInstanceAs (Decidable (_ < _))
  | .dispatched => inferInstanceAs (Decidable (_ = _))

/-- A step between a poll and the end of the dispatch. -/
def DispatchStep.InDispatch : DispatchStep ι → Prop
  | .table _ | .handleEvent => True
  | .poll _ | .dispatched => False

/-! ### A poll -/

namespace Poller

omit [DecidableEq ι] in
/-- A reported entry with events is enabled. -/
theorem Reports.enabled {p : Poller ι} {revents : List (BitVec 16)} (h : p.Reports revents)
    {pfd : PollFd} (hmem : pfd ∈ (p.report revents).pollfds) :
    0 ≤ pfd.revents.toInt ∧ (pfd.revents ≠ 0 → 0 ≤ pfd.fd) := by
  obtain ⟨i, hi⟩ := List.getElem?_of_mem hmem
  obtain ⟨pfd', hget, hr, heq⟩ := getElem?_report hi
  obtain ⟨hi, rfl⟩ := List.getElem?_eq_some_iff.mp hget
  obtain ⟨hi', hreq⟩ := List.getElem?_eq_some_iff.mp hr
  have hreports := h.get hi hi'
  simp only [List.get_eq_getElem, hreq] at hreports
  unfold PollFd.Reports at hreports
  rw [heq]
  split at hreports
  · rename_i hneg
    rw [hreports]
    exact ⟨by decide, fun hne => absurd rfl hne⟩
  · rename_i hnonneg
    exact ⟨hreports, fun _ => Int.not_lt.mp hnonneg⟩

/-- A mask that is not negative is positive exactly if it is not zero. -/
theorem toInt_pos_iff {r : BitVec 16} (h : 0 ≤ r.toInt) : 0 < r.toInt ↔ r ≠ 0 := by
  have hzero : r.toInt = 0 ↔ r = 0 := by
    rw [← BitVec.toInt_inj]
    exact Iff.rfl
  constructor
  · intro hpos heq
    have := hzero.mpr heq
    omega
  · intro hne
    have := mt hzero.mp hne
    omega

/-- A poll succeeds and fills the list with the channels that have events. -/
theorem Agree.poll {p : Poller ι} (h : p.Agree) {revents : List (BitVec 16)}
    (hreports : p.Reports revents) :
    ∃ p' active, p.poll revents = .ok (p', active) ∧ p'.Agree ∧
      Dispatches p p' revents active := by
  have hagree := h.report hreports.length_eq
  have hevents : ∀ pfd ∈ (p.report revents).pollfds, 0 < pfd.revents.toInt ↔ pfd.revents ≠ 0 :=
    fun pfd hmem => toInt_pos_iff (hreports.enabled hmem).1
  by_cases hnum : 0 < (revents.filter (· ≠ 0)).length
  · obtain ⟨p', active, hok, hfilled⟩ := hagree.fillFrom
      (fun pfd hmem hpos => (hreports.enabled hmem).2 ((hevents pfd hmem).mp hpos)) (k := 0) rfl
    refine ⟨p', active, by rw [Poller.poll, if_pos hnum]; exact hok,
      hagree.of_sameTables hfilled.tables, hfilled.tables.pollfds, hfilled.tables.channels,
      fun c => ?_, hfilled.nodup, hfilled.sorted, fun c hc => ?_, hfilled.inactive⟩
    · rw [hfilled.mem_iff]
      constructor
      · rintro ⟨hc, _, pfd, hentry, hpos⟩
        obtain ⟨_, _, hr, _⟩ := getElem?_report hentry
        exact ⟨hc, _, hr, (hevents pfd (List.mem_of_getElem? hentry)).mp hpos⟩
      · rintro ⟨hc, r, hr, hne⟩
        obtain ⟨hindex, pfd, hentry, _⟩ := h.entry_of_registered hc
        obtain ⟨pfd', hentry', hr', _⟩ := exists_report hreports.length_eq hentry
        cases hr.symm.trans hr'
        exact ⟨hc, hindex, pfd', hentry', (hevents pfd' (List.mem_of_getElem? hentry')).mpr hne⟩
    · obtain ⟨_, pfd, hentry, _, hrevents⟩ := hfilled.active c hc
      obtain ⟨_, _, hr, _⟩ := getElem?_report hentry
      refine ⟨_, hr, ?_⟩
      rw [← hrevents]
      exact hfilled.tables.channel c
  · have hnone : ∀ r ∈ revents, r = 0 := by
      have hnil := List.length_eq_zero_iff.mp (Nat.eq_zero_of_not_pos hnum)
      simpa using hnil
    refine ⟨p.report revents, [], by rw [Poller.poll, if_neg hnum], hagree, rfl, rfl,
      fun c => ⟨by simp, ?_⟩, List.nodup_nil, List.Pairwise.nil, by simp, fun _ _ => rfl⟩
    rintro ⟨_, r, hr, hne⟩
    exact absurd (hnone r (List.mem_of_getElem? hr)) hne

/-- A poll keeps the tables as they should be. -/
theorem Tracked.poll {p : Poller ι} (h : p.Tracked) {revents : List (BitVec 16)}
    (hreports : p.Reports revents) :
    ∃ p' active, p.poll revents = .ok (p', active) ∧ p'.Tracked ∧
      Dispatches p p' revents active := by
  obtain ⟨p', active, hok, hagree, hdispatches⟩ := h.agree.poll hreports
  have hchannel : ∀ c, ∃ r, p'.channel c = { p.channel c with revents := r } := by
    intro c
    by_cases hc : c ∈ active
    · obtain ⟨r, _, heq⟩ := hdispatches.revents c hc
      exact ⟨_, heq⟩
    · exact ⟨_, hdispatches.others c hc⟩
  refine ⟨p', active, hok, ⟨hagree, fun c pfd hc hentry => ?_⟩, hdispatches⟩
  obtain ⟨r, heq⟩ := hchannel c
  unfold Registered at hc
  unfold entry at hentry
  rw [heq, hdispatches.channels] at hc
  rw [heq, hdispatches.pollfds] at hentry
  obtain ⟨pfd', hentry', _, hpfd⟩ := getElem?_report hentry
  rw [hpfd, heq]
  exact h.events c pfd' hc hentry'

end Poller

/-! ### The dispatch -/

namespace DispatchLoop

/-- Every step succeeds and keeps the tables as they should be. -/
theorem tracked_exec {s : DispatchLoop ι} (h : s.poller.Tracked) {a : DispatchStep ι}
    (henabled : s.enabled a) : ∃ t, s.exec a = .ok t ∧ t.poller.Tracked := by
  cases a with
  | table op =>
    obtain ⟨p, hok, htracked, _⟩ := h.tableExec henabled.1
    refine ⟨{ s with poller := p }, ?_, htracked⟩
    rw [DispatchLoop.exec, hok]
    rfl
  | poll revents =>
    obtain ⟨p, active, hok, htracked, _⟩ := h.poll henabled.2
    refine ⟨⟨p, active, 0, []⟩, ?_, htracked⟩
    rw [DispatchLoop.exec, hok]
    rfl
  | handleEvent =>
    have hget : s.activeChannels[s.next]? = some _ := List.getElem?_eq_getElem henabled
    simp only [DispatchLoop.exec, hget]
    exact ⟨_, rfl, h⟩
  | dispatched => exact ⟨_, rfl, h⟩

/-- How far the dispatch of the list `active` has come, when a poll has left the events `found`
in its channels. -/
structure Walks (active : List ι) (found : ι → BitVec 32) (s : DispatchLoop ι) : Prop where
  tracked : s.poller.Tracked
  activeChannels : s.activeChannels = active
  handled : s.handled = (active.take s.next).map fun c => (c, found c)
  revents : ∀ c ∈ active, (s.poller.channel c).revents = found c

/-- A step of the dispatch goes on with the same list and the same events. -/
theorem Walks.step {active : List ι} {found : ι → BitVec 32} {s t : DispatchLoop ι}
    (h : s.Walks active found) {a : DispatchStep ι} (ha : a.InDispatch) (henabled : s.enabled a)
    (hexec : s.exec a = .ok t) : t.Walks active found := by
  cases a with
  | table op =>
    obtain ⟨p, hok, htracked, hrevents⟩ := h.tracked.tableExec henabled.1
    rw [DispatchLoop.exec, hok] at hexec
    cases hexec
    refine ⟨htracked, h.activeChannels, h.handled, fun c hc => ?_⟩
    rw [← h.revents c hc]
    exact hrevents c (henabled.2 c (h.activeChannels ▸ hc))
  | handleEvent =>
    have hlt : s.next < s.activeChannels.length := henabled
    have hget := List.getElem?_eq_getElem hlt
    simp only [DispatchLoop.exec, hget] at hexec
    cases hexec
    have hactive := h.activeChannels
    subst hactive
    refine ⟨h.tracked, rfl, ?_, h.revents⟩
    change s.handled ++ [_] = (s.activeChannels.take (s.next + 1)).map _
    rw [List.take_add_one, hget, h.handled, List.map_append,
      h.revents _ (List.getElem_mem hlt)]
    rfl
  | poll revents => cases ha
  | dispatched => cases ha

/-- Three channels register, and two of them are about to have events. -/
def registerThree {ι : Type} (first second last : ι) : List (DispatchStep ι) :=
  [.table (.updateChannel first 1), .table (.updateChannel second 1),
    .table (.updateChannel last 1)]

/-- The handler of the first channel removes it, which moves the entry of the last one. -/
def removeFirst {ι : Type} (first : ι) : List (DispatchStep ι) :=
  [.handleEvent, .table (.updateChannel first 0), .table (.removeChannel first), .handleEvent]

end DispatchLoop

end Dalin.Net
