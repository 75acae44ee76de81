import Dalin.Library.Transition
import Dalin.Net.PollerTables

/-!
# Interest histories

Any number of channels enable and disable reading and writing in any order,
and channels that want nothing are removed. `updateChannel` negates the
descriptor of an entry whose channel wants nothing, but does not restore it
when the channel asks for events again, and it does not negate the entry of a
channel that registers without events. This file states when the entries show
what the channels want, and proves the exact condition on a history.
-/

set_option autoImplicit false

namespace Dalin.Net.Poller

open Transition

variable {ι : Type} [DecidableEq ι]

/-- A call made on the channels of a Poller. -/
inductive Op (ι : Type)
  | interest (c : ι) (i : Interest)
  | removeChannel (c : ι)

/-- A Poller without entries over fresh channels that have distinct non-negative
descriptors. -/
structure Fresh (p : Poller ι) : Prop where
  pollfds : p.pollfds = []
  channels : p.channels = ∅
  channel : ∀ c, p.channel c = Channel.new (p.channel c).fd
  fd_nonneg : ∀ c, 0 ≤ (p.channel c).fd
  fd_injective : Function.Injective fun c => (p.channel c).fd
  calls : p.calls = []

/-- Histories of interest calls on any channels, in which a channel may be
removed whenever it has no events. -/
def interestSystem (ι : Type) [DecidableEq ι] : System (Poller ι) (Op ι) Failure where
  init := Fresh
  enabled
    | _, .interest _ _ => True
    | p, .removeChannel c => (p.channel c).isNoneEvent = true
  exec
    | p, .interest c i => p.setInterest c i
    | p, .removeChannel c => p.removeChannel c

instance (p : Poller ι) (op : Op ι) : Decidable ((interestSystem ι).enabled p op) :=
  match op with
  | .interest _ _ => inferInstanceAs (Decidable True)
  | .removeChannel c => inferInstanceAs (Decidable ((p.channel c).isNoneEvent = true))

/-- The entry of the channel asks `poll(2)` for the events of the channel, and is
negated exactly if there are none. -/
def ShowsInterest (p : Poller ι) (c : ι) : Prop :=
  ∃ pfd, p.entry c = some pfd ∧ pfd.events.signExtend 32 = (p.channel c).events ∧
    pfd.fd = if (p.channel c).isNoneEvent then -(p.channel c).fd - 1 else (p.channel c).fd

/-- Interest faithfulness: every registered channel has an entry that shows its
interest, hence is polled if it wants events, and ignored and removable if not. -/
structure Faithful (p : Poller ι) : Prop where
  shows : ∀ c, p.Registered c → p.ShowsInterest c
  polled : ∀ c pfd, p.Registered c → p.entry c = some pfd →
    (0 ≤ pfd.fd ↔ (p.channel c).isNoneEvent = false)
  removable : ∀ c, p.Registered c → (p.channel c).isNoneEvent = true →
    ∃ p', p.removeChannel c = .ok p'

/-- The condition on one call: a channel registers with events, and a registered
channel that wants nothing does not ask for events again. -/
def KeepsSign (p : Poller ι) : Op ι → Prop
  | .interest c i =>
    if (p.channel c).index < 0 then i.apply (p.channel c).events ≠ Channel.kNoneEvent
    else (p.channel c).events = Channel.kNoneEvent →
      i.apply (p.channel c).events = Channel.kNoneEvent
  | .removeChannel _ => True

instance (p : Poller ι) : (op : Op ι) → Decidable (p.KeepsSign op)
  | .interest _ _ => inferInstanceAs (Decidable (ite _ _ _))
  | .removeChannel _ => inferInstanceAs (Decidable True)

instance (p : Poller ι) (op : Op ι) :
    Decidable (((interestSystem ι).restrict KeepsSign).enabled p op) :=
  inferInstanceAs (Decidable ((interestSystem ι).enabled p op ∧ p.KeepsSign op))

/-- What every history keeps, whatever its calls: the tables agree, channels hold
interest masks, and an entry has the events of its channel. -/
structure Sound (p : Poller ι) : Prop where
  wf : p.Wf
  mask : ∀ c, Channel.EventMask (p.channel c).events
  events : ∀ c pfd, p.Registered c → p.entry c = some pfd →
    pfd.events.signExtend 32 = (p.channel c).events

omit [DecidableEq ι] in
/-- A fresh Poller is sound. -/
theorem Fresh.sound {p : Poller ι} (h : p.Fresh) : p.Sound where
  wf := by
    refine ⟨h.fd_nonneg, h.fd_injective, ?_, fun {fd c} hlookup => ?_, fun {i pfd} hget => ?_⟩
    · rw [h.pollfds, h.channels]
      rfl
    · rw [h.channels, AList.lookup_empty] at hlookup
      cases hlookup
    · rw [h.pollfds] at hget
      cases hget
  mask c := by
    rw [h.channel]
    exact Or.inl rfl
  events c pfd hc := by
    unfold Registered at hc
    rw [h.channels, AList.lookup_empty] at hc
    cases hc

/-- A fresh Poller is faithful, having no registered channel. -/
theorem Fresh.faithful {p : Poller ι} (h : p.Fresh) : p.Faithful := by
  have hnone (c : ι) : ¬p.Registered c := by
    unfold Registered
    rw [h.channels, AList.lookup_empty]
    exact fun heq => by cases heq
  exact ⟨fun c hc => absurd hc (hnone c), fun c _ hc => absurd hc (hnone c),
    fun c hc => absurd hc (hnone c)⟩

/-- A registered channel whose entry shows that it wants nothing can be removed. -/
theorem Wf.removeChannel {p : Poller ι} (h : p.Wf) {c : ι} (hc : p.Registered c)
    (hshows : p.ShowsInterest c) (hnone : (p.channel c).isNoneEvent = true) :
    ∃ p', p.removeChannel c = .ok p' ∧ Removed p p' c := by
  obtain ⟨pfd, hentry, hevents, hfd⟩ := hshows
  rw [if_pos hnone] at hfd
  obtain ⟨p', hok, hdropped⟩ := h.agree.removeChannel hc hnone hentry hfd hevents
  exact ⟨p', hok, h.removed hdropped⟩

/-- In a sound state the entries alone decide faithfulness. -/
theorem Sound.faithful_iff {p : Poller ι} (h : p.Sound) :
    p.Faithful ↔ ∀ c, p.Registered c → p.ShowsInterest c := by
  refine ⟨Faithful.shows, fun hshows => ⟨hshows, fun c pfd hc hentry => ?_,
    fun c hc hnone => ?_⟩⟩
  · obtain ⟨pfd', hentry', _, hfd⟩ := hshows c hc
    rw [hentry] at hentry'
    cases hentry'
    have hnonneg := h.wf.fd_nonneg c
    cases hnone : (p.channel c).isNoneEvent with
    | true =>
      rw [hnone, if_pos rfl] at hfd
      simp only [reduceCtorEq, iff_false]
      omega
    | false =>
      rw [hnone] at hfd
      simp only [hfd, iff_true]
      exact hnonneg
  · obtain ⟨p', hok, _⟩ := h.wf.removeChannel hc (hshows c hc) hnone
    exact ⟨p', hok⟩

omit [DecidableEq ι] in
/-- A step that leaves a channel alone does not change whether its entry shows
its interest. -/
theorem Untouched.showsInterest_iff {p p' : Poller ι} {c : ι} (h : Untouched p p' c)
    (hc : p.Registered c) : p'.ShowsInterest c ↔ p.ShowsInterest c := by
  unfold ShowsInterest
  rw [h.entry hc, h.channel]
  rfl

/-- An interest call keeps a Poller sound. -/
theorem Sound.setInterest {p p' : Poller ι} (h : p.Sound) {c : ι} {i : Interest}
    (hset : InterestSet p p' c i) : p'.Sound := by
  refine ⟨hset.wf, fun c' => ?_, fun c' pfd hc' hentry => ?_⟩
  · by_cases hne : c' = c
    · rw [hne, hset.channel]
      exact (h.mask c).apply i
    · rw [(hset.untouched c' hne).channel]
      exact h.mask c'
  · by_cases hne : c' = c
    · subst hne
      obtain ⟨fd, hnew, _⟩ := hset.entry
      rw [hnew] at hentry
      cases hentry
      rw [hset.channel]
      exact ((h.mask c').apply i).signExtend_setWidth
    · have hsame := hset.untouched c' hne
      rw [hsame.entry (hsame.registered.mp hc')] at hentry
      rw [hsame.channel]
      exact h.events c' pfd (hsame.registered.mp hc') hentry

/-- A removal keeps a Poller sound. -/
theorem Sound.removed {p p' : Poller ι} (h : p.Sound) {c : ι} (hremoved : Removed p p' c) :
    p'.Sound := by
  refine ⟨hremoved.wf, fun c' => ?_, fun c' pfd hc' hentry => ?_⟩
  · by_cases hne : c' = c
    · rw [hne, hremoved.channel]
      exact h.mask c
    · rw [(hremoved.untouched c' hne).channel]
      exact h.mask c'
  · have hne : c' ≠ c := by
      rintro rfl
      exact hremoved.unregistered hc'
    have hsame := hremoved.untouched c' hne
    rw [hsame.entry (hsame.registered.mp hc')] at hentry
    rw [hsame.channel]
    exact h.events c' pfd (hsame.registered.mp hc') hentry

/-- Every step of a history is an interest call or a removal. -/
theorem Sound.exec_eq_ok {p p' : Poller ι} (h : p.Sound) {op : Op ι}
    (hok : (interestSystem ι).exec p op = .ok p') :
    match op with
    | .interest c i => InterestSet p p' c i
    | .removeChannel c => Removed p p' c := by
  cases op with
  | interest c i => exact h.wf.setInterest_eq_ok hok
  | removeChannel c => exact h.wf.removeChannel_eq_ok hok

/-- Every step keeps a Poller sound. -/
theorem Sound.step {p p' : Poller ι} (h : p.Sound) {op : Op ι}
    (hok : (interestSystem ι).exec p op = .ok p') : p'.Sound := by
  have hstep := h.exec_eq_ok hok
  cases op with
  | interest c i => exact h.setInterest hstep
  | removeChannel c => exact h.removed hstep

/-- After an interest call in a faithful state, the entry of the channel shows its
interest exactly if the call meets `KeepsSign`. -/
theorem InterestSet.showsInterest_iff {p p' : Poller ι} {c : ι} {i : Interest}
    (hset : InterestSet p p' c i) (h : p.Sound) (hfaithful : p.Faithful) :
    p'.ShowsInterest c ↔ KeepsSign p (.interest c i) := by
  obtain ⟨fd, hentry, hfd⟩ := hset.entry
  have hnonneg := h.wf.fd_nonneg c
  have hmask := ((h.mask c).apply i).signExtend_setWidth
  have hshows : p'.ShowsInterest c ↔
      fd = if i.apply (p.channel c).events = Channel.kNoneEvent then -(p.channel c).fd - 1
        else (p.channel c).fd := by
    unfold ShowsInterest Channel.isNoneEvent
    rw [hset.channel, hentry]
    simp only [beq_iff_eq]
    constructor
    · rintro ⟨pfd, hpfd, _, hsign⟩
      cases hpfd
      exact hsign
    · intro hsign
      exact ⟨_, rfl, hmask, hsign⟩
  rw [hshows]
  simp only [KeepsSign]
  rcases hfd with ⟨hnew, rfl⟩ | ⟨hold, hc, pfd, hpfd, rfl⟩
  · rw [if_pos hnew]
    by_cases hnone : i.apply (p.channel c).events = Channel.kNoneEvent
    · simp only [hnone, if_true, ne_eq, not_true_eq_false, iff_false]
      omega
    · simp only [hnone, if_false, ne_eq, not_false_eq_true]
  · have hnotnew : ¬(p.channel c).index < 0 := by omega
    rw [if_neg hnotnew]
    obtain ⟨pfd', hpfd', _, hsign⟩ := hfaithful.shows c hc
    rw [hpfd] at hpfd'
    cases hpfd'
    unfold Channel.isNoneEvent at hsign
    simp only [beq_iff_eq] at hsign
    by_cases hnone : i.apply (p.channel c).events = Channel.kNoneEvent
    · simp only [hnone, if_true, implies_true]
    · by_cases hwas : (p.channel c).events = Channel.kNoneEvent
      · rw [if_neg hnone, if_neg hnone, hsign, if_pos hwas]
        constructor
        · intro heq
          omega
        · intro hkeeps
          exact absurd (hkeeps hwas) hnone
      · simp only [hnone, hsign, hwas, if_false, false_imp_iff]

/-- **Step lemma.** In a sound and faithful state, a step leads to a faithful state
exactly if it meets `KeepsSign`. -/
theorem Faithful.step_iff {p p' : Poller ι} (hfaithful : p.Faithful) (h : p.Sound) {op : Op ι}
    (hok : (interestSystem ι).exec p op = .ok p') : p'.Faithful ↔ KeepsSign p op := by
  rw [(h.step hok).faithful_iff]
  have hstep := h.exec_eq_ok hok
  cases op with
  | interest c i =>
    rw [← InterestSet.showsInterest_iff hstep h hfaithful]
    refine ⟨fun hshows => hshows c hstep.registered, fun hc c' hc' => ?_⟩
    by_cases hne : c' = c
    · rwa [hne]
    · have hsame := hstep.untouched c' hne
      have hreg := hsame.registered.mp hc'
      exact (hsame.showsInterest_iff hreg).mpr (hfaithful.shows c' hreg)
  | removeChannel c =>
    refine ⟨fun _ => trivial, fun _ c' hc' => ?_⟩
    have hne : c' ≠ c := by
      rintro rfl
      exact hstep.unregistered hc'
    have hsame := hstep.untouched c' hne
    have hreg := hsame.registered.mp hc'
    exact (hsame.showsInterest_iff hreg).mpr (hfaithful.shows c' hreg)

/-- **Interest faithfulness.** A history over fresh channels is faithful in every
state it passes through exactly if no call of it registers a channel without
events or makes a registered channel that wants nothing ask for events again. -/
theorem faithful_iff_keepsSign {p p' : Poller ι} {ops : List (Op ι)} (hfresh : p.Fresh)
    (hrun : (interestSystem ι).Run p ops p') :
    (interestSystem ι).Always Faithful p ops ↔ (interestSystem ι).Throughout KeepsSign p ops :=
  hrun.always_iff_throughout hfresh.sound hfresh.faithful (fun h _ hok => h.step hok)
    fun h hfaithful _ hok => hfaithful.step_iff h hok

/-- A Poller without entries and one fresh channel on descriptor 5. -/
def oneChannel : Poller Unit := ⟨[], ∅, fun _ => Channel.new 5, []⟩

/-- Its channel is fresh. -/
theorem oneChannel_fresh : oneChannel.Fresh :=
  ⟨rfl, rfl, fun _ => rfl, fun _ => (show (0 : ℤ) ≤ 5 by decide), fun _ _ _ => rfl, rfl⟩

/-- The channel is enabled, disabled and enabled again. -/
def reenable : List (Op Unit) :=
  [.interest () .enableReading, .interest () .disableAll, .interest () .enableReading]

/-- A channel that reads again after it was disabled keeps the negated entry
`-6`, so it is not polled. -/
theorem not_faithful_reenable :
    ∃ p, (interestSystem Unit).Run oneChannel reenable p ∧ p.Registered () ∧
      (p.channel ()).events = Channel.kReadEvent ∧ p.entry () = some ⟨-6, 3, 0⟩ ∧
      ¬p.Faithful := by
  have hcheck : ((interestSystem Unit).replay oneChannel reenable).any (fun p =>
      decide (p.Registered () ∧ (p.channel ()).events = Channel.kReadEvent ∧
        p.entry () = some ⟨-6, 3, 0⟩)) = true := by decide
  obtain ⟨p, hrun, hp⟩ := System.exists_run_of_replay hcheck
  obtain ⟨hreg, hevents, hentry⟩ := of_decide_eq_true hp
  refine ⟨p, hrun, hreg, hevents, hentry, fun hfaithful => ?_⟩
  have hpolled :=
    (hfaithful.polled () _ hreg hentry).mpr (by rw [Channel.isNoneEvent, hevents]; rfl)
  exact absurd hpolled (by decide)

/-- A channel reads, writes for a while, is disabled and removed. -/
def readAndWrite : List (Op Unit) :=
  [.interest () .enableReading, .interest () .enableWriting, .interest () .disableWriting,
    .interest () .disableAll, .removeChannel ()]

/-- The exact condition, at the history that enables the channel again and at one that meets it. -/
theorem faithful_iff_keepsSign_reenable :
    ((interestSystem Unit).Always Faithful oneChannel reenable ↔
      (interestSystem Unit).Throughout KeepsSign oneChannel reenable) ∧
    ∃ p, (interestSystem Unit).Run oneChannel readAndWrite p ∧ p.pollfds = [] ∧
      (interestSystem Unit).Always Faithful oneChannel readAndWrite := by
  have hcheck : ((interestSystem Unit).replay oneChannel reenable).any (fun _ => true) = true := by
    decide
  have hkeeps : (((interestSystem Unit).restrict KeepsSign).replay oneChannel readAndWrite).any
      (fun p => decide (p.pollfds = [])) = true := by decide
  obtain ⟨p, hrun, _⟩ := System.exists_run_of_replay hcheck
  obtain ⟨p', hrestricted, hp'⟩ := System.exists_run_of_replay hkeeps
  obtain ⟨hrun', hthroughout⟩ := hrestricted.throughout_of_restrict
  exact ⟨faithful_iff_keepsSign oneChannel_fresh hrun, p', hrun', of_decide_eq_true hp',
    (faithful_iff_keepsSign oneChannel_fresh hrun').mpr hthroughout⟩

end Dalin.Net.Poller
