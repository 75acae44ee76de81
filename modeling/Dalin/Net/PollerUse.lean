import Dalin.Library.Transition
import Dalin.Net.PollerTables
import Mathlib.Data.Fintype.Basic

/-!
# Channels that come and go

Channel objects are made, registered, updated and removed in any order, and a
descriptor or an address may be used again after its channel is gone. A removed
channel keeps its index and is not registered again. This file proves that the
two tables and the indexes of the registered channels always match each other,
and that a removal takes out one entry and leaves the others as they are.
-/

set_option autoImplicit false

namespace Dalin.Net.Poller

open Transition

variable {ι : Type} [DecidableEq ι]

/-- What happens to the channel objects of a Poller. -/
inductive TableOp (ι : Type)
  /-- A channel object that is not registered dies, and another one takes its address. -/
  | new (c : ι) (fd : ℤ)
  /-- The owner of a channel assigns to its `events_` and calls `update`. -/
  | updateChannel (c : ι) (events : BitVec 32)
  | removeChannel (c : ι)

/-- A Poller with empty tables. The objects at all addresses are new. -/
structure Empty (p : Poller ι) : Prop where
  pollfds : p.pollfds = []
  channels : p.channels = ∅
  channel : ∀ c, p.channel c = Channel.new (p.channel c).fd
  calls : p.calls = []

/-- Assign to `events_`, then `update()`. -/
def updateEvents (p : Poller ι) (c : ι) (events : BitVec 32) : Except Failure (Poller ι) :=
  (p.modify c fun ch => { ch with events := events }).updateChannel c

/-- The channel can register: it never did, and no registered channel has its descriptor. -/
def MayRegister (p : Poller ι) (c : ι) : Prop :=
  (p.channel c).index < 0 ∧ 0 ≤ (p.channel c).fd ∧
    ∀ d, p.Registered d → (p.channel d).fd ≠ (p.channel c).fd

/-- The entry of the channel is negated. -/
def Negated (p : Poller ι) (c : ι) : Prop :=
  (p.entry c).map PollFd.fd = some (-(p.channel c).fd - 1)

instance [Fintype ι] (p : Poller ι) (c : ι) : Decidable (p.MayRegister c) :=
  inferInstanceAs (Decidable (_ ∧ _ ∧ ∀ _, _))

instance (p : Poller ι) (c : ι) : Decidable (p.Negated c) := inferInstanceAs (Decidable (_ = _))

/-- The preconditions of the operations. -/
def tableEnabled (p : Poller ι) : TableOp ι → Prop
  | .new c _ => ¬p.Registered c
  | .updateChannel c _ => p.Registered c ∨ p.MayRegister c
  | .removeChannel c => p.Registered c ∧ (p.channel c).isNoneEvent = true ∧ p.Negated c

/-- The effects of the operations. -/
def tableExec (p : Poller ι) : TableOp ι → Except Failure (Poller ι)
  | .new c fd => .ok (p.modify c fun _ => Channel.new fd)
  | .updateChannel c events => p.updateEvents c events
  | .removeChannel c => p.removeChannel c

/-- A Poller under any sequence of operations that meet their preconditions. -/
def tableSystem (ι : Type) [DecidableEq ι] : System (Poller ι) (TableOp ι) Failure where
  init := Empty
  enabled := tableEnabled
  exec := tableExec

instance [Fintype ι] (p : Poller ι) : (op : TableOp ι) → Decidable ((tableSystem ι).enabled p op)
  | .new _ _ => inferInstanceAs (Decidable ¬_)
  | .updateChannel _ _ => inferInstanceAs (Decidable (_ ∨ _))
  | .removeChannel _ => inferInstanceAs (Decidable (_ ∧ _))

/-- The tables and the indexes match: as many entries as registered channels, an own entry for
each of them at its index, and an own descriptor in the map. -/
structure Matched (p : Poller ι) : Prop where
  size_eq : p.pollfds.length = p.channels.keys.length
  index_range : ∀ {fd c}, p.channels.lookup fd = some c →
    0 ≤ (p.channel c).index ∧ (p.channel c).index < p.pollfds.length
  decodes : ∀ {fd c}, p.channels.lookup fd = some c → ∃ pfd, p.entry c = some pfd ∧
    (pfd.fd = (p.channel c).fd ∨ pfd.fd = -(p.channel c).fd - 1)
  lookup_fd : ∀ {fd c}, p.channels.lookup fd = some c →
    0 ≤ (p.channel c).fd ∧ p.channels.lookup (p.channel c).fd = some c
  index_injective : ∀ {fd fd' c c'}, p.channels.lookup fd = some c →
    p.channels.lookup fd' = some c' → c ≠ c' → (p.channel c).index ≠ (p.channel c').index

/-- The step from `p` to `p'` takes out the entry of `c` and changes nothing else of the tables
but the places of entries. -/
structure TakesOut (p p' : Poller ι) (c : ι) : Prop where
  entries : ∃ pfd, p.entry c = some pfd ∧ p.pollfds.Perm (pfd :: p'.pollfds)
  lookup : ∀ fd d, p'.channels.lookup fd = some d ↔ p.channels.lookup fd = some d ∧ d ≠ c
  others : ∀ fd d, p'.channels.lookup fd = some d → p'.entry d = p.entry d

/-- What all operations keep. -/
structure Tracked (p : Poller ι) : Prop where
  agree : p.Agree
  events : ∀ c pfd, p.Registered c → p.entry c = some pfd →
    pfd.events = (p.channel c).events.setWidth 16

omit [DecidableEq ι] in
/-- Empty tables agree. -/
theorem Empty.tracked {p : Poller ι} (h : p.Empty) : p.Tracked := by
  have hnone : ∀ fd, p.channels.lookup fd = none := fun fd => by
    rw [h.channels, AList.lookup_empty]
  refine ⟨⟨?_, fun hlookup => ?_, fun hlookup => ?_, fun hget => ?_⟩, fun c _ hc => ?_⟩
  · rw [h.pollfds, h.channels]
    rfl
  · rw [hnone] at hlookup
    cases hlookup
  · rw [hnone] at hlookup
    cases hlookup
  · rw [h.pollfds] at hget
    cases hget
  · unfold Registered at hc
    rw [hnone] at hc
    cases hc

omit [DecidableEq ι] in
/-- A channel in the map is registered. -/
theorem Agree.registered {p : Poller ι} (h : p.Agree) {fd : ℤ} {c : ι}
    (hlookup : p.channels.lookup fd = some c) : p.Registered c := by
  unfold Registered
  rw [(h.of_lookup hlookup).1]
  exact hlookup

omit [DecidableEq ι] in
/-- Tables that agree match. -/
theorem Agree.matched {p : Poller ι} (h : p.Agree) : p.Matched where
  size_eq := h.size_eq
  index_range hlookup := by
    have hc := h.registered hlookup
    have hnonneg := (h.entry_of_registered hc).1
    have hlt := h.index_lt hc
    omega
  decodes hlookup := by
    have hc := h.registered hlookup
    obtain ⟨_, pfd, hentry, _⟩ := h.entry_of_registered hc
    exact ⟨pfd, hentry, h.entry_fd hc hentry⟩
  lookup_fd hlookup := by
    have hc := h.registered hlookup
    exact ⟨h.nonneg hc, hc⟩
  index_injective hlookup hlookup' hne heq :=
    hne (h.index_injective (h.registered hlookup) (h.registered hlookup') (by rw [heq]))

/-- A new object at an address that no table leads to changes nothing for the others. -/
theorem Tracked.new {p : Poller ι} (h : p.Tracked) {c : ι} (hc : ¬p.Registered c) (fd : ℤ) :
    (p.modify c fun _ => Channel.new fd).Tracked := by
  have hother : ∀ {fd' c'}, p.channels.lookup fd' = some c' →
      (p.modify c fun _ => Channel.new fd).channel c' = p.channel c' := fun hlookup =>
    modify_channel_of_ne p (by
      rintro rfl
      exact hc (h.agree.registered hlookup)) _
  refine ⟨⟨h.agree.size_eq, h.agree.nonneg, fun {fd' c'} hlookup => ?_, fun {i pfd} hget => ?_⟩,
    fun c' pfd hc' hentry => ?_⟩
  · rw [entry, hother hlookup]
    exact h.agree.of_lookup hlookup
  · obtain ⟨c', hlookup, hindex⟩ := h.agree.of_entry hget
    exact ⟨c', hlookup, by rw [hother hlookup, hindex]⟩
  · have hsame := hother hc'
    unfold entry at hentry
    unfold Registered at hc'
    rw [hsame] at hc' hentry ⊢
    exact h.events c' pfd hc' hentry

omit [DecidableEq ι] in
/-- A channel that a step leaves alone still has its events in its entry. -/
theorem Untouched.events_eq {p p' : Poller ι} {c : ι} {pfd : PollFd} (h : p.Tracked)
    (huntouched : Untouched p p' c) (hc : p'.Registered c) (hentry : p'.entry c = some pfd) :
    pfd.events = (p'.channel c).events.setWidth 16 := by
  have hc' := huntouched.registered.mp hc
  rw [huntouched.entry hc'] at hentry
  rw [huntouched.channel]
  exact h.events c pfd hc' hentry

/-- An update succeeds, keeps the tables as they should be, and records no events. -/
theorem Tracked.updateEvents {p : Poller ι} (h : p.Tracked) {c : ι}
    (hc : p.Registered c ∨ p.MayRegister c) (events : BitVec 32) :
    ∃ p', p.updateEvents c events = .ok p' ∧ p'.Tracked ∧
      ∀ d, (p'.channel d).revents = (p.channel d).revents := by
  have hself := modify_channel_self p c fun ch => { ch with events := events }
  have hagree := h.agree.modify c (f := fun ch => { ch with events := events })
    fun _ => ⟨rfl, rfl⟩
  have hfd : 0 ≤ (p.channel c).fd := hc.elim (fun hc => h.agree.nonneg hc) (fun hc => hc.2.1)
  have hok : ∃ p', p.updateEvents c events = .ok p' := by
    rcases hc with hc | ⟨hindex, _, hfree⟩
    · have hreg : (p.modify c fun ch => { ch with events := events }).Registered c := by
        unfold Registered
        rw [hself]
        exact hc
      obtain ⟨_, pfd, hentry, _⟩ := hagree.entry_of_registered hreg
      exact ⟨_, hagree.updateChannel hreg hentry⟩
    · have hnone : p.channels.lookup (p.channel c).fd = none := by
        cases hlookup : p.channels.lookup (p.channel c).fd with
        | none => rfl
        | some d =>
          exact absurd (h.agree.of_lookup hlookup).1 (hfree d (h.agree.registered hlookup))
      unfold Poller.updateEvents updateChannel
      rw [hself, if_pos hindex]
      exact ⟨_, require_bind_eq_ok.mpr ⟨hnone, rfl⟩⟩
  obtain ⟨p', hok⟩ := hok
  refine ⟨p', hok, ?_⟩
  have hupdated := hagree.updateChannel_eq_ok (by rw [hself]; exact hfd) hok
  refine ⟨⟨hupdated.agree, fun c' pfd hc' hentry => ?_⟩, fun d => ?_⟩
  · by_cases hne : c' = c
    · subst hne
      obtain ⟨fd, hentry', _⟩ := hupdated.entry
      rw [hentry] at hentry'
      cases hentry'
      rw [hupdated.channel]
    · exact ((untouched_modify p hne _).trans (hupdated.untouched c' hne)).events_eq h hc' hentry
  · by_cases hne : d = c
    · rw [hne, hupdated.channel, hself]
    · rw [((untouched_modify p hne _).trans (hupdated.untouched d hne)).channel]

/-- A removal succeeds, keeps the tables as they should be, and records no events. -/
theorem Tracked.removeChannel {p : Poller ι} (h : p.Tracked) {c : ι} (hc : p.Registered c)
    (hnone : (p.channel c).isNoneEvent = true) (hnegated : p.Negated c) :
    ∃ p', p.removeChannel c = .ok p' ∧ p'.Tracked ∧
      ∀ d, (p'.channel d).revents = (p.channel d).revents := by
  obtain ⟨pfd, hentry, hfd⟩ := Option.map_eq_some_iff.mp hnegated
  have hzero : (p.channel c).events = Channel.kNoneEvent := by
    simpa [Channel.isNoneEvent] using hnone
  have hevents : pfd.events.signExtend 32 = (p.channel c).events := by
    rw [h.events c pfd hc hentry, hzero]
    decide
  obtain ⟨p', hok, hdropped⟩ := h.agree.removeChannel hc hnone hentry hfd hevents
  refine ⟨p', hok, ⟨hdropped.agree, fun c' pfd' hc' hentry' => ?_⟩, fun d => ?_⟩
  · have hne : c' ≠ c := by
      rintro rfl
      exact hdropped.unregistered hc'
    exact (hdropped.untouched c' hne).events_eq h hc' hentry'
  · by_cases hne : d = c
    · rw [hne, hdropped.channel]
    · rw [(hdropped.untouched d hne).channel]

/-- The operation leaves the object at this address alive. -/
def TableOp.Spares (c : ι) : TableOp ι → Prop
  | .new d _ => d ≠ c
  | _ => True

/-- Every operation succeeds, keeps the tables as they should be, and leaves the recorded events
of the objects it spares as they are. -/
theorem Tracked.tableExec {p : Poller ι} (h : p.Tracked) {op : TableOp ι}
    (henabled : p.tableEnabled op) : ∃ p', p.tableExec op = .ok p' ∧ p'.Tracked ∧
      ∀ d, op.Spares d → (p'.channel d).revents = (p.channel d).revents := by
  cases op with
  | new c fd =>
    refine ⟨_, rfl, h.new henabled fd, fun d hd => ?_⟩
    rw [modify_channel_of_ne p (Ne.symm hd)]
  | updateChannel c events =>
    obtain ⟨p', hok, htracked, hrevents⟩ := h.updateEvents henabled events
    exact ⟨p', hok, htracked, fun d _ => hrevents d⟩
  | removeChannel c =>
    obtain ⟨p', hok, htracked, hrevents⟩ := h.removeChannel henabled.1 henabled.2.1 henabled.2.2
    exact ⟨p', hok, htracked, fun d _ => hrevents d⟩

/-- A removal takes out one entry. -/
theorem Tracked.takesOut {p p' : Poller ι} (h : p.Tracked) {c : ι}
    (hok : p.removeChannel c = .ok p') : TakesOut p p' c := by
  have hdropped := h.agree.removeChannel_eq_ok hok
  obtain ⟨hc, _, ⟨pfd, hentry, _⟩, hremove⟩ := removeChannel_eq_ok hok
  have hlookup : ∀ fd d, p'.channels.lookup fd = some d ↔
      p.channels.lookup fd = some d ∧ d ≠ c := by
    intro fd d
    constructor
    · intro hd
      have hreg := hdropped.agree.registered hd
      have hne : d ≠ c := by
        rintro rfl
        exact hdropped.unregistered hreg
      have hfd := (hdropped.agree.of_lookup hd).1
      have hold := (hdropped.untouched d hne).registered.mp hreg
      unfold Registered at hold
      rw [← hfd, (hdropped.untouched d hne).channel]
      exact ⟨hold, hne⟩
    · rintro ⟨hd, hne⟩
      have hreg := (hdropped.untouched d hne).registered.mpr (h.agree.registered hd)
      unfold Registered at hreg
      rw [(hdropped.untouched d hne).channel] at hreg
      rwa [← (h.agree.of_lookup hd).1]
  refine ⟨⟨pfd, hentry, removeEntry_perm hentry hremove⟩, hlookup, fun fd d hd => ?_⟩
  obtain ⟨hd, hne⟩ := (hlookup fd d).mp hd
  exact (hdropped.untouched d hne).entry (h.agree.registered hd)

/-- **The tables match.** After any operations on a Poller with empty tables, `pollfds_`,
`channels_` and the indexes match each other, no further operation that meets its precondition
fails an assertion, and a removal takes out the entry of its channel and no other. -/
theorem matched_of_run {p p' : Poller ι} {ops : List (TableOp ι)} (hempty : p.Empty)
    (hrun : (tableSystem ι).Run p ops p') :
    p'.Matched ∧ (tableSystem ι).Safe p' ∧
      ∀ c q, p'.removeChannel c = .ok q → TakesOut p' q c := by
  have htracked : p'.Tracked := by
    refine hrun.invariant hempty.tracked fun {q op q'} hq henabled hexec => ?_
    obtain ⟨q'', hok, htracked, _⟩ := hq.tableExec henabled
    rw [Except.ok.inj (hexec.symm.trans hok)]
    exact htracked
  refine ⟨htracked.agree.matched, fun op henabled => ?_, fun c q => htracked.takesOut⟩
  obtain ⟨q, hok, _⟩ := htracked.tableExec henabled
  exact ⟨q, hok⟩

/-- Three channels that have never registered. -/
def threeChannels : Poller (Fin 3) := ⟨[], ∅, fun c => Channel.new c, []⟩

/-- The tables of `threeChannels` are empty. -/
theorem threeChannels_empty : threeChannels.Empty := ⟨rfl, rfl, fun _ => rfl, rfl⟩

/-- The first channel leaves while the last entry is negated, then the last one does, and a new
channel with the descriptor of the first one registers. -/
def comeAndGo : List (TableOp (Fin 3)) :=
  [.updateChannel 0 1, .updateChannel 1 4, .updateChannel 2 1, .updateChannel 2 0,
    .updateChannel 0 0, .removeChannel 0, .updateChannel 1 0, .removeChannel 1, .new 1 0,
    .updateChannel 1 3]

/-- After `comeAndGo` two channels are registered, at indexes that match. -/
theorem matched_of_run_comeAndGo : ∃ p : Poller (Fin 3),
    (tableSystem (Fin 3)).Run threeChannels comeAndGo p ∧ p.Matched ∧
      p.channels.lookup 0 = some 1 ∧ p.channels.lookup 2 = some 2 := by
  have hcheck : ((tableSystem (Fin 3)).replay threeChannels comeAndGo).any (fun p =>
      decide (p.channels.lookup 0 = some 1 ∧ p.channels.lookup 2 = some 2)) = true := by
    decide +kernel
  obtain ⟨p, hrun, hp⟩ := System.exists_run_of_replay hcheck
  exact ⟨p, hrun, (matched_of_run threeChannels_empty hrun).1, of_decide_eq_true hp⟩

end Dalin.Net.Poller
