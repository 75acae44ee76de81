import Dalin.Net.PollerEvents
import Mathlib.Data.List.Perm.Basic

/-!
# The channels that a Poller holds

The tables of a Poller refer to channel objects by pointer and do not own them,
and two objects may stand for one descriptor after another. This file tells how
the functions of the Poller change the set of channels that the tables refer to,
whatever objects there are.
-/

set_option autoImplicit false

namespace Dalin.Net

open Slice

/-- The descriptors of the entries of `pollfds_`. -/
def pollFds (pollfds : List PollFd) : List ℤ := pollfds.map fun pfd => decodeFd pfd.fd

namespace Poller

variable {ι : Type} [DecidableEq ι] {p p' : Poller ι} {c : ι} {W : ι → Prop}

/-- The tables refer to the channels of `W`, each under its own descriptor, and `pollfds_` has
one entry for each of them. -/
structure Holds (p : Poller ι) (W : ι → Prop) : Prop where
  fd_nonneg : ∀ c, 0 ≤ (p.channel c).fd
  fd_of_lookup : ∀ {fd c}, p.channels.lookup fd = some c → (p.channel c).fd = fd
  registered : ∀ c, p.Registered c ↔ W c
  entries : (pollFds p.pollfds).Perm p.channels.keys

omit [DecidableEq ι] in
/-- The same channels, described in another way. -/
theorem Holds.congr {W' : ι → Prop} (h : p.Holds W) (hW : ∀ c, W c ↔ W' c) : p.Holds W' :=
  ⟨h.fd_nonneg, h.fd_of_lookup, fun c => (h.registered c).trans (hW c), h.entries⟩

omit [DecidableEq ι] in
/-- A channel in the map is one of `W`. -/
theorem Holds.of_lookup (h : p.Holds W) {fd : ℤ} (hlookup : p.channels.lookup fd = some c) :
    W c := by
  refine (h.registered c).mp ?_
  unfold Registered
  rw [h.fd_of_lookup hlookup]
  exact hlookup

omit [DecidableEq ι] in
/-- An entry of `pollfds_` belongs to a channel of `W`. -/
theorem Holds.of_entry (h : p.Holds W) {pfd : PollFd} (hpfd : pfd ∈ p.pollfds) :
    ∃ c, p.channels.lookup (decodeFd pfd.fd) = some c ∧ W c := by
  have hmem : decodeFd pfd.fd ∈ pollFds p.pollfds := List.mem_map_of_mem hpfd
  have hkey : decodeFd pfd.fd ∈ p.channels := h.entries.mem_iff.mp hmem
  obtain ⟨c, hlookup⟩ := Option.isSome_iff_exists.mp (AList.lookup_isSome.mpr hkey)
  exact ⟨c, hlookup, h.of_lookup hlookup⟩

omit [DecidableEq ι] in
/-- A Poller with the same tables, whose channels have the same descriptors. -/
theorem Holds.of_tables (h : p.Holds W) (hpollfds : pollFds p'.pollfds = pollFds p.pollfds)
    (hchannels : p'.channels = p.channels) (hfd : ∀ c, (p'.channel c).fd = (p.channel c).fd) :
    p'.Holds W := by
  refine ⟨fun c => ?_, fun {fd c} hlookup => ?_, fun c => ?_, ?_⟩
  · rw [hfd]
    exact h.fd_nonneg c
  · rw [hfd]
    exact h.fd_of_lookup (hchannels ▸ hlookup)
  · rw [← h.registered]
    unfold Registered
    rw [hchannels, hfd]
  · rw [hpollfds, hchannels]
    exact h.entries

/-- A field that a change of one channel keeps. -/
theorem modify_field {β : Type} {f : Channel → Channel} (field : Channel → β)
    (hf : field (f (p.channel c)) = field (p.channel c)) (c' : ι) :
    field ((p.modify c f).channel c') = field (p.channel c') := by
  by_cases hne : c' = c
  · rw [hne, modify_channel_self, hf]
  · rw [modify_channel_of_ne p hne]

/-- A change of a channel that keeps its descriptor. -/
theorem Holds.modify (h : p.Holds W) (c : ι) {f : Channel → Channel}
    (hf : (f (p.channel c)).fd = (p.channel c).fd) : (p.modify c f).Holds W :=
  h.of_tables rfl rfl (modify_field Channel.fd hf)

/-- A new channel object takes the place of one that is not registered. -/
theorem Holds.new (h : p.Holds W) {fd : ℤ} (hfd : 0 ≤ fd) (hc : ¬W c) :
    (p.modify c fun _ => Channel.new fd).Holds W := by
  have hother : ∀ {c'}, W c' → (p.modify c fun _ => Channel.new fd).channel c' = p.channel c' :=
    fun hc' => modify_channel_of_ne p (fun heq => hc (by rw [← heq]; exact hc')) _
  refine ⟨fun c' => ?_, fun {fd' c'} hlookup => ?_, fun c' => ⟨fun hreg => ?_, fun hc' => ?_⟩,
    h.entries⟩
  · by_cases hne : c' = c
    · rw [hne, modify_channel_self]
      exact hfd
    · rw [modify_channel_of_ne p hne]
      exact h.fd_nonneg c'
  · rw [hother (h.of_lookup hlookup)]
    exact h.fd_of_lookup hlookup
  · exact h.of_lookup hreg
  · unfold Registered
    rw [hother hc']
    exact (h.registered c').mpr hc'

/-! ### Updates and removals -/

/-- A new entry adds its channel. -/
theorem Holds.addEntry (h : p.Holds W) (hfree : p.channels.lookup (p.channel c).fd = none) :
    (p.addEntry c).Holds fun c' => c' = c ∨ W c' := by
  have hfd : ∀ c', ((p.addEntry c).channel c').fd = (p.channel c').fd := by
    intro c'
    rw [Agree.addEntry_channel]
    split
    · rename_i heq
      rw [heq]
    · rfl
  have hkey : (p.channel c).fd ∉ p.channels.keys := AList.lookup_eq_none.mp hfree
  have hself : (p.addEntry c).channels.lookup (p.channel c).fd = some c := AList.lookup_insert ..
  have hother : ∀ fd ≠ (p.channel c).fd,
      (p.addEntry c).channels.lookup fd = p.channels.lookup fd :=
    fun fd hne => AList.lookup_insert_ne hne
  refine ⟨fun c' => ?_, fun {fd c'} hlookup => ?_, fun c' => ?_, ?_⟩
  · rw [hfd]
    exact h.fd_nonneg c'
  · rw [hfd]
    by_cases hne : fd = (p.channel c).fd
    · rw [hne] at hlookup ⊢
      rw [Option.some.inj (hself.symm.trans hlookup)]
    · rw [hother fd hne] at hlookup
      exact h.fd_of_lookup hlookup
  · unfold Registered
    rw [hfd]
    by_cases hne : (p.channel c').fd = (p.channel c).fd
    · rw [hne, hself]
      constructor
      · intro hsome
        exact Or.inl (Option.some.inj hsome).symm
      · rintro (heq | hc')
        · rw [heq]
        · have hreg := (h.registered c').mpr hc'
          unfold Registered at hreg
          rw [hne, hfree] at hreg
          cases hreg
    · rw [hother _ hne]
      exact (h.registered c').trans ⟨Or.inr, fun hor => hor.resolve_left fun heq => hne (heq ▸ rfl)⟩
  · change (pollFds (p.pollfds ++ [_])).Perm (AList.keys (AList.insert ..))
    unfold pollFds
    rw [List.map_append, AList.keys_insert, List.erase_of_not_mem hkey]
    refine (List.perm_append_singleton _ _).trans ?_
    change (decodeFd (p.channel c).fd :: pollFds p.pollfds).Perm _
    rw [decodeFd_of_nonneg (h.fd_nonneg c)]
    exact h.entries.cons _

omit [DecidableEq ι] in
/-- A refreshed entry changes nothing. -/
theorem Holds.setEntry (h : p.Holds W) {pfd : PollFd} (hentry : p.entry c = some pfd)
    (hfd : pfd.fd = (p.channel c).fd ∨ pfd.fd = -(p.channel c).fd - 1) :
    (p.setEntry c pfd).Holds W := by
  have hnonneg := h.fd_nonneg c
  have hold : decodeFd pfd.fd = (p.channel c).fd := by
    rcases hfd with heq | heq
    · rw [heq, decodeFd_of_nonneg hnonneg]
    · rw [heq, decodeFd_neg hnonneg]
  refine h.of_tables ?_ rfl fun _ => rfl
  unfold Poller.setEntry pollFds
  rw [List.map_set]
  refine List.ext_getElem? fun k => ?_
  by_cases hk : k = (p.channel c).index.toNat
  · have hget : (p.pollfds.map fun pfd => decodeFd pfd.fd)[(p.channel c).index.toNat]? =
        some (decodeFd pfd.fd) := by
      rw [List.getElem?_map, show p.pollfds[(p.channel c).index.toNat]? = some pfd from hentry]
      rfl
    rw [hk, List.getElem?_set_self (List.getElem?_eq_some_iff.mp hget).1, hget, hold]
    dsimp only
    split
    · rw [decodeFd_neg hnonneg]
    · rw [hold]
  · rw [List.getElem?_set_ne (Ne.symm hk)]

omit [DecidableEq ι] in
/-- Removing the channel of a negated entry takes it out of both tables. -/
theorem Holds.removed (h : p.Holds W) {pfd : PollFd} (hreg : p.Registered c)
    (hfd : pfd.fd = -(p.channel c).fd - 1)
    (hpollfds : p.pollfds.Perm (pfd :: p'.pollfds))
    (hchannels : p'.channels = p.channels.erase (p.channel c).fd)
    (hfds : ∀ c, (p'.channel c).fd = (p.channel c).fd) :
    p'.Holds fun c' => c' ≠ c ∧ W c' := by
  have hself : p'.channels.lookup (p.channel c).fd = none := by
    rw [hchannels]
    exact AList.lookup_erase ..
  have hother : ∀ fd ≠ (p.channel c).fd, p'.channels.lookup fd = p.channels.lookup fd := by
    intro fd hne
    rw [hchannels]
    exact AList.lookup_erase_ne hne
  refine ⟨fun c' => ?_, fun {fd c'} hlookup => ?_, fun c' => ?_, ?_⟩
  · rw [hfds]
    exact h.fd_nonneg c'
  · rw [hfds]
    by_cases hne : fd = (p.channel c).fd
    · rw [hne, hself] at hlookup
      cases hlookup
    · rw [hother fd hne] at hlookup
      exact h.fd_of_lookup hlookup
  · unfold Registered
    rw [hfds]
    by_cases hne : (p.channel c').fd = (p.channel c).fd
    · rw [hne, hself]
      constructor
      · intro hsome
        cases hsome
      · rintro ⟨hcc, hc'⟩
        have hreg' := (h.registered c').mpr hc'
        unfold Registered at hreg hreg'
        rw [hne, hreg] at hreg'
        exact absurd (Option.some.inj hreg').symm hcc
    · rw [hother _ hne]
      exact (h.registered c').trans ⟨fun hc' => ⟨fun heq => hne (heq ▸ rfl), hc'⟩, And.right⟩
  · have hdecode : decodeFd pfd.fd = (p.channel c).fd := by
      rw [hfd, decodeFd_neg (h.fd_nonneg c)]
    have hperm : (decodeFd pfd.fd :: pollFds p'.pollfds).Perm p.channels.keys :=
      (hpollfds.map fun pfd : PollFd => decodeFd pfd.fd).symm.trans h.entries
    rw [hdecode] at hperm
    rw [hchannels, AList.keys_erase]
    exact (List.cons_perm_iff_perm_erase.mp hperm).2

/-- An interest call registers its channel if it is not registered yet. -/
theorem Holds.setInterest (h : p.Holds W) {i : Interest} (hok : p.setInterest c i = .ok p') :
    p'.Holds fun c' => c' = c ∨ W c' := by
  have hmodified := h.modify c (f := fun ch => { ch with events := i.apply ch.events }) rfl
  unfold Poller.setInterest at hok
  rcases updateChannel_eq_ok hok with ⟨_, hfree, rfl⟩ | ⟨_, hreg, pfd, hentry, hfd, rfl⟩
  · exact hmodified.addEntry hfree
  · refine (hmodified.setEntry hentry hfd).congr fun c' => ⟨Or.inr, ?_⟩
    rintro (heq | hc')
    · rw [heq]
      exact hmodified.of_lookup hreg
    · exact hc'

/-- A removal may change the index of a channel, and nothing else of it. -/
theorem removeEntry_field {β : Type} (field : Channel → β)
    (hfield : ∀ ch (idx : ℤ), field { ch with index := idx } = field ch)
    (hok : p.removeEntry c = .ok p') (c' : ι) : field (p'.channel c') = field (p.channel c') := by
  unfold removeEntry at hok
  by_cases hlast : (p.channel c).index.toNat = p.pollfds.length - 1
  · rw [if_pos hlast] at hok
    cases hok
    rfl
  · rw [if_neg hlast] at hok
    dsimp only at hok
    split at hok
    · cases hok
    · rename_i last _
      cases hok
      exact modify_field (p := p.eraseChannel c) (c := last)
        (f := fun ch => { ch with index := (p.channel c).index }) field (hfield _ _) c'

/-- A removal erases its channel from the map. -/
theorem removeEntry_channels (hok : p.removeEntry c = .ok p') :
    p'.channels = p.channels.erase (p.channel c).fd := by
  unfold removeEntry at hok
  split at hok
  · cases hok
    rfl
  · dsimp only at hok
    split at hok
    · cases hok
    · cases hok
      rfl

/-- A removal takes out a channel that was registered. -/
theorem Holds.removeChannel (h : p.Holds W) (hok : p.removeChannel c = .ok p') :
    p'.Holds fun c' => c' ≠ c ∧ W c' := by
  obtain ⟨hreg, _, ⟨pfd, hentry, hfd⟩, hremove⟩ := removeChannel_eq_ok hok
  exact h.removed hreg hfd (removeEntry_perm hentry hremove) (removeEntry_channels hremove)
    (removeEntry_field Channel.fd (fun _ _ => rfl) hremove)

/-! ### The events of the channels -/

/-- An interest call changes the events of its channel alone. -/
theorem setInterest_events {i : Interest} (hok : p.setInterest c i = .ok p') (c' : ι) :
    (p'.channel c').events =
      if c' = c then i.apply (p.channel c).events else (p.channel c').events := by
  have hmodified : ((p.modify c fun ch => { ch with events := i.apply ch.events }).channel
      c').events = if c' = c then i.apply (p.channel c).events else (p.channel c').events := by
    by_cases hne : c' = c
    · rw [hne, modify_channel_self, if_pos rfl]
    · rw [modify_channel_of_ne p hne, if_neg hne]
  rw [← hmodified]
  unfold setInterest at hok
  rcases updateChannel_eq_ok hok with ⟨_, _, rfl⟩ | ⟨_, _, pfd, _, _, rfl⟩
  · rw [Agree.addEntry_channel]
    split
    · rename_i heq
      rw [heq]
    · rfl
  · rfl

/-- A removal changes no events. -/
theorem removeChannel_events (hok : p.removeChannel c = .ok p') (c' : ι) :
    (p'.channel c').events = (p.channel c').events := by
  obtain ⟨_, _, _, hremove⟩ := removeChannel_eq_ok hok
  exact removeEntry_field Channel.events (fun _ _ => rfl) hremove c'

/-! ### Polls -/

omit [DecidableEq ι] in
/-- What `poll(2)` writes does not change which channels are registered. -/
theorem Holds.report (h : p.Holds W) {revents : List (BitVec 16)}
    (hlength : p.pollfds.length = revents.length) : (p.report revents).Holds W := by
  refine h.of_tables ?_ rfl fun _ => rfl
  unfold Poller.report pollFds
  rw [List.map_zipWith]
  generalize p.pollfds = pollfds at hlength
  induction pollfds generalizing revents with
  | nil => rfl
  | cons pfd rest ih =>
    cases revents with
    | nil => cases hlength
    | cons r revents =>
      rw [List.zipWith_cons_cons, List.map_cons, ih (Nat.succ.inj hlength)]

/-- Every channel that `fillActiveChannels` returns is in the map. -/
theorem fillFrom_active {pollfds : List PollFd} {active : List ι}
    (hok : p.fillFrom pollfds = .ok (p', active)) :
    SameTables p p' ∧ ∀ c ∈ active, ∃ fd, p.channels.lookup fd = some c := by
  induction pollfds generalizing p p' active with
  | nil =>
    cases hok
    exact ⟨.refl p, by simp⟩
  | cons pfd rest ih =>
    unfold fillFrom at hok
    split at hok
    · split at hok
      · cases hok
      · rename_i c hlookup
        obtain ⟨_, ⟨p₁, active₁⟩, hrest, hreturn⟩ := require_bind_eq_ok.mp hok |>.imp_right
          bind_eq_ok.mp
        cases hreturn
        obtain ⟨hsame, hactive⟩ := ih hrest
        refine ⟨(sameTables_modify p c _).trans hsame, fun c' hc' => ?_⟩
        rcases List.mem_cons.mp hc' with rfl | hc'
        · exact ⟨_, hlookup⟩
        · exact hactive c' hc'
    · exact ih hok

end Poller

end Dalin.Net
