import Dalin.Net.Poller

/-!
# Agreement of the Poller tables

Each operation on the Poller keeps `pollfds_`, `channels_` and the indexes in
the channels in agreement, and leaves every channel but its argument alone: the
swap in `removeChannel` moves an entry together with the index that leads to it.
-/

set_option autoImplicit false

namespace Dalin.Net.Poller

open Slice

variable {ι : Type}

/-- The tables agree: they have the same size, each channel in the map points to
an entry for its descriptor, and each entry belongs to such a channel. No two
channels share a descriptor. -/
structure Wf (p : Poller ι) : Prop where
  fd_nonneg : ∀ c, 0 ≤ (p.channel c).fd
  fd_injective : Function.Injective fun c => (p.channel c).fd
  size_eq : p.pollfds.length = p.channels.keys.length
  of_lookup : ∀ {fd c}, p.channels.lookup fd = some c →
    (p.channel c).fd = fd ∧ 0 ≤ (p.channel c).index ∧
      ∃ pfd, p.entry c = some pfd ∧ decodeFd pfd.fd = fd
  of_entry : ∀ {i : ℕ} {pfd}, p.pollfds[i]? = some pfd →
    ∃ c, p.channels.lookup (decodeFd pfd.fd) = some c ∧ (p.channel c).index = i

/-- The tables agree, whatever channel objects there are besides those in the map: `Wf` without
its conditions on the descriptors of channels that are not registered. -/
structure Agree (p : Poller ι) : Prop where
  size_eq : p.pollfds.length = p.channels.keys.length
  nonneg : ∀ {fd c}, p.channels.lookup fd = some c → 0 ≤ fd
  of_lookup : ∀ {fd c}, p.channels.lookup fd = some c →
    (p.channel c).fd = fd ∧ 0 ≤ (p.channel c).index ∧
      ∃ pfd, p.entry c = some pfd ∧ decodeFd pfd.fd = fd
  of_entry : ∀ {i : ℕ} {pfd}, p.pollfds[i]? = some pfd →
    ∃ c, p.channels.lookup (decodeFd pfd.fd) = some c ∧ (p.channel c).index = i

/-- Tables over channels with distinct non-negative descriptors agree. -/
theorem Wf.agree {p : Poller ι} (h : p.Wf) : p.Agree where
  size_eq := h.size_eq
  nonneg hlookup := (h.of_lookup hlookup).1 ▸ h.fd_nonneg _
  of_lookup := h.of_lookup
  of_entry := h.of_entry

/-- Tables that agree after a step that changes no descriptor. -/
theorem Wf.of_agree {p p' : Poller ι} (h : p.Wf) (h' : p'.Agree)
    (hfd : ∀ c, (p'.channel c).fd = (p.channel c).fd) : p'.Wf where
  fd_nonneg c := by
    rw [hfd]
    exact h.fd_nonneg c
  fd_injective c c' heq := h.fd_injective (by simpa only [hfd] using heq)
  size_eq := h'.size_eq
  of_lookup := h'.of_lookup
  of_entry := h'.of_entry

/-- A step of the Poller that leaves a channel alone: its entry may only move
together with its index, and a channel without an entry does not change. -/
structure Untouched (p p' : Poller ι) (c : ι) : Prop where
  channel : p'.channel c = { p.channel c with index := (p'.channel c).index }
  registered : p'.Registered c ↔ p.Registered c
  entry : p.Registered c → p'.entry c = p.entry c
  unregistered : ¬p.Registered c → p'.channel c = p.channel c

/-- What a completed removal of `c` leaves behind, whatever other objects there are. -/
structure Dropped (p p' : Poller ι) (c : ι) : Prop where
  calls : p'.calls = p.calls ++ [.remove c]
  channel : p'.channel c = p.channel c
  agree : p'.Agree
  unregistered : ¬p'.Registered c
  untouched : ∀ c', c' ≠ c → Untouched p p' c'

/-- What a completed `updateChannel` of `c` leaves behind, whatever other objects there are. The
last field gives the descriptor of the entry: a new entry is enabled, a refreshed one is negated
if the channel wants nothing and else keeps the sign it had. -/
structure Updated (p p' : Poller ι) (c : ι) : Prop where
  calls : p'.calls = p.calls ++ [.update c]
  channel : p'.channel c = { p.channel c with index := (p'.channel c).index }
  agree : p'.Agree
  registered : p'.Registered c
  untouched : ∀ c', c' ≠ c → Untouched p p' c'
  entry : ∃ fd, p'.entry c = some ⟨fd, (p.channel c).events.setWidth 16, 0⟩ ∧
    (((p.channel c).index < 0 ∧ fd = (p.channel c).fd) ∨
      (0 ≤ (p.channel c).index ∧ p.Registered c ∧ ∃ pfd, p.entry c = some pfd ∧
        fd = if (p.channel c).isNoneEvent then -(p.channel c).fd - 1 else pfd.fd))

/-- What a completed removal of `c` leaves behind. -/
structure Removed (p p' : Poller ι) (c : ι) : Prop where
  calls : p'.calls = p.calls ++ [.remove c]
  channel : p'.channel c = p.channel c
  wf : p'.Wf
  unregistered : ¬p'.Registered c
  untouched : ∀ c', c' ≠ c → Untouched p p' c'

/-- What a completed interest call on `c` leaves behind. The last field gives the
descriptor of the entry: a new entry is enabled, a refreshed one is negated if
the channel wants nothing and else keeps the sign it had. -/
structure InterestSet (p p' : Poller ι) (c : ι) (i : Interest) : Prop where
  calls : p'.calls = p.calls ++ [.update c]
  channel : p'.channel c = { p.channel c with
    events := i.apply (p.channel c).events
    index := (p'.channel c).index }
  wf : p'.Wf
  registered : p'.Registered c
  untouched : ∀ c', c' ≠ c → Untouched p p' c'
  entry : ∃ fd, p'.entry c = some ⟨fd, (i.apply (p.channel c).events).setWidth 16, 0⟩ ∧
    (((p.channel c).index < 0 ∧ fd = (p.channel c).fd) ∨
      (0 ≤ (p.channel c).index ∧ p.Registered c ∧ ∃ pfd, p.entry c = some pfd ∧
        fd = if i.apply (p.channel c).events = Channel.kNoneEvent then -(p.channel c).fd - 1
          else pfd.fd))

/-- Two steps that leave a channel alone make one that does. -/
theorem Untouched.trans {p p' p'' : Poller ι} {c : ι} (h : Untouched p p' c)
    (h' : Untouched p' p'' c) : Untouched p p'' c where
  channel := by rw [h'.channel, h.channel]
  registered := h'.registered.trans h.registered
  entry hc := (h'.entry (h.registered.mpr hc)).trans (h.entry hc)
  unregistered hc := (h'.unregistered fun hc' => hc (h.registered.mp hc')).trans (h.unregistered hc)

namespace Agree

variable {p : Poller ι}

/-- A registered channel has an entry for its descriptor. -/
theorem entry_of_registered (h : p.Agree) {c : ι} (hc : p.Registered c) :
    0 ≤ (p.channel c).index ∧ ∃ pfd, p.entry c = some pfd ∧
      decodeFd pfd.fd = (p.channel c).fd := (h.of_lookup hc).2

/-- The index of a registered channel is a place of `pollfds_`. -/
theorem index_lt (h : p.Agree) {c : ι} (hc : p.Registered c) :
    (p.channel c).index.toNat < p.pollfds.length := by
  obtain ⟨_, pfd, hentry, _⟩ := h.entry_of_registered hc
  exact (List.getElem?_eq_some_iff.mp hentry).1

/-- Distinct registered channels have distinct indexes. -/
theorem index_injective (h : p.Agree) {c c' : ι} (hc : p.Registered c) (hc' : p.Registered c')
    (heq : (p.channel c).index.toNat = (p.channel c').index.toNat) : c = c' := by
  obtain ⟨_, pfd, hentry, hfd⟩ := h.entry_of_registered hc
  obtain ⟨_, pfd', hentry', hfd'⟩ := h.entry_of_registered hc'
  rw [entry, heq, ← entry, hentry'] at hentry
  cases hentry
  have hlookup : p.channels.lookup (p.channel c).fd = some c' := by
    rw [← hfd, hfd']
    exact hc'
  exact Option.some.inj (Eq.trans (Eq.symm hc) hlookup)

/-- The entry of a registered channel carries its descriptor or its negation. -/
theorem entry_fd (h : p.Agree) {c : ι} {pfd : PollFd} (hc : p.Registered c)
    (hentry : p.entry c = some pfd) :
    pfd.fd = (p.channel c).fd ∨ pfd.fd = -(p.channel c).fd - 1 := by
  obtain ⟨_, pfd', hentry', hfd⟩ := h.entry_of_registered hc
  rw [hentry] at hentry'
  cases hentry'
  unfold decodeFd at hfd
  split at hfd <;> omega

end Agree

variable [DecidableEq ι]

/-- A removal takes the entry of its channel out of the table, and no other. -/
theorem removeEntry_perm {p p' : Poller ι} {c : ι} {pfd : PollFd} (hentry : p.entry c = some pfd)
    (hok : p.removeEntry c = .ok p') : p.pollfds.Perm (pfd :: p'.pollfds) := by
  have hperm := perm_swapPop (show p.pollfds[(p.channel c).index.toNat]? = some pfd from hentry)
  have hlt := (List.getElem?_eq_some_iff.mp hentry).1
  unfold removeEntry at hok
  by_cases hlast : (p.channel c).index.toNat = p.pollfds.length - 1
  · rw [if_pos hlast] at hok
    cases hok
    rwa [swapPop_last hlt hlast] at hperm
  · rw [if_neg hlast] at hok
    dsimp only at hok
    split at hok
    · cases hok
    · cases hok
      exact hperm

/-- Changing a channel object without touching its descriptor and index leaves
the other channels alone. -/
theorem untouched_modify (p : Poller ι) {c c' : ι} (hne : c' ≠ c) (f : Channel → Channel) :
    Untouched p (p.modify c f) c' := by
  have hch := modify_channel_of_ne p hne f
  refine ⟨by rw [hch], ?_, fun _ => ?_, fun _ => hch⟩
  · unfold Registered
    rw [hch]
    rfl
  · unfold entry
    rw [hch]
    rfl

namespace Agree

variable {p : Poller ι}

/-- On a registered channel `updateChannel` refreshes the entry. -/
theorem updateChannel (h : p.Agree) {c : ι} {pfd : PollFd} (hc : p.Registered c)
    (hentry : p.entry c = some pfd) : p.updateChannel c = .ok (p.setEntry c pfd) := by
  have hindex := (h.entry_of_registered hc).1
  have hlt := h.index_lt hc
  have hget : p.pollfds.getD (p.channel c).index.toNat default = pfd := by
    rw [List.getD_eq_getElem?_getD]
    exact congrArg (Option.getD · default) hentry
  unfold Poller.updateChannel
  rw [if_neg (by omega), require_bind_eq_ok]
  refine ⟨fun hnone => ?_, ?_⟩
  · cases Eq.trans (Eq.symm hc) hnone
  rw [require_bind_eq_ok]
  refine ⟨hc, ?_⟩
  rw [require_bind_eq_ok]
  refine ⟨by omega, ?_⟩
  simp only [hget, require_bind_eq_ok]
  exact ⟨h.entry_fd hc hentry, rfl⟩


/-- Changing a channel object without touching its descriptor and index keeps
the tables in agreement. -/
theorem modify (h : p.Agree) (c : ι) {f : Channel → Channel}
    (hf : ∀ ch, (f ch).fd = ch.fd ∧ (f ch).index = ch.index) : (p.modify c f).Agree := by
  have hfd (c' : ι) : ((p.modify c f).channel c').fd = (p.channel c').fd := by
    by_cases hc : c' = c
    · rw [hc, modify_channel_self, (hf _).1]
    · rw [modify_channel_of_ne p hc]
  have hindex (c' : ι) : ((p.modify c f).channel c').index = (p.channel c').index := by
    by_cases hc : c' = c
    · rw [hc, modify_channel_self, (hf _).2]
    · rw [modify_channel_of_ne p hc]
  refine ⟨h.size_eq, h.nonneg, fun {fd c'} hlookup => ?_, fun {i pfd} hentry => ?_⟩
  · rw [hfd, entry, hindex]
    exact h.of_lookup hlookup
  · obtain ⟨c', hlookup, hi⟩ := h.of_entry hentry
    exact ⟨c', hlookup, by rw [hindex, hi]⟩

/-! ### A new entry -/

/-- The fields of a channel after `addEntry`. -/
theorem addEntry_channel (p : Poller ι) (c c' : ι) :
    (p.addEntry c).channel c' =
      if c' = c then { p.channel c with index := p.pollfds.length } else p.channel c' := by
  by_cases hc : c' = c
  · subst hc
    rw [if_pos rfl]
    simp [Poller.addEntry]
  · rw [if_neg hc]
    exact Function.update_of_ne hc ..

/-- `addEntry` leaves the other channels alone. -/
theorem untouched_addEntry (h : p.Agree) {c c' : ι} (hne : c' ≠ c)
    (hfree : p.channels.lookup (p.channel c).fd = none) : Untouched p (p.addEntry c) c' := by
  have hch : (p.addEntry c).channel c' = p.channel c' := by rw [addEntry_channel, if_neg hne]
  refine ⟨by rw [hch], ?_, fun hc' => ?_, fun _ => hch⟩
  · unfold Registered
    rw [hch]
    change (p.channels.insert (p.channel c).fd c).lookup (p.channel c').fd = some c' ↔ _
    by_cases hfd : (p.channel c').fd = (p.channel c).fd
    · rw [hfd, AList.lookup_insert, hfree]
      simp [Ne.symm hne]
    · rw [AList.lookup_insert_ne hfd]
  · have hlt := h.index_lt hc'
    unfold entry
    rw [hch]
    exact List.getElem?_append_left hlt

/-- `addEntry` registers its channel and makes an enabled entry for it. -/
theorem registered_addEntry (p : Poller ι) (c : ι) :
    (p.addEntry c).Registered c ∧ (p.addEntry c).entry c =
      some ⟨(p.channel c).fd, (p.channel c).events.setWidth 16, 0⟩ := by
  have hch := addEntry_channel p c c
  rw [if_pos rfl] at hch
  unfold Registered entry
  rw [hch]
  refine ⟨AList.lookup_insert _, ?_⟩
  change (p.pollfds ++ [_])[((p.pollfds.length : ℤ)).toNat]? = _
  rw [Int.toNat_natCast, List.getElem?_concat_length]

/-- `addEntry` keeps the tables in agreement. -/
theorem addEntry (h : p.Agree) {c : ι} (hnonneg : 0 ≤ (p.channel c).fd)
    (hfree : p.channels.lookup (p.channel c).fd = none) : (p.addEntry c).Agree := by
  have hother {c' : ι} (hne : c' ≠ c) := untouched_addEntry h hne hfree
  have hself := registered_addEntry p c
  refine ⟨?_, fun {fd c'} hlookup => ?_, fun {fd c'} hlookup => ?_, fun {i pfd} hentry => ?_⟩
  · have hnew : (p.channel c).fd ∉ p.channels := AList.lookup_eq_none.mp hfree
    change (p.pollfds ++ [_]).length = (p.channels.insert (p.channel c).fd c).keys.length
    rw [AList.keys_insert, List.length_append, List.length_singleton, List.length_cons,
      List.erase_of_not_mem (by rwa [← AList.mem_keys]), h.size_eq]
  · change (p.channels.insert (p.channel c).fd c).lookup fd = some c' at hlookup
    by_cases hfd : fd = (p.channel c).fd
    · exact hfd ▸ hnonneg
    · rw [AList.lookup_insert_ne hfd] at hlookup
      exact h.nonneg hlookup
  · change (p.channels.insert (p.channel c).fd c).lookup fd = some c' at hlookup
    by_cases hfd : fd = (p.channel c).fd
    · rw [hfd, AList.lookup_insert] at hlookup
      cases hlookup
      refine ⟨?_, ?_, _, hself.2, ?_⟩
      · rw [addEntry_channel, if_pos rfl, hfd]
      · rw [addEntry_channel, if_pos rfl]
        exact Int.natCast_nonneg _
      · rw [hfd, decodeFd_of_nonneg hnonneg]
    · rw [AList.lookup_insert_ne hfd] at hlookup
      obtain ⟨hfd', hindex, pfd, hentry, hdecode⟩ := h.of_lookup hlookup
      have hne : c' ≠ c := by
        rintro rfl
        exact hfd hfd'.symm
      have hreg : p.Registered c' := by
        unfold Registered
        rwa [hfd']
      rw [(hother hne).entry hreg, addEntry_channel, if_neg hne]
      exact ⟨hfd', hindex, pfd, hentry, hdecode⟩
  · change (p.pollfds ++ [_])[i]? = some pfd at hentry
    rcases Nat.lt_or_ge i p.pollfds.length with hi | hi
    · rw [List.getElem?_append_left hi] at hentry
      obtain ⟨c', hlookup, hindex⟩ := h.of_entry hentry
      have hfd : decodeFd pfd.fd ≠ (p.channel c).fd := by
        intro heq
        rw [heq, hfree] at hlookup
        cases hlookup
      have hne : c' ≠ c := by
        rintro rfl
        exact hfd (h.of_lookup hlookup).1.symm
      refine ⟨c', ?_, by rw [addEntry_channel, if_neg hne, hindex]⟩
      change (p.channels.insert (p.channel c).fd c).lookup _ = _
      rw [AList.lookup_insert_ne hfd, hlookup]
    · have hlen := (List.getElem?_eq_some_iff.mp hentry).1
      rw [List.length_append, List.length_singleton] at hlen
      have hi' : i = p.pollfds.length := by omega
      rw [hi', List.getElem?_concat_length] at hentry
      cases hentry
      refine ⟨c, ?_, by rw [addEntry_channel, if_pos rfl, hi']⟩
      rw [decodeFd_of_nonneg hnonneg]
      exact AList.lookup_insert _

/-! ### A refreshed entry -/

section

omit [DecidableEq ι]


/-- The entry of a channel after `setEntry`. -/
theorem entry_setEntry (h : p.Agree) {c : ι} (hc : p.Registered c) (pfd : PollFd) :
    (p.setEntry c pfd).entry c =
      some ⟨if (p.channel c).isNoneEvent then -(p.channel c).fd - 1 else pfd.fd,
        (p.channel c).events.setWidth 16, 0⟩ :=
  List.getElem?_set_self (h.index_lt hc)

/-- `setEntry` leaves the other channels alone. -/
theorem untouched_setEntry (h : p.Agree) {c c' : ι} (hne : c' ≠ c) (hc : p.Registered c)
    (pfd : PollFd) : Untouched p (p.setEntry c pfd) c' := by
  refine ⟨rfl, Iff.rfl, fun hc' => ?_, fun _ => rfl⟩
  have hindex : (p.channel c).index.toNat ≠ (p.channel c').index.toNat :=
    fun heq => hne (h.index_injective hc hc' heq).symm
  exact List.getElem?_set_ne hindex

/-- `setEntry` keeps the tables in agreement. -/
theorem setEntry (h : p.Agree) {c : ι} {pfd : PollFd} (hc : p.Registered c)
    (hentry : p.entry c = some pfd) : (p.setEntry c pfd).Agree := by
  have hfd := h.nonneg hc
  -- The refreshed entry still stands for the descriptor of `c`.
  have hdecode : decodeFd (if (p.channel c).isNoneEvent then -(p.channel c).fd - 1 else pfd.fd) =
      (p.channel c).fd := by
    split
    · exact decodeFd_neg hfd
    · rcases h.entry_fd hc hentry with heq | heq
      · rw [heq, decodeFd_of_nonneg hfd]
      · rw [heq, decodeFd_neg hfd]
  refine ⟨?_, h.nonneg, fun {fd c'} hlookup => ?_, fun {i pfd'} hget => ?_⟩
  · change (p.pollfds.set _ _).length = _
    rw [List.length_set]
    exact h.size_eq
  · obtain ⟨hfd', hindex, pfd', hentry', hdecode'⟩ := h.of_lookup hlookup
    refine ⟨hfd', hindex, ?_⟩
    by_cases hne : c' = c
    · subst hne
      exact ⟨_, h.entry_setEntry hc pfd, hdecode.trans hfd'⟩
    · have hreg : p.Registered c' := by
        unfold Registered
        rwa [hfd']
      exact ⟨pfd', ((h.untouched_setEntry hne hc pfd).entry hreg).trans hentry', hdecode'⟩
  · by_cases hi : i = (p.channel c).index.toNat
    · subst hi
      have hnew := h.entry_setEntry hc pfd
      have hsame : some pfd' = _ := hget.symm.trans hnew
      cases hsame
      refine ⟨c, by rw [hdecode]; exact hc, ?_⟩
      exact (Int.toNat_of_nonneg (h.entry_of_registered hc).1).symm
    · have hget' : p.pollfds[i]? = some pfd' := by
        rw [← hget]
        exact (List.getElem?_set_ne (Ne.symm hi)).symm
      exact h.of_entry hget'

/-! ### A removed entry -/

/-- The channel that owns the last entry, when that is not the entry of `c`. -/
theorem last_entry (h : p.Agree) {c : ι} (hc : p.Registered c)
    (hlast : (p.channel c).index.toNat ≠ p.pollfds.length - 1) :
    ∃ c', c' ≠ c ∧ p.Registered c' ∧ (p.channel c').index = (p.pollfds.length - 1 : ℕ) ∧
      (p.channels.erase (p.channel c).fd).lookup
        (decodeFd (p.pollfds.getLastD default).fd) = some c' := by
  have hlt := h.index_lt hc
  have hget : p.pollfds[p.pollfds.length - 1]? = some (p.pollfds.getLastD default) := by
    rw [List.getLastD_eq_getLast?, List.getLast?_eq_getElem?]
    have hlen : p.pollfds.length - 1 < p.pollfds.length := by omega
    rw [List.getElem?_eq_getElem hlen]
    rfl
  obtain ⟨c', hlookup, hindex⟩ := h.of_entry hget
  have hfd := (h.of_lookup hlookup).1
  have hne : c' ≠ c := by
    rintro rfl
    omega
  have hreg : p.Registered c' := by
    unfold Registered
    rwa [hfd]
  refine ⟨c', hne, hreg, hindex, ?_⟩
  rw [AList.lookup_erase_ne, hlookup]
  intro heq
  rw [heq, hc] at hlookup
  exact hne (Option.some.inj hlookup).symm

/-- The tables left by `removeEntry` of `c`, described by where the remaining
entries went: `moved` is the index of each remaining channel. -/
theorem of_removal (h : p.Agree) {c : ι} (hc : p.Registered c) {p' : Poller ι}
    (hchannels : p'.channels = p.channels.erase (p.channel c).fd)
    (hlength : p'.pollfds.length = p.pollfds.length - 1)
    (hchannel : ∀ c', p'.channel c' = { p.channel c' with index := (p'.channel c').index })
    (hindex : ∀ c', c' ≠ c → p.Registered c' → 0 ≤ (p'.channel c').index ∧
      p'.entry c' = p.entry c')
    (hstale : ∀ c', ¬p.Registered c' → p'.channel c' = p.channel c')
    (howner : ∀ {i : ℕ} {pfd}, p'.pollfds[i]? = some pfd →
      ∃ c', c' ≠ c ∧ p.Registered c' ∧ decodeFd pfd.fd = (p.channel c').fd ∧
        (p'.channel c').index = i) :
    p'.Agree ∧ ¬p'.Registered c ∧ ∀ c', c' ≠ c → Untouched p p' c' := by
  have hfd (c' : ι) : (p'.channel c').fd = (p.channel c').fd := by rw [hchannel]
  have hreg {c' : ι} (hne : c' ≠ c) : p'.Registered c' ↔ p.Registered c' := by
    unfold Registered
    rw [hfd, hchannels]
    by_cases heq : (p.channel c').fd = (p.channel c).fd
    · rw [heq, AList.lookup_erase, hc]
      simp [Ne.symm hne]
    · rw [AList.lookup_erase_ne heq]
  refine ⟨⟨?_, fun {fd c'} hlookup => ?_, fun {fd c'} hlookup => ?_, fun {i pfd} hget => ?_⟩, ?_,
    fun c' hne => ⟨hchannel c', hreg hne, fun hc' => (hindex c' hne hc').2, hstale c'⟩⟩
  · have hmem : (p.channel c).fd ∈ p.channels.keys := by
      rw [← AList.mem_keys, ← AList.lookup_isSome, hc]
      rfl
    rw [hlength, hchannels, AList.keys_erase, List.length_erase_of_mem hmem, h.size_eq]
  · rw [hchannels] at hlookup
    by_cases hfdeq : fd = (p.channel c).fd
    · rw [hfdeq, AList.lookup_erase] at hlookup
      cases hlookup
    · rw [AList.lookup_erase_ne hfdeq] at hlookup
      exact h.nonneg hlookup
  · rw [hchannels] at hlookup
    have hfdne : fd ≠ (p.channel c).fd := by
      rintro rfl
      rw [AList.lookup_erase] at hlookup
      cases hlookup
    rw [AList.lookup_erase_ne hfdne] at hlookup
    obtain ⟨hfd', _, hentry⟩ := h.of_lookup hlookup
    have hne : c' ≠ c := by
      rintro rfl
      exact hfdne hfd'.symm
    have hc' : p.Registered c' := by
      unfold Registered
      rwa [hfd']
    obtain ⟨hnonneg, hsame⟩ := hindex c' hne hc'
    rw [hfd, hsame]
    exact ⟨hfd', hnonneg, hentry⟩
  · obtain ⟨c', hne, hc', hdecode, hi⟩ := howner hget
    refine ⟨c', ?_, hi⟩
    have := (hreg hne).mpr hc'
    rw [hdecode, ← hfd]
    exact this
  · unfold Registered
    rw [hfd, hchannels, AList.lookup_erase]
    intro hnone
    cases hnone

/-- Removing the last entry. -/
theorem popEntry (h : p.Agree) {c : ι} (hc : p.Registered c)
    (hlast : (p.channel c).index.toNat = p.pollfds.length - 1) : Dropped p (p.popEntry c) c := by
  have hother {c' : ι} (hne : c' ≠ c) (hc' : p.Registered c') :
      (p.channel c').index.toNat < p.pollfds.length - 1 := by
    have hlt' := h.index_lt hc'
    have hindex : (p.channel c').index.toNat ≠ (p.channel c).index.toNat :=
      fun heq => hne (h.index_injective hc' hc heq)
    omega
  have hremoval : (p.popEntry c).Agree ∧ ¬(p.popEntry c).Registered c ∧
      ∀ c', c' ≠ c → Untouched p (p.popEntry c) c' := by
    have hchannels : (p.popEntry c).channels = p.channels.erase (p.channel c).fd := rfl
    refine h.of_removal hc hchannels List.length_dropLast (fun _ => rfl) ?_ (fun _ _ => rfl) ?_
    · intro c' hne hc'
      refine ⟨(h.entry_of_registered hc').1, ?_⟩
      change p.pollfds.dropLast[_]? = _
      rw [List.getElem?_dropLast]
      exact if_pos (hother hne hc')
    · intro i pfd hget
      change p.pollfds.dropLast[i]? = some pfd at hget
      have hi := (List.getElem?_eq_some_iff.mp hget).1
      rw [List.length_dropLast] at hi
      rw [List.getElem?_dropLast, if_pos hi] at hget
      obtain ⟨c', hlookup, hindex⟩ := h.of_entry hget
      have hfd := (h.of_lookup hlookup).1
      refine ⟨c', ?_, ?_, hfd.symm, hindex⟩
      · rintro rfl
        omega
      · unfold Registered
        rwa [hfd]
  exact ⟨rfl, rfl, hremoval.1, hremoval.2.1, hremoval.2.2⟩

end

/-- Removing an entry that is not the last one: the last entry moves into its
place, and the channel it belongs to learns its new index. -/
theorem swapEntry (h : p.Agree) {c last : ι} (hc : p.Registered c) (hne : last ≠ c)
    (hlast : p.Registered last) (hindex : (p.channel last).index = (p.pollfds.length - 1 : ℕ))
    (hinner : (p.channel c).index.toNat ≠ p.pollfds.length - 1) :
    Dropped p (p.swapEntry c last) c := by
  have hlt := h.index_lt hc
  have hself : (p.swapEntry c last).channel last =
      { p.channel last with index := (p.channel c).index } := Function.update_self ..
  have hmoved : ((p.swapEntry c last).channel last).index = (p.channel c).index := by
    rw [hself]
  have hsame {c' : ι} (hc' : c' ≠ last) : (p.swapEntry c last).channel c' = p.channel c' :=
    Function.update_of_ne hc' ..
  have hindexc := (h.entry_of_registered hc).1
  have hremoval : (p.swapEntry c last).Agree ∧ ¬(p.swapEntry c last).Registered c ∧
      ∀ c', c' ≠ c → Untouched p (p.swapEntry c last) c' := by
    apply h.of_removal hc rfl (length_swapPop hlt)
    · intro c'
      by_cases hc' : c' = last
      · subst hc'
        rw [hself]
      · rw [hsame hc']
    · intro c' hne' hc'
      have hlt' := h.index_lt hc'
      by_cases heq : c' = last
      · subst heq
        rw [entry, hmoved]
        refine ⟨hindexc, ?_⟩
        change (swapPop p.pollfds _)[_]? = _
        rw [getElem?_swapPop hlt (by omega), if_pos rfl, entry, hindex, Int.toNat_natCast]
      · rw [entry, hsame heq]
        refine ⟨(h.entry_of_registered hc').1, ?_⟩
        have hnotlast : (p.channel c').index.toNat ≠ (p.channel last).index.toNat :=
          fun hi => heq (h.index_injective hc' hlast hi)
        have hnotself : (p.channel c').index.toNat ≠ (p.channel c).index.toNat :=
          fun hi => hne' (h.index_injective hc' hc hi)
        change (swapPop p.pollfds _)[_]? = _
        rw [getElem?_swapPop hlt (by omega), if_neg hnotself]
        rfl
    · intro c' hc'
      refine hsame ?_
      rintro rfl
      exact hc' hlast
    · intro i pfd hget
      change (swapPop p.pollfds _)[i]? = some pfd at hget
      have hi := (List.getElem?_eq_some_iff.mp hget).1
      rw [length_swapPop hlt] at hi
      rw [getElem?_swapPop hlt hi] at hget
      by_cases hidx : i = (p.channel c).index.toNat
      · rw [if_pos hidx] at hget
        obtain ⟨c', hlookup, hindex'⟩ := h.of_entry hget
        have hfd := (h.of_lookup hlookup).1
        have hreg : p.Registered c' := by
          unfold Registered
          rwa [hfd]
        have heq : c' = last := h.index_injective hreg hlast (by rw [hindex', hindex])
        subst heq
        exact ⟨c', hne, hreg, hfd.symm, by rw [hmoved]; omega⟩
      · rw [if_neg hidx] at hget
        obtain ⟨c', hlookup, hindex'⟩ := h.of_entry hget
        have hfd := (h.of_lookup hlookup).1
        have hreg : p.Registered c' := by
          unfold Registered
          rwa [hfd]
        have hnotlast : c' ≠ last := by
          rintro rfl
          omega
        refine ⟨c', ?_, hreg, hfd.symm, by rw [hsame hnotlast, hindex']⟩
        rintro rfl
        omega
  exact ⟨rfl, hsame (Ne.symm hne), hremoval.1, hremoval.2.1, hremoval.2.2⟩

/-- `removeEntry` of a registered channel succeeds, keeps the tables in agreement,
unregisters the channel, and leaves every other channel alone. -/
theorem removeEntry (h : p.Agree) {c : ι} (hc : p.Registered c) :
    ∃ p', p.removeEntry c = .ok p' ∧ Dropped p p' c := by
  unfold Poller.removeEntry
  by_cases hlast : (p.channel c).index.toNat = p.pollfds.length - 1
  · exact ⟨_, if_pos hlast, h.popEntry hc hlast⟩
  · obtain ⟨last, hne, hreg, hindex, hlookup⟩ := h.last_entry hc hlast
    refine ⟨p.swapEntry c last, ?_, h.swapEntry hc hne hreg hindex hlast⟩
    have herased : (p.eraseChannel c).channels.lookup
        (decodeFd (p.pollfds.getLastD default).fd) = some last := hlookup
    rw [if_neg hlast]
    dsimp only
    rw [herased]

/-- A registered channel that wants nothing, and whose entry says so, can be removed. -/
theorem removeChannel (h : p.Agree) {c : ι} {pfd : PollFd} (hc : p.Registered c)
    (hnone : (p.channel c).isNoneEvent = true) (hentry : p.entry c = some pfd)
    (hfd : pfd.fd = -(p.channel c).fd - 1)
    (hevents : pfd.events.signExtend 32 = (p.channel c).events) :
    ∃ p', p.removeChannel c = .ok p' ∧ Dropped p p' c := by
  obtain ⟨p', hok, hdropped⟩ := h.removeEntry hc
  refine ⟨p', ?_, hdropped⟩
  have hlt := h.index_lt hc
  have hnonneg := (h.entry_of_registered hc).1
  have hget : p.pollfds.getD (p.channel c).index.toNat default = pfd := by
    rw [List.getD_eq_getElem?_getD]
    exact congrArg (Option.getD · default) hentry
  have hmem : (p.channel c).fd ∈ p.channels := by
    rw [← AList.lookup_isSome, hc]
    rfl
  unfold Poller.removeChannel
  simp only [require_bind_eq_ok, hget]
  exact ⟨fun heq => (by cases Eq.trans (Eq.symm hc) heq), hc, hnone, by omega, ⟨hfd, hevents⟩,
    hmem, hok⟩

/-- Every completed removal is the one described by `Dropped`. -/
theorem removeChannel_eq_ok (h : p.Agree) {c : ι} {p' : Poller ι}
    (hok : p.removeChannel c = .ok p') : Dropped p p' c := by
  obtain ⟨hc, _, _, hentry⟩ := Poller.removeChannel_eq_ok hok
  obtain ⟨p'', hok', hdropped⟩ := h.removeEntry hc
  rw [hentry] at hok'
  cases hok'
  exact hdropped

/-- Every completed update is one of the two described by `Updated`. -/
theorem updateChannel_eq_ok (h : p.Agree) {c : ι} {p' : Poller ι} (hfd : 0 ≤ (p.channel c).fd)
    (hok : p.updateChannel c = .ok p') : Updated p p' c := by
  rcases Poller.updateChannel_eq_ok hok with ⟨hnew, hfree, rfl⟩ | ⟨hold, hc, pfd, hpfd, _, rfl⟩
  · have hself := registered_addEntry p c
    refine ⟨rfl, ?_, h.addEntry hfd hfree, hself.1, fun c' hne => h.untouched_addEntry hne hfree,
      _, hself.2, Or.inl ⟨hnew, rfl⟩⟩
    rw [addEntry_channel, if_pos rfl]
  · exact ⟨rfl, rfl, h.setEntry hc hpfd, hc, fun c' hne => h.untouched_setEntry hne hc pfd,
      _, h.entry_setEntry hc pfd, Or.inr ⟨hold, hc, pfd, hpfd, rfl⟩⟩

end Agree

namespace Wf

variable {p : Poller ι}

/-- A removal of a registered channel leaves descriptors as they are. -/
theorem removed (h : p.Wf) {c : ι} {p' : Poller ι} (hdropped : Dropped p p' c) :
    Removed p p' c where
  calls := hdropped.calls
  channel := hdropped.channel
  wf := h.of_agree hdropped.agree fun c' => by
    by_cases hne : c' = c
    · rw [hne, hdropped.channel]
    · rw [(hdropped.untouched c' hne).channel]
  unregistered := hdropped.unregistered
  untouched := hdropped.untouched

/-- Every completed removal is the one described by `Removed`. -/
theorem removeChannel_eq_ok (h : p.Wf) {c : ι} {p' : Poller ι}
    (hok : p.removeChannel c = .ok p') : Removed p p' c :=
  h.removed (h.agree.removeChannel_eq_ok hok)

/-! ### An interest call -/

/-- Every completed interest call is one of the two described by `InterestSet`. -/
theorem setInterest_eq_ok (h : p.Wf) {c : ι} {i : Interest} {p' : Poller ι}
    (hok : p.setInterest c i = .ok p') : InterestSet p p' c i := by
  have hagree := h.agree.modify c (f := fun ch => { ch with events := i.apply ch.events })
    fun _ => ⟨rfl, rfl⟩
  have hself := modify_channel_self p c fun ch => { ch with events := i.apply ch.events }
  have hmodify {c' : ι} (hne : c' ≠ c) := untouched_modify p hne fun ch =>
    { ch with events := i.apply ch.events }
  have hreg : (p.modify c fun ch => { ch with events := i.apply ch.events }).Registered c ↔
      p.Registered c := by
    unfold Registered
    rw [hself]
    rfl
  have hentry : (p.modify c fun ch => { ch with events := i.apply ch.events }).entry c =
      p.entry c := by
    unfold entry
    rw [hself]
    rfl
  have hupdated := hagree.updateChannel_eq_ok (by rw [hself]; exact h.fd_nonneg c) hok
  have huntouched (c' : ι) (hne : c' ≠ c) := (hmodify hne).trans (hupdated.untouched c' hne)
  have hchannel := hupdated.channel
  obtain ⟨fd, hnewEntry, hfd⟩ := hupdated.entry
  rw [hself] at hchannel hnewEntry hfd
  rw [hreg, hentry] at hfd
  refine ⟨hupdated.calls, hchannel, h.of_agree hupdated.agree fun c' => ?_, hupdated.registered,
    huntouched, fd, hnewEntry, ?_⟩
  · by_cases hne : c' = c
    · rw [hne, hchannel]
    · rw [(huntouched c' hne).channel]
  · simpa only [Channel.isNoneEvent, beq_iff_eq] using hfd

/-- An interest call on a registered channel succeeds. -/
theorem exists_setInterest (h : p.Wf) {c : ι} (hc : p.Registered c) (i : Interest) :
    ∃ p', p.setInterest c i = .ok p' ∧ InterestSet p p' c i := by
  have hagree := h.agree.modify c (f := fun ch => { ch with events := i.apply ch.events })
    fun _ => ⟨rfl, rfl⟩
  have hreg : (p.modify c fun ch => { ch with events := i.apply ch.events }).Registered c := by
    unfold Registered
    rw [modify_channel_self]
    exact hc
  obtain ⟨_, pfd, hentry, _⟩ := hagree.entry_of_registered hreg
  have hok := hagree.updateChannel hreg hentry
  exact ⟨_, hok, h.setInterest_eq_ok hok⟩

/-- An interest call on a channel without an index succeeds. -/
theorem exists_setInterest_of_new (h : p.Wf) {c : ι} (hindex : (p.channel c).index < 0)
    (i : Interest) : ∃ p', p.setInterest c i = .ok p' := by
  have hnone : p.channels.lookup (p.channel c).fd = none := by
    cases hlookup : p.channels.lookup (p.channel c).fd with
    | none => rfl
    | some c' =>
      obtain ⟨hfd, hnonneg, _⟩ := h.of_lookup hlookup
      have := h.fd_injective hfd
      subst this
      omega
  unfold setInterest Poller.updateChannel
  rw [modify_channel_self, if_pos hindex]
  exact ⟨_, require_bind_eq_ok.mpr ⟨hnone, rfl⟩⟩

end Wf

end Dalin.Net.Poller
