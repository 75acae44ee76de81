import Dalin.Net.PollerTables
import Mathlib.Data.List.Forall2

/-!
# The events of a poll

`poll(2)` reports events into the `revents` of each entry, and
`fillActiveChannels` hands them to the channels of the entries. A negated entry
reports nothing, so a channel that was disabled is not active until its entry
is enabled.
-/

set_option autoImplicit false

namespace Dalin.Net

/-- The events that `poll(2)` may report for an entry: those asked for, the three
that are always reported, and none for a negated descriptor. -/
def PollFd.MayReport (pfd : PollFd) (revents : BitVec 16) : Prop :=
  (pfd.fd < 0 → revents = 0) ∧
    revents &&& ~~~(pfd.events ||| (POLLERR ||| POLLHUP ||| POLLNVAL).setWidth 16) = 0

instance (pfd : PollFd) (revents : BitVec 16) : Decidable (pfd.MayReport revents) :=
  inferInstanceAs (Decidable (_ ∧ _))

namespace Poller

variable {ι : Type} [DecidableEq ι]

/-- The results that `poll(2)` may write into the table. -/
def MayReport (p : Poller ι) (revents : List (BitVec 16)) : Prop :=
  List.Forall₂ PollFd.MayReport p.pollfds revents

instance (p : Poller ι) (revents : List (BitVec 16)) : Decidable (p.MayReport revents) :=
  inferInstanceAs (Decidable (List.Forall₂ _ _ _))

/-- The effect of `poll(2)` on the table. -/
def report (p : Poller ι) (revents : List (BitVec 16)) : Poller ι :=
  { p with
    pollfds := p.pollfds.zipWith (fun pfd revents => { pfd with revents := revents }) revents }

/-- The loop of `Poller::fillActiveChannels` over the rest of the table. -/
def fillFrom (p : Poller ι) : List PollFd → Except Failure (Poller ι × List ι)
  | [] => .ok (p, [])
  | pfd :: rest =>
    if 0 < pfd.revents.toInt then
      match p.channels.lookup pfd.fd with
      | none => .error (.assertion "ch != channels_.end()")
      | some c => do
        require ((p.channel c).fd = pfd.fd) "channel->fd() == pfd->fd"
        let (p, activeChannels) ← fillFrom
          (p.modify c fun ch => { ch with revents := pfd.revents.signExtend 32 }) rest
        return (p, c :: activeChannels)
    else fillFrom p rest

/-- `Poller::fillActiveChannels`. -/
def fillActiveChannels (p : Poller ι) : Except Failure (Poller ι × List ι) :=
  p.fillFrom p.pollfds

/-- Two Pollers that differ in the `revents` of their channels at most. -/
structure SameTables (p p' : Poller ι) : Prop where
  pollfds : p'.pollfds = p.pollfds
  channels : p'.channels = p.channels
  calls : p'.calls = p.calls
  channel : ∀ c, p'.channel c = { p.channel c with revents := (p'.channel c).revents }

omit [DecidableEq ι] in
/-- The same Poller. -/
theorem SameTables.refl (p : Poller ι) : SameTables p p := ⟨rfl, rfl, rfl, fun _ => rfl⟩

omit [DecidableEq ι] in
/-- One change of events after the other. -/
theorem SameTables.trans {p p' p'' : Poller ι} (h : SameTables p p') (h' : SameTables p' p'') :
    SameTables p p'' where
  pollfds := h'.pollfds.trans h.pollfds
  channels := h'.channels.trans h.channels
  calls := h'.calls.trans h.calls
  channel c := by rw [h'.channel, h.channel]

omit [DecidableEq ι] in
/-- The entry of a channel does not depend on `revents`. -/
theorem SameTables.entry {p p' : Poller ι} (h : SameTables p p') (c : ι) :
    p'.entry c = p.entry c := by
  unfold Poller.entry
  rw [h.pollfds, h.channel]

omit [DecidableEq ι] in
/-- Whether a channel is registered does not depend on `revents`. -/
theorem SameTables.registered {p p' : Poller ι} (h : SameTables p p') (c : ι) :
    p'.Registered c ↔ p.Registered c := by
  unfold Registered
  rw [h.channels, h.channel]

omit [DecidableEq ι] in
/-- A change of `revents` keeps the tables in agreement. -/
theorem Agree.of_sameTables {p p' : Poller ι} (h : p.Agree) (hsame : SameTables p p') :
    p'.Agree := by
  have hfd (c : ι) : (p'.channel c).fd = (p.channel c).fd := by rw [hsame.channel]
  refine ⟨?_, fun {fd c} hlookup => h.nonneg (hsame.channels ▸ hlookup), fun {fd c} hlookup => ?_,
    fun {i pfd} hget => ?_⟩
  · rw [hsame.pollfds, hsame.channels]
    exact h.size_eq
  · rw [hsame.channels] at hlookup
    rw [hsame.entry, hsame.channel]
    exact h.of_lookup hlookup
  · rw [hsame.pollfds] at hget
    obtain ⟨c, hlookup, hindex⟩ := h.of_entry hget
    refine ⟨c, by rw [hsame.channels, hlookup], ?_⟩
    rw [hsame.channel]
    exact hindex

/-- Recording the events of one channel changes its `revents` alone. -/
theorem sameTables_modify (p : Poller ι) (c : ι) (revents : BitVec 32) :
    SameTables p (p.modify c fun ch => { ch with revents := revents }) := by
  refine ⟨rfl, rfl, rfl, fun c' => ?_⟩
  by_cases hne : c' = c
  · rw [hne, modify_channel_self]
  · rw [modify_channel_of_ne p hne]

/-- What `fillActiveChannels` gives: each active channel has an enabled entry with
events, which are now its `revents`, and the other channels are as before. -/
structure Filled (p p' : Poller ι) (activeChannels : List ι) : Prop where
  tables : SameTables p p'
  active : ∀ c ∈ activeChannels, p.Registered c ∧ ∃ pfd, p.entry c = some pfd ∧
    pfd.fd = (p.channel c).fd ∧ (p'.channel c).revents = pfd.revents.signExtend 32
  inactive : ∀ c, c ∉ activeChannels → p'.channel c = p.channel c
  nodup : activeChannels.Nodup

/-- What the loop of `fillActiveChannels` gives from the `k`-th entry on: the channels of the
entries with events, in the order of their entries. -/
structure FilledFrom (p p' : Poller ι) (k : ℕ) (activeChannels : List ι) : Prop
    extends Filled p p' activeChannels where
  sorted : activeChannels.Pairwise fun c d => (p.channel c).index < (p.channel d).index
  mem_iff : ∀ c, c ∈ activeChannels ↔ p.Registered c ∧ (k : ℤ) ≤ (p.channel c).index ∧
    ∃ pfd, p.entry c = some pfd ∧ 0 < pfd.revents.toInt

omit [DecidableEq ι] in
/-- The channel that an enabled entry belongs to. -/
theorem Agree.enabled_entry {p : Poller ι} (h : p.Agree) {i : ℕ} {pfd : PollFd}
    (hget : p.pollfds[i]? = some pfd) (hfd : 0 ≤ pfd.fd) :
    ∃ c, p.channels.lookup pfd.fd = some c ∧ (p.channel c).fd = pfd.fd ∧
      (p.channel c).index = i ∧ p.Registered c ∧ p.entry c = some pfd := by
  obtain ⟨c, hlookup, hindex⟩ := h.of_entry hget
  rw [decodeFd_of_nonneg hfd] at hlookup
  have hfd' := (h.of_lookup hlookup).1
  refine ⟨c, hlookup, hfd', hindex, ?_, ?_⟩
  · unfold Registered
    rw [hfd', hlookup]
  · unfold Poller.entry
    rw [hindex, Int.toNat_natCast, hget]

omit [DecidableEq ι] in
/-- The channel at index `k` is that of the `k`-th entry. -/
theorem Agree.eq_of_index {p : Poller ι} (h : p.Agree) {c c' : ι} (hc : p.Registered c)
    (hc' : p.Registered c') (heq : (p.channel c').index = (p.channel c).index) : c' = c :=
  h.index_injective hc' hc (by rw [heq])

/-- The loop of `fillActiveChannels` over the table from its `k`-th entry on. -/
theorem Agree.fillFrom {p : Poller ι} (h : p.Agree)
    (henabled : ∀ pfd ∈ p.pollfds, 0 < pfd.revents.toInt → 0 ≤ pfd.fd) {k : ℕ}
    {rest : List PollFd} (hrest : p.pollfds.drop k = rest) :
    ∃ p' activeChannels, p.fillFrom rest = .ok (p', activeChannels) ∧
      FilledFrom p p' k activeChannels := by
  induction rest generalizing p k with
  | nil =>
    have hnone : ∀ c, ¬(p.Registered c ∧ (k : ℤ) ≤ (p.channel c).index ∧
        ∃ pfd, p.entry c = some pfd ∧ 0 < pfd.revents.toInt) := by
      rintro c ⟨hc, hk, _⟩
      have hlt := h.index_lt hc
      have hlength := List.drop_eq_nil_iff.mp hrest
      omega
    refine ⟨p, [], rfl, ⟨.refl p, by simp, fun _ _ => rfl, List.nodup_nil⟩, List.Pairwise.nil,
      fun c => ⟨by simp, fun hc => absurd hc (hnone c)⟩⟩
  | cons pfd rest ih =>
    have hget : p.pollfds[k]? = some pfd := by
      rw [← List.head?_drop, hrest]
      rfl
    have hdrop : p.pollfds.drop (k + 1) = rest := by
      rw [← List.tail_drop, hrest]
      rfl
    unfold Poller.fillFrom
    by_cases hevents : 0 < pfd.revents.toInt
    · obtain ⟨c, hlookup, hfd, hindex, hreg, hentry⟩ :=
        h.enabled_entry hget (henabled pfd (List.mem_of_getElem? hget) hevents)
      have hsame := sameTables_modify p c (pfd.revents.signExtend 32)
      have hself := modify_channel_self p c fun ch =>
        { ch with revents := pfd.revents.signExtend 32 }
      obtain ⟨p', active, hok, hfilled⟩ :=
        ih (p := p.modify c fun ch => { ch with revents := pfd.revents.signExtend 32 })
          (k := k + 1) (h.of_sameTables hsame) henabled hdrop
      -- In terms of the Poller before this entry.
      have hindexes : ∀ c', ((p.modify c fun ch =>
          { ch with revents := pfd.revents.signExtend 32 }).channel c').index =
          (p.channel c').index := fun c' => by rw [hsame.channel]
      have hmem : ∀ c', c' ∈ active ↔ p.Registered c' ∧ ((k + 1 : ℕ) : ℤ) ≤ (p.channel c').index ∧
          ∃ pfd, p.entry c' = some pfd ∧ 0 < pfd.revents.toInt := fun c' => by
        rw [hfilled.mem_iff, hsame.registered, hindexes, hsame.entry]
      -- The entries behind this one belong to other channels.
      have hnotmem : c ∉ active := by
        intro hc
        have := ((hmem c).mp hc).2.1
        omega
      refine ⟨p', c :: active, ?_, ⟨hsame.trans hfilled.tables, fun c' hc' => ?_,
        fun c' hc' => ?_, List.nodup_cons.mpr ⟨hnotmem, hfilled.nodup⟩⟩,
        List.pairwise_cons.mpr ⟨fun c' hc' => ?_, ?_⟩, fun c' => ⟨fun hc' => ?_, ?_⟩⟩
      · rw [if_pos hevents]
        simp only [hlookup, require_of_true hfd]
        change (Poller.fillFrom _ rest >>= _) = _
        rw [hok]
        rfl
      · rcases List.mem_cons.mp hc' with rfl | hc'
        · refine ⟨hreg, pfd, hentry, hfd.symm, ?_⟩
          rw [hfilled.inactive c' hnotmem, hself]
        · obtain ⟨hreg', pfd', hentry', hfd', hrevents⟩ := hfilled.active c' hc'
          refine ⟨(hsame.registered c').mp hreg', pfd', ?_, ?_, hrevents⟩
          · rwa [hsame.entry] at hentry'
          · rw [hfd', hsame.channel]
      · obtain ⟨hne, hc'⟩ := not_or.mp (fun hor => hc' (List.mem_cons.mpr hor))
        rw [hfilled.inactive c' hc', modify_channel_of_ne p hne]
      · have := ((hmem c').mp hc').2.1
        omega
      · simpa only [hindexes] using hfilled.sorted
      · rcases List.mem_cons.mp hc' with rfl | hc'
        · exact ⟨hreg, by omega, pfd, hentry, hevents⟩
        · obtain ⟨hreg', hk, hentry'⟩ := (hmem c').mp hc'
          exact ⟨hreg', by omega, hentry'⟩
      · rintro ⟨hreg', hk, hentry'⟩
        by_cases heq : (p.channel c').index = k
        · exact List.mem_cons.mpr (Or.inl (h.eq_of_index hreg hreg' (by rw [heq, hindex])))
        · exact List.mem_cons_of_mem _ ((hmem c').mpr ⟨hreg', by omega, hentry'⟩)
    · obtain ⟨p', active, hok, hfilled⟩ := ih h henabled hdrop
      refine ⟨p', active, ?_, hfilled.toFilled, hfilled.sorted, fun c => ?_⟩
      · rw [if_neg hevents]
        exact hok
      · rw [hfilled.mem_iff]
        refine ⟨fun ⟨hc, hk, hentry⟩ => ⟨hc, by omega, hentry⟩, ?_⟩
        rintro ⟨hc, hk, pfd', hentry, hevents'⟩
        refine ⟨hc, ?_, pfd', hentry, hevents'⟩
        -- The `k`-th entry itself has no events.
        have hne : (p.channel c).index ≠ k := by
          intro heq
          unfold Poller.entry at hentry
          rw [heq, Int.toNat_natCast, hget] at hentry
          cases hentry
          exact hevents hevents'
        omega

/-- What a poll leaves behind: new `revents`, and the list of active channels, each of
which has an enabled entry. -/
structure Polled (p p' : Poller ι) (activeChannels : List ι) : Prop where
  wf : p'.Wf
  calls : p'.calls = p.calls
  channel : ∀ c, p'.channel c = { p.channel c with revents := (p'.channel c).revents }
  registered : ∀ c, p'.Registered c ↔ p.Registered c
  entry : ∀ c pfd', p'.entry c = some pfd' → ∃ pfd, p.entry c = some pfd ∧
    pfd' = { pfd with revents := pfd'.revents }
  active : ∀ c ∈ activeChannels, p.Registered c ∧ ∃ pfd, p.entry c = some pfd ∧ 0 ≤ pfd.fd
  nodup : activeChannels.Nodup

omit [DecidableEq ι] in
/-- An entry after `poll(2)` is one from before with the events reported for it. -/
theorem getElem?_report {p : Poller ι} {revents : List (BitVec 16)} {i : ℕ} {pfd' : PollFd}
    (hget : (p.report revents).pollfds[i]? = some pfd') :
    ∃ pfd, p.pollfds[i]? = some pfd ∧ revents[i]? = some pfd'.revents ∧
      pfd' = { pfd with revents := pfd'.revents } := by
  unfold report at hget
  rw [List.getElem?_zipWith_eq_some] at hget
  obtain ⟨pfd, r, hpfd, hr, rfl⟩ := hget
  exact ⟨pfd, hpfd, hr, rfl⟩

omit [DecidableEq ι] in
/-- An entry from before `poll(2)` is still there, with the events reported for it. -/
theorem exists_report {p : Poller ι} {revents : List (BitVec 16)}
    (hlength : p.pollfds.length = revents.length) {i : ℕ} {pfd : PollFd}
    (hget : p.pollfds[i]? = some pfd) :
    ∃ pfd', (p.report revents).pollfds[i]? = some pfd' ∧ revents[i]? = some pfd'.revents ∧
      pfd' = { pfd with revents := pfd'.revents } := by
  have hi := (List.getElem?_eq_some_iff.mp hget).1
  have hr : revents[i]? = some revents[i] := List.getElem?_eq_getElem (by omega)
  refine ⟨{ pfd with revents := revents[i] }, ?_, hr, rfl⟩
  unfold report
  rw [List.getElem?_zipWith_eq_some]
  exact ⟨pfd, _, hget, hr, rfl⟩

omit [DecidableEq ι] in
/-- `poll(2)` keeps the tables in agreement. -/
theorem Agree.report {p : Poller ι} (h : p.Agree) {revents : List (BitVec 16)}
    (hlength : p.pollfds.length = revents.length) : (p.report revents).Agree := by
  refine ⟨?_, h.nonneg, fun {fd c} hlookup => ?_, fun {i pfd} hget => ?_⟩
  · unfold Poller.report
    rw [List.length_zipWith, ← hlength, Nat.min_self, h.size_eq]
  · obtain ⟨hfd, hindex, pfd, hentry, hdecode⟩ := h.of_lookup hlookup
    obtain ⟨pfd', hentry', _, heq⟩ := exists_report hlength hentry
    exact ⟨hfd, hindex, pfd', hentry', by rw [heq, hdecode]⟩
  · obtain ⟨pfd', hget', _, heq⟩ := getElem?_report hget
    obtain ⟨c, hlookup, hindex⟩ := h.of_entry hget'
    exact ⟨c, by rw [heq]; exact hlookup, hindex⟩

/-- A poll never fails an assertion. -/
theorem Wf.poll {p : Poller ι} (h : p.Wf) {revents : List (BitVec 16)}
    (hreport : p.MayReport revents) :
    ∃ p' activeChannels, (p.report revents).fillActiveChannels = .ok (p', activeChannels) ∧
      Polled p p' activeChannels := by
  have hagree := h.agree.report hreport.length_eq
  have henabled (pfd : PollFd) (hmem : pfd ∈ (p.report revents).pollfds)
      (hevents : 0 < pfd.revents.toInt) : 0 ≤ pfd.fd := by
    obtain ⟨i, hi⟩ := List.getElem?_of_mem hmem
    obtain ⟨pfd', hget, hr, heq⟩ := getElem?_report hi
    obtain ⟨hi, rfl⟩ := List.getElem?_eq_some_iff.mp hget
    obtain ⟨hi', hreq⟩ := List.getElem?_eq_some_iff.mp hr
    have hmay := hreport.get hi hi'
    by_contra hneg
    have hzero := hmay.1 (by rw [heq] at hneg; exact Int.not_le.mp hneg)
    rw [List.get_eq_getElem, hreq] at hzero
    rw [hzero] at hevents
    exact absurd hevents (by decide)
  obtain ⟨p', active, hok, hfilled⟩ := hagree.fillFrom henabled (k := 0) rfl
  have hfd (c : ι) : (p'.channel c).fd = (p.channel c).fd := by rw [hfilled.tables.channel]; rfl
  refine ⟨p', active, hok, h.of_agree (hagree.of_sameTables hfilled.tables) hfd,
    hfilled.tables.calls, hfilled.tables.channel, hfilled.tables.registered,
    fun c pfd' hentry => ?_, fun c hc => ?_, hfilled.nodup⟩
  · rw [hfilled.tables.entry] at hentry
    obtain ⟨pfd, hget, _, heq⟩ := getElem?_report hentry
    exact ⟨pfd, hget, heq⟩
  · obtain ⟨hreg, pfd', hentry, hfd, _⟩ := hfilled.active c hc
    obtain ⟨pfd, hget, _, heq⟩ := getElem?_report hentry
    refine ⟨hreg, pfd, hget, ?_⟩
    have hnonneg : 0 ≤ (p.channel c).fd := h.fd_nonneg c
    rw [heq] at hfd
    rw [hfd]
    exact hnonneg

end Poller

end Dalin.Net
