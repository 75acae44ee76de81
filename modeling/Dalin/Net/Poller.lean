import Dalin.Base.Failure
import Dalin.Library.Slice
import Dalin.Net.Channel
import Mathlib.Data.List.AList
import Mathlib.Logic.Function.Basic

/-!
# The Poller tables

The Poller keeps one `pollfd` for each registered channel in the vector
`pollfds_`, finds channels by file descriptor in the map `channels_`, and
stores in each channel the index of its `pollfd`. A disabled entry carries the
negated descriptor `-fd - 1`, which `poll(2)` ignores. This file embeds
`updateChannel` and `removeChannel` and inverts their completed calls.
-/

set_option autoImplicit false

namespace Dalin.Net

open Slice

/-- `struct pollfd`. -/
structure PollFd where
  fd : ℤ
  events : BitVec 16
  revents : BitVec 16
  deriving DecidableEq, Inhabited

/-- A completed call that changed the tables. -/
inductive PollerCall (ι : Type)
  | update (channel : ι)
  | remove (channel : ι)
  deriving DecidableEq

/-- `Poller`, with the `Channel` objects that its pointers of type `ι` lead to. -/
structure Poller (ι : Type) where
  /-- `pollfds_`. -/
  pollfds : List PollFd
  /-- `channels_`, which maps a descriptor to a channel. -/
  channels : AList fun _ : ℤ => ι
  /-- The channel objects, registered or not. -/
  channel : ι → Channel
  /-- The completed calls of `updateChannel` and `removeChannel`, oldest first. -/
  calls : List (PollerCall ι)

/-- The descriptor that an entry stands for, whether it is enabled or negated. -/
def decodeFd (fd : ℤ) : ℤ := if fd < 0 then -fd - 1 else fd

namespace Poller

variable {ι : Type} [DecidableEq ι]

/-- Change the fields of one channel object. -/
def modify (p : Poller ι) (c : ι) (f : Channel → Channel) : Poller ι :=
  { p with channel := Function.update p.channel c (f (p.channel c)) }

/-- The entry at the channel's index, if that is a place of `pollfds_`. -/
def entry (p : Poller ι) (c : ι) : Option PollFd := p.pollfds[(p.channel c).index.toNat]?

/-- The map `channels_` finds this channel under its descriptor. -/
def Registered (p : Poller ι) (c : ι) : Prop := p.channels.lookup (p.channel c).fd = some c

instance (p : Poller ι) (c : ι) : Decidable (p.Registered c) :=
  inferInstanceAs (Decidable (_ = _))

/-- First branch of `Poller::updateChannel`, past its assertion: a new channel
gets an entry at the end. -/
def addEntry (p : Poller ι) (c : ι) : Poller ι :=
  let ch := p.channel c
  let pfd : PollFd := ⟨ch.fd, ch.events.setWidth 16, 0⟩
  let pollfds := p.pollfds ++ [pfd]
  let idx : ℤ := (pollfds.length : ℤ) - 1
  { p.modify c fun ch => { ch with index := idx } with
    pollfds := pollfds
    channels := p.channels.insert pfd.fd c
    calls := p.calls ++ [.update c] }

/-- Second branch of `Poller::updateChannel`, past its assertions: the entry of
a known channel is refreshed, and negated if the channel wants no events. -/
def setEntry (p : Poller ι) (c : ι) (pfd : PollFd) : Poller ι :=
  let ch := p.channel c
  let fd := if ch.isNoneEvent then -ch.fd - 1 else pfd.fd
  { p with
    pollfds := p.pollfds.set ch.index.toNat ⟨fd, ch.events.setWidth 16, 0⟩
    calls := p.calls ++ [.update c] }

/-- `Poller::updateChannel`. -/
def updateChannel (p : Poller ι) (c : ι) : Except Failure (Poller ι) :=
  let ch := p.channel c
  if ch.index < 0 then do
    require (p.channels.lookup ch.fd = none) "channels_.find(channel->fd()) == channels_.end()"
    return p.addEntry c
  else do
    require (p.channels.lookup ch.fd ≠ none) "channels_.find(channel->fd()) != channels_.end()"
    require (p.channels.lookup ch.fd = some c) "channels_[channel->fd()] == channel"
    require (0 ≤ ch.index ∧ ch.index < p.pollfds.length)
      "0 <= idx && idx <static_cast<int>(pollfds_.size())"
    let pfd := p.pollfds.getD ch.index.toNat default
    require (pfd.fd = ch.fd ∨ pfd.fd = -ch.fd - 1)
      "pfd.fd == channel->fd() || pfd.fd == -channel->fd() -1"
    return p.setEntry c pfd

/-- `channels_.erase(channel->fd())`. -/
def eraseChannel (p : Poller ι) (c : ι) : Poller ι :=
  { p with channels := p.channels.erase (p.channel c).fd, calls := p.calls ++ [.remove c] }

/-- The removed entry is the last one. -/
def popEntry (p : Poller ι) (c : ι) : Poller ι :=
  { p.eraseChannel c with pollfds := p.pollfds.dropLast }

/-- The last entry, that of `last`, takes the place of the removed one. -/
def swapEntry (p : Poller ι) (c last : ι) : Poller ι :=
  let idx := (p.channel c).index
  { (p.eraseChannel c).modify last fun ch => { ch with index := idx } with
    pollfds := swapPop p.pollfds idx.toNat }

/-- The end of `Poller::removeChannel`, past its assertions. -/
def removeEntry (p : Poller ι) (c : ι) : Except Failure (Poller ι) :=
  if (p.channel c).index.toNat = p.pollfds.length - 1 then
    .ok (p.popEntry c)
  else
    let channelAtEnd := decodeFd (p.pollfds.getLastD default).fd
    match (p.eraseChannel c).channels.lookup channelAtEnd with
    | none => .error (.nullPointer "channels_[channelAtEnd]")
    | some last => .ok (p.swapEntry c last)

/-- `Poller::removeChannel`. -/
def removeChannel (p : Poller ι) (c : ι) : Except Failure (Poller ι) := do
  let ch := p.channel c
  require (p.channels.lookup ch.fd ≠ none) "channels_.find(channel->fd()) != channels_.end()"
  require (p.channels.lookup ch.fd = some c) "channels_[channel->fd()] == channel"
  require (ch.isNoneEvent = true) "channel->isNoneEvent()"
  require (0 ≤ ch.index ∧ ch.index < p.pollfds.length)
    "0 <= idx && idx < static_cast<int>(pollfds_.size())"
  let pfd := p.pollfds.getD ch.index.toNat default
  require (pfd.fd = -ch.fd - 1 ∧ pfd.events.signExtend 32 = ch.events)
    "(pfd.fd == -channel->fd() - 1) && pfd.events == channel->events()"
  require (ch.fd ∈ p.channels) "n == 1"
  p.removeEntry c

/-- `Channel::enableReading` and its siblings: change `events_`, then `update()`. -/
def setInterest (p : Poller ι) (c : ι) (i : Interest) : Except Failure (Poller ι) :=
  (p.modify c fun ch => { ch with events := i.apply ch.events }).updateChannel c

/-- The channel is changed. -/
@[simp] theorem modify_channel_self (p : Poller ι) (c : ι) (f : Channel → Channel) :
    (p.modify c f).channel c = f (p.channel c) := Function.update_self ..

/-- The other channels are not. -/
theorem modify_channel_of_ne (p : Poller ι) {c c' : ι} (h : c' ≠ c) (f : Channel → Channel) :
    (p.modify c f).channel c' = p.channel c' := Function.update_of_ne h ..

/-- A non-negative descriptor decodes to itself. -/
theorem decodeFd_of_nonneg {fd : ℤ} (h : 0 ≤ fd) : decodeFd fd = fd := if_neg (by omega)

/-- A negated descriptor decodes to the descriptor. -/
theorem decodeFd_neg {fd : ℤ} (h : 0 ≤ fd) : decodeFd (-fd - 1) = fd := by
  rw [decodeFd, if_pos (by omega)]
  omega

omit [DecidableEq ι] in
/-- A valid index leads to an entry. -/
theorem entry_of_range {p : Poller ι} {c : ι}
    (h : 0 ≤ (p.channel c).index ∧ (p.channel c).index < p.pollfds.length) :
    p.entry c = some (p.pollfds.getD (p.channel c).index.toNat default) := by
  have hlt : (p.channel c).index.toNat < p.pollfds.length := by omega
  unfold entry
  rw [List.getD_eq_getElem?_getD, List.getElem?_eq_getElem hlt]
  rfl

/-- Inversion of `updateChannel`: a completed call either adds the entry of a new
channel or refreshes the entry of a registered one. -/
theorem updateChannel_eq_ok {p p' : Poller ι} {c : ι} (h : p.updateChannel c = .ok p') :
    ((p.channel c).index < 0 ∧ p.channels.lookup (p.channel c).fd = none ∧ p' = p.addEntry c) ∨
    (0 ≤ (p.channel c).index ∧ p.Registered c ∧ ∃ pfd, p.entry c = some pfd ∧
      (pfd.fd = (p.channel c).fd ∨ pfd.fd = -(p.channel c).fd - 1) ∧ p' = p.setEntry c pfd) := by
  unfold updateChannel at h
  by_cases hindex : (p.channel c).index < 0
  · rw [if_pos hindex, require_bind_eq_ok] at h
    exact Or.inl ⟨hindex, h.1, (Except.ok.inj h.2).symm⟩
  · rw [if_neg hindex] at h
    simp only [require_bind_eq_ok] at h
    obtain ⟨_, hreg, hrange, hfd, hok⟩ := h
    exact Or.inr ⟨by omega, hreg, _, entry_of_range hrange, hfd, (Except.ok.inj hok).symm⟩

/-- Inversion of `removeChannel`: a completed call met a registered channel that
wants no events and whose entry is negated. -/
theorem removeChannel_eq_ok {p p' : Poller ι} {c : ι} (h : p.removeChannel c = .ok p') :
    p.Registered c ∧ (p.channel c).isNoneEvent = true ∧
      (∃ pfd, p.entry c = some pfd ∧ pfd.fd = -(p.channel c).fd - 1) ∧
      p.removeEntry c = .ok p' := by
  unfold removeChannel at h
  simp only [require_bind_eq_ok] at h
  obtain ⟨_, hreg, hnone, hrange, hentry, _, hok⟩ := h
  exact ⟨hreg, hnone, ⟨_, entry_of_range hrange, hentry.1⟩, hok⟩

end Poller

end Dalin.Net
