import Mathlib.Data.Int.Notation
import Mathlib.Data.Nat.Notation

/-!
# Channels

A `Channel` records which events its owner wants from a file descriptor and
which events the last poll reported. The masks are those of `poll(2)`.
-/

set_option autoImplicit false

namespace Dalin.Net

/-- The event bits of `poll.h`. -/
def POLLIN : BitVec 32 := 0x001

/-- `POLLPRI`: urgent data. -/
def POLLPRI : BitVec 32 := 0x002

/-- `POLLOUT`: writing does not block. -/
def POLLOUT : BitVec 32 := 0x004

/-- `POLLERR`: an error. -/
def POLLERR : BitVec 32 := 0x008

/-- `POLLHUP`: the peer has hung up. -/
def POLLHUP : BitVec 32 := 0x010

/-- `POLLNVAL`: the descriptor is not open. -/
def POLLNVAL : BitVec 32 := 0x020

/-- `POLLRDHUP`: the peer has shut down its writing. -/
def POLLRDHUP : BitVec 32 := 0x2000

/-- `Channel`, without the callbacks, which belong to its owner. -/
structure Channel where
  /-- `fd_`. -/
  fd : ℤ
  /-- `events_`, the events asked for. -/
  events : BitVec 32
  /-- `revents_`, the events reported last. -/
  revents : BitVec 32
  /-- `index_`, the place of the channel in the Poller, or `-1`. -/
  index : ℤ
  deriving DecidableEq

namespace Channel

/-- `Channel::kNoneEvent`. -/
def kNoneEvent : BitVec 32 := 0

/-- `Channel::kReadEvent`. -/
def kReadEvent : BitVec 32 := POLLIN ||| POLLPRI

/-- `Channel::kWriteEvent`. -/
def kWriteEvent : BitVec 32 := POLLOUT

/-- `Channel::Channel`. -/
def new (fd : ℤ) : Channel := ⟨fd, 0, 0, -1⟩

/-- `Channel::isNoneEvent`. -/
def isNoneEvent (ch : Channel) : Bool := ch.events == kNoneEvent

/-- `Channel::isWriting`. -/
def isWriting (ch : Channel) : Bool := ch.events &&& kWriteEvent != 0

/-- The masks that the interest functions can build from an empty one. -/
def EventMask (events : BitVec 32) : Prop :=
  events = kNoneEvent ∨ events = kReadEvent ∨ events = kWriteEvent ∨
    events = kReadEvent ||| kWriteEvent

end Channel

/-- The four functions by which the owner of a channel changes its interest. -/
inductive Interest
  | enableReading
  | enableWriting
  | disableWriting
  | disableAll
  deriving DecidableEq

/-- What `enableReading`, `enableWriting`, `disableWriting` and `disableAll`
assign to `events_`. -/
def Interest.apply : Interest → BitVec 32 → BitVec 32
  | enableReading, events => events ||| Channel.kReadEvent
  | enableWriting, events => events ||| Channel.kWriteEvent
  | disableWriting, events => events &&& ~~~Channel.kWriteEvent
  | disableAll, _ => Channel.kNoneEvent

/-- What the interest functions make of `isWriting()`. -/
def Interest.writing : Interest → Bool → Bool
  | enableReading, writing => writing
  | enableWriting, _ => true
  | disableWriting, _ => false
  | disableAll, _ => false

namespace Channel

/-- An interest function acts on the write bit alone. -/
theorem isWriting_apply (i : Interest) (events : BitVec 32) :
    (i.apply events &&& kWriteEvent != 0) = i.writing (events &&& kWriteEvent != 0) := by
  have hread : kReadEvent &&& kWriteEvent = 0#32 := by decide
  have hwrite : kWriteEvent &&& kWriteEvent = 4#32 := by decide
  cases i with
  | enableReading =>
    change ((events ||| kReadEvent) &&& kWriteEvent != 0) = _
    rw [BitVec.and_or_distrib_right, hread, BitVec.or_zero]
    rfl
  | enableWriting =>
    change ((events ||| kWriteEvent) &&& kWriteEvent != 0) = true
    rw [BitVec.and_or_distrib_right, hwrite, bne_iff_ne]
    intro hzero
    have hbit := congrArg (BitVec.getLsbD · 2) hzero
    simp at hbit
  | disableWriting =>
    change ((events &&& ~~~kWriteEvent) &&& kWriteEvent != 0) = false
    rw [BitVec.and_assoc, BitVec.not_and_self]
    simp
  | disableAll =>
    change (kNoneEvent &&& kWriteEvent != 0) = false
    decide

/-- A new channel is not writing. -/
theorem isWriting_new (fd : ℤ) : (new fd).isWriting = false := by
  change ((0 : BitVec 32) &&& kWriteEvent != 0) = false
  decide

/-- The interest functions stay within the four masks. -/
theorem EventMask.apply {events : BitVec 32} (h : EventMask events) (i : Interest) :
    EventMask (i.apply events) := by
  rcases h with rfl | rfl | rfl | rfl <;> cases i <;> unfold EventMask <;> decide

/-- Storing such a mask in the `short` of a `pollfd` loses nothing. -/
theorem EventMask.signExtend_setWidth {events : BitVec 32} (h : EventMask events) :
    (events.setWidth 16).signExtend 32 = events := by
  rcases h with rfl | rfl | rfl | rfl <;> decide

end Channel

end Dalin.Net
