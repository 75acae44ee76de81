import Dalin.Base.Failure
import Dalin.Library.Slice
import Mathlib.Data.Int.Notation

/-!
# The byte buffer

`Buffer` keeps the bytes of a stream between two indices of a growable array.
This file embeds the operations the connection uses and proves that, as long
as the indices are in order, they act on the readable bytes as a byte queue:
`append` adds at the end, `retrieve` drops from the front.
-/

set_option autoImplicit false

namespace Dalin.Net

open Slice

/-- A `char` of the source. -/
abbrev Byte := UInt8

/-- `Buffer`: the storage `buffer_` and the indices of its readable part. -/
structure Buffer where
  /-- The cells of `buffer_`. -/
  buffer : List Byte
  /-- `readerIndex_`, the index of the first readable byte. -/
  readerIndex : ℕ
  /-- `writerIndex_`, the index behind the last readable byte. -/
  writerIndex : ℕ
  deriving DecidableEq

/-- What `readv` reports: `-1` with an `errno`, or the bytes that have arrived,
where no bytes mean the end of the stream. -/
inductive ReadResult
  | failed (errno : ℕ)
  | data (bytes : List Byte)

namespace Buffer

/-- `Buffer::kCheapPrepend`. -/
def kCheapPrepend : ℕ := 8

/-- `Buffer::kInitialSize`. -/
def kInitialSize : ℕ := 1024

/-- The size of `extraBuf` in `Buffer::readFd`. -/
def extraSize : ℕ := 65536

/-- `Buffer::Buffer()`. -/
def new : Buffer :=
  ⟨List.replicate (kCheapPrepend + kInitialSize) 0, kCheapPrepend, kCheapPrepend⟩

/-- `Buffer::readableBytes`. -/
def readableBytes (b : Buffer) : ℕ := b.writerIndex - b.readerIndex

/-- `Buffer::writableBytes`. -/
def writableBytes (b : Buffer) : ℕ := b.buffer.length - b.writerIndex

/-- `Buffer::prependableBytes`. -/
def prependableBytes (b : Buffer) : ℕ := b.readerIndex

/-- The bytes from `peek()` to `beginWrite()`. -/
def readable (b : Buffer) : List Byte := slice b.buffer b.readerIndex b.writerIndex

/-- `Buffer::retrieve`. -/
def retrieve (b : Buffer) (len : ℕ) : Except Failure Buffer := do
  require (len ≤ b.readableBytes) "len <= readableBytes()"
  return { b with readerIndex := b.readerIndex + len }

/-- `Buffer::peek`, as an offset from `begin()`. -/
def peek (b : Buffer) : ℕ := b.readerIndex

/-- `Buffer::beginWrite`, as an offset from `begin()`. -/
def beginWrite (b : Buffer) : ℕ := b.writerIndex

/-- `Buffer::retrieveUntil`; the argument is an offset from `begin()`. -/
def retrieveUntil (b : Buffer) (stop : ℕ) : Except Failure Buffer := do
  require (b.peek ≤ stop) "peek() <= end"
  require (stop ≤ b.beginWrite) "end <= beginWrite()"
  b.retrieve (stop - b.peek)

/-- `Buffer::retrieveAll`. -/
def retrieveAll (b : Buffer) : Buffer :=
  { b with readerIndex := kCheapPrepend, writerIndex := kCheapPrepend }

/-- `Buffer::retrieveAsString`: the string and the emptied buffer. -/
def retrieveAsString (b : Buffer) : List Byte × Buffer :=
  (slice b.buffer b.peek (b.peek + b.readableBytes), b.retrieveAll)

/-- `Buffer::prepend`. -/
def prepend (b : Buffer) (data : List Byte) : Except Failure Buffer := do
  require (data.length ≤ b.prependableBytes) "len <= prependableBytes()"
  let readerIndex := b.readerIndex - data.length
  return { b with buffer := overwrite b.buffer readerIndex data, readerIndex := readerIndex }

/-- `Buffer::swap`: the two buffers after the call. -/
def swap (b rhs : Buffer) : Buffer × Buffer :=
  (⟨rhs.buffer, rhs.readerIndex, rhs.writerIndex⟩, ⟨b.buffer, b.readerIndex, b.writerIndex⟩)

/-- `Buffer::hasWritten`. -/
def hasWritten (b : Buffer) (len : ℕ) : Buffer := { b with writerIndex := b.writerIndex + len }

/-- `Buffer::makeSpace`: grow the storage, or slide the readable bytes to its
front when the dead space there is large enough. -/
def makeSpace (b : Buffer) (len : ℕ) : Except Failure Buffer :=
  if b.writableBytes + b.prependableBytes < len + kCheapPrepend then
    .ok { b with buffer := resize b.buffer (b.writerIndex + len) 0 }
  else do
    require (kCheapPrepend < b.readerIndex) "kCheapPrepend < readerIndex_"
    let readable := b.readableBytes
    let slid : Buffer :=
      { buffer := copyForward b.buffer b.readerIndex kCheapPrepend readable
        readerIndex := kCheapPrepend
        writerIndex := kCheapPrepend + readable }
    require (readable = slid.readableBytes) "readable == readableBytes()"
    return slid

/-- `Buffer::ensureWritableBytes`. -/
def ensureWritableBytes (b : Buffer) (len : ℕ) : Except Failure Buffer := do
  let b ← if b.writableBytes < len then b.makeSpace len else .ok b
  require (len ≤ b.writableBytes) "writableBytes() >= len"
  return b

/-- `Buffer::append`. -/
def append (b : Buffer) (data : List Byte) : Except Failure Buffer := do
  let b ← b.ensureWritableBytes data.length
  return { b with buffer := overwrite b.buffer b.writerIndex data }.hasWritten data.length

/-- `Buffer::readFd`: the new buffer, the returned count and `*savedErrno`. The
kernel fills the writable part of the storage before `extraBuf`. -/
def readFd (b : Buffer) (savedErrno : ℕ) : ReadResult → Except Failure (Buffer × ℤ × ℕ)
  | .failed errno => .ok (b, -1, errno)
  | .data arrived =>
    let writable := b.writableBytes
    let bytes := arrived.take (writable + extraSize)
    let n := bytes.length
    let filled := { b with buffer := overwrite b.buffer b.writerIndex (bytes.take writable) }
    if n ≤ writable then
      .ok ({ filled with writerIndex := b.writerIndex + n }, n, savedErrno)
    else do
      let b ← { filled with writerIndex := b.buffer.length }.append (bytes.drop writable)
      return (b, n, savedErrno)

/-- The two indices are in order and inside the storage. -/
structure Wf (b : Buffer) : Prop where
  reader_le_writer : b.readerIndex ≤ b.writerIndex
  writer_le_size : b.writerIndex ≤ b.buffer.length

/-- A new buffer is well formed. -/
theorem new_wf : new.Wf := ⟨by decide, by simp [new, kCheapPrepend]⟩

/-- A new buffer holds nothing. -/
@[simp] theorem readable_new : new.readable = [] := slice_self _ _

/-- `readableBytes()` counts the readable bytes. -/
theorem Wf.length_readable {b : Buffer} (h : b.Wf) : b.readable.length = b.readableBytes :=
  length_slice h.writer_le_size

/-- `readableBytes()` is zero exactly if nothing is readable. -/
theorem Wf.readableBytes_eq_zero_iff {b : Buffer} (h : b.Wf) :
    b.readableBytes = 0 ↔ b.readable = [] := by
  rw [← h.length_readable, List.length_eq_zero_iff]

/-- Within its precondition `retrieve` drops bytes from the front. -/
theorem Wf.retrieve {b : Buffer} (h : b.Wf) {len : ℕ} (hlen : len ≤ b.readableBytes) :
    ∃ b', b.retrieve len = .ok b' ∧ b'.Wf ∧ b'.readable = b.readable.drop len := by
  have hle := h.reader_le_writer
  refine ⟨{ b with readerIndex := b.readerIndex + len }, ?_, ⟨?_, h.writer_le_size⟩, ?_⟩
  · simp only [Buffer.retrieve, require_of_true hlen]
    rfl
  · unfold readableBytes at hlen
    show b.readerIndex + len ≤ b.writerIndex
    omega
  · exact (drop_slice _ _ _ _).symm

/-- Within its preconditions `retrieveUntil` drops the bytes before its argument. -/
theorem Wf.retrieveUntil {b : Buffer} (h : b.Wf) {stop : ℕ} (hpeek : b.peek ≤ stop)
    (hstop : stop ≤ b.beginWrite) :
    ∃ b', b.retrieveUntil stop = .ok b' ∧ b'.Wf ∧
      b'.readable = b.readable.drop (stop - b.peek) := by
  have hlen : stop - b.peek ≤ b.readableBytes := Nat.sub_le_sub_right hstop b.readerIndex
  obtain ⟨b', hok, hwf, hreadable⟩ := h.retrieve hlen
  refine ⟨b', ?_, hwf, hreadable⟩
  rw [Buffer.retrieveUntil, require_bind_eq_ok]
  refine ⟨hpeek, ?_⟩
  rw [require_bind_eq_ok]
  exact ⟨hstop, hok⟩

/-- `retrieveAsString` returns all readable bytes. -/
theorem Wf.retrieveAsString {b : Buffer} (h : b.Wf) :
    b.retrieveAsString = (b.readable, b.retrieveAll) := by
  have hle := h.reader_le_writer
  have hend : b.peek + b.readableBytes = b.writerIndex := by
    unfold peek readableBytes
    omega
  rw [Buffer.retrieveAsString, hend]
  rfl

/-- After `retrieveAll` nothing is readable. -/
@[simp] theorem readable_retrieveAll (b : Buffer) : b.retrieveAll.readable = [] := slice_self _ _

/-- Within its precondition `prepend` adds its argument in front of the readable bytes. -/
theorem Wf.prepend {b : Buffer} (h : b.Wf) {data : List Byte}
    (hlen : data.length ≤ b.prependableBytes) :
    ∃ b', b.prepend data = .ok b' ∧ b'.Wf ∧ b'.readable = data ++ b.readable ∧
      b'.buffer.length = b.buffer.length := by
  obtain ⟨hrw, hws⟩ := h
  have hfront : b.readerIndex - data.length + data.length = b.readerIndex :=
    Nat.sub_add_cancel hlen
  have hsize := length_overwrite (l := b.buffer) (i := b.readerIndex - data.length) (d := data)
    (by omega)
  refine ⟨⟨overwrite b.buffer (b.readerIndex - data.length) data, b.readerIndex - data.length,
    b.writerIndex⟩, ?_, ⟨?_, ?_⟩, ?_, hsize⟩
  · exact require_bind_eq_ok.mpr ⟨hlen, rfl⟩
  · change b.readerIndex - data.length ≤ b.writerIndex
    omega
  · exact Nat.le_trans hws (Nat.le_of_eq hsize.symm)
  · have hprepend := slice_overwrite_prepend (l := b.buffer) (k := b.readerIndex - data.length)
      (d := data) (j := b.writerIndex) (by omega) hws
    rw [hfront] at hprepend
    exact hprepend

/-- `makeSpace` is called when the writable part is too short. It then never
fails an assertion, keeps the readable bytes and provides the room asked for. -/
theorem Wf.makeSpace {b : Buffer} (h : b.Wf) {len : ℕ} (hlen : b.writableBytes < len) :
    ∃ b', b.makeSpace len = .ok b' ∧ b'.Wf ∧ b'.readable = b.readable ∧
      len ≤ b'.writableBytes := by
  obtain ⟨hrw, hws⟩ := h
  unfold Buffer.makeSpace
  by_cases hgrow : b.writableBytes + b.prependableBytes < len + kCheapPrepend
  · rw [if_pos hgrow]
    refine ⟨_, rfl, ⟨hrw, ?_⟩, slice_resize 0 hws (Nat.le_add_right _ _), ?_⟩
    · rw [length_resize]
      exact Nat.le_add_right _ _
    · simp only [writableBytes, length_resize]
      omega
  · rw [if_neg hgrow]
    unfold writableBytes prependableBytes at *
    have hfront : kCheapPrepend < b.readerIndex := by omega
    have hfits : b.readerIndex + b.readableBytes ≤ b.buffer.length := by
      unfold readableBytes
      omega
    refine ⟨⟨copyForward b.buffer b.readerIndex kCheapPrepend b.readableBytes, kCheapPrepend,
      kCheapPrepend + b.readableBytes⟩, ?_, ⟨Nat.le_add_right _ _, ?_⟩, ?_, ?_⟩
    · rw [require_bind_eq_ok]
      refine ⟨hfront, ?_⟩
      rw [require_bind_eq_ok]
      exact ⟨(Nat.add_sub_cancel_left _ _).symm, rfl⟩
    · show kCheapPrepend + b.readableBytes ≤ (copyForward _ _ _ _).length
      rw [length_copyForward]
      omega
    · have hcopy := slice_copyForward (Nat.le_of_lt hfront) hfits
      have hend : b.readerIndex + b.readableBytes = b.writerIndex := by
        unfold readableBytes
        omega
      rw [hend] at hcopy
      exact hcopy
    · show len ≤ (copyForward _ _ _ _).length - (kCheapPrepend + b.readableBytes)
      rw [length_copyForward]
      unfold readableBytes
      omega

/-- `ensureWritableBytes` never fails, keeps the readable bytes and provides the
room asked for. -/
theorem Wf.ensureWritableBytes {b : Buffer} (h : b.Wf) (len : ℕ) :
    ∃ b', b.ensureWritableBytes len = .ok b' ∧ b'.Wf ∧ b'.readable = b.readable ∧
      len ≤ b'.writableBytes := by
  unfold Buffer.ensureWritableBytes
  by_cases hlen : b.writableBytes < len
  · obtain ⟨b', hok, hwf, hreadable, hroom⟩ := h.makeSpace hlen
    refine ⟨b', ?_, hwf, hreadable, hroom⟩
    rw [if_pos hlen, hok]
    exact require_bind_eq_ok.mpr ⟨hroom, rfl⟩
  · have hroom : len ≤ b.writableBytes := by omega
    refine ⟨b, ?_, h, rfl, hroom⟩
    rw [if_neg hlen]
    exact require_bind_eq_ok.mpr ⟨hroom, rfl⟩

/-- `append` never fails and adds its argument at the end of the readable bytes. -/
theorem Wf.append {b : Buffer} (h : b.Wf) (data : List Byte) :
    ∃ b', b.append data = .ok b' ∧ b'.Wf ∧ b'.readable = b.readable ++ data := by
  obtain ⟨b₁, hok, ⟨hrw, hws⟩, hreadable, hroom⟩ := h.ensureWritableBytes data.length
  unfold writableBytes at hroom
  have hfits : b₁.writerIndex + data.length ≤ b₁.buffer.length := by omega
  refine ⟨_, by rw [Buffer.append, hok]; rfl, ⟨?_, ?_⟩, ?_⟩
  · show b₁.readerIndex ≤ b₁.writerIndex + data.length
    omega
  · show b₁.writerIndex + data.length ≤ (overwrite b₁.buffer b₁.writerIndex data).length
    rwa [length_overwrite hfits]
  · rw [← hreadable]
    exact slice_overwrite_append hrw hfits

/-- `readFd` never fails. It returns `-1` and leaves the buffer alone when the
read failed; otherwise it returns the number of bytes read, which follow the
readable bytes in order, as if they had been appended. -/
theorem Wf.readFd {b : Buffer} (h : b.Wf) (savedErrno : ℕ) (r : ReadResult) :
    ∃ (b' : Buffer) (n : ℤ) (e : ℕ), b.readFd savedErrno r = .ok (b', n, e) ∧ b'.Wf ∧
      match r with
      | .failed errno => b' = b ∧ n = -1 ∧ e = errno
      | .data arrived =>
        let bytes := arrived.take (b.writableBytes + extraSize)
        b'.readable = b.readable ++ bytes ∧ n = bytes.length ∧ e = savedErrno := by
  cases r with
  | failed errno => exact ⟨b, -1, errno, rfl, h, rfl, rfl, rfl⟩
  | data arrived =>
    obtain ⟨hrw, hws⟩ := h
    simp only [Buffer.readFd]
    generalize arrived.take (b.writableBytes + extraSize) = bytes
    have hwritable : b.writerIndex + b.writableBytes = b.buffer.length := by
      unfold writableBytes
      omega
    by_cases hn : bytes.length ≤ b.writableBytes
    · have hfits : b.writerIndex + bytes.length ≤ b.buffer.length := by omega
      rw [if_pos hn, List.take_of_length_le hn]
      refine ⟨_, _, _, rfl, ⟨?_, ?_⟩, slice_overwrite_append hrw hfits, rfl, rfl⟩
      · show b.readerIndex ≤ b.writerIndex + bytes.length
        omega
      · show b.writerIndex + bytes.length ≤ (overwrite b.buffer b.writerIndex bytes).length
        rwa [length_overwrite hfits]
    · rw [if_neg hn]
      have htake : (bytes.take b.writableBytes).length = b.writableBytes := by
        rw [List.length_take]
        omega
      have hfits : b.writerIndex + (bytes.take b.writableBytes).length ≤ b.buffer.length := by
        omega
      -- The storage is full before the rest is appended from `extraBuf`.
      have hfull : Wf ⟨overwrite b.buffer b.writerIndex (bytes.take b.writableBytes),
          b.readerIndex, b.buffer.length⟩ :=
        ⟨by show b.readerIndex ≤ b.buffer.length; omega, Nat.le_of_eq (length_overwrite hfits).symm⟩
      obtain ⟨b', hok, hwf, hreadable⟩ := hfull.append (bytes.drop b.writableBytes)
      refine ⟨b', _, _, by rw [hok]; rfl, hwf, ?_, rfl, rfl⟩
      have hfirst := slice_overwrite_append (d := bytes.take b.writableBytes) hrw hfits
      rw [htake, hwritable] at hfirst
      rw [hreadable, Buffer.readable, hfirst, Buffer.readable, List.append_assoc,
        List.take_append_drop]

/-- **A read is an append.** A failed `readv` leaves the buffer alone and sets `*savedErrno`.
Whatever else it delivers, at most the two areas full, follows the readable bytes as if one
`append` had put it there. -/
theorem readFd_eq_append {b : Buffer} (h : b.Wf) (savedErrno : ℕ) :
    (∀ errno, b.readFd savedErrno (.failed errno) = .ok (b, -1, errno)) ∧
    ∀ bytes : List Byte, bytes.length ≤ b.writableBytes + extraSize →
      ∃ b₁ b₂, b.readFd savedErrno (.data bytes) = .ok (b₁, bytes.length, savedErrno) ∧
        b.append bytes = .ok b₂ ∧ b₁.Wf ∧ b₁.readable = b.readable ++ bytes ∧
        b₁.readable = b₂.readable := by
  refine ⟨fun errno => rfl, fun bytes hbytes => ?_⟩
  obtain ⟨b₁, n, e, hread, hwf, hreadable, hn, he⟩ := h.readFd savedErrno (.data bytes)
  obtain ⟨b₂, happend, _, hreadable₂⟩ := h.append bytes
  rw [List.take_of_length_le hbytes] at hreadable hn
  subst hn he
  exact ⟨b₁, b₂, hread, happend, hwf, hreadable, hreadable.trans hreadable₂.symm⟩

/-- A read of 1026 bytes into a new buffer, two more than it has room for. -/
theorem readFd_eq_append_overflow : ∃ b₁, new.readFd 0 (.data (List.replicate 1026 7)) =
    .ok (b₁, 1026, 0) ∧ b₁.readable = List.replicate 1026 7 := by
  obtain ⟨b₁, _, hread, _, _, hreadable, _⟩ :=
    (readFd_eq_append new_wf 0).2 (List.replicate 1026 7)
      (by rw [List.length_replicate]; exact Nat.le_add_left_of_le (by decide))
  rw [List.length_replicate] at hread
  exact ⟨b₁, hread, by rw [hreadable, readable_new, List.nil_append]⟩

end Buffer

end Dalin.Net
