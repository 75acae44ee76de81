import Dalin.Library.Transition
import Dalin.Library.WordVector
import Dalin.Net.Buffer

/-!
# The byte buffer on machine words

The indices of `Buffer` are of type `size_t`: their sums and differences are
taken modulo `2 ^ 64`, and `buffer_` is a `std::vector`, which throws
`std::length_error` when it is asked for more than its `max_size`. This file
embeds the operations once more on that level, with the accesses outside the
storage as errors, and proves that, where no sum wraps around, each of them
either throws or does what the operation on natural numbers does.
-/

set_option autoImplicit false

namespace Dalin.Net

open Slice Transition

/-- The `max_size` of a `std::vector<char>`: it has room for a new buffer and is below `2 ^ 63`. -/
structure MaxSize where
  /-- The number of bytes. -/
  value : ℕ
  initial_le : Buffer.kCheapPrepend + Buffer.kInitialSize ≤ value
  lt : value < 2 ^ 63

variable {M : MaxSize}

/-- A `std::vector<char>`. -/
abbrev CharVector (M : MaxSize) := WordVector Byte M.value

/-- The size of a vector is a word. -/
@[simp] theorem CharVector.toNat_size (v : CharVector M) : v.size.toNat = v.cells.length :=
  WordVector.toNat_size v (Nat.lt_trans M.lt (by decide))

/-- The `max_size` of the standard library of the target, the largest `ptrdiff_t`. -/
def MaxSize.ptrdiff : MaxSize := ⟨2 ^ 63 - 1, by decide, by decide⟩

/-- A range of bytes in memory; the difference of its ends is a `ptrdiff_t`. -/
structure Range where
  /-- The bytes. -/
  bytes : List Byte
  length_lt : bytes.length < 2 ^ 63
  deriving DecidableEq

/-- A range of `n` equal bytes. -/
def Range.uniform (n : ℕ) (x : Byte) (h : n < 2 ^ 63) : Range where
  bytes := List.replicate n x
  length_lt := by rwa [List.length_replicate]

/-- `len`, the size of a range. -/
def Range.len (data : Range) : UInt64 := .ofNat data.bytes.length

/-- The size of a range is a word. -/
@[simp] theorem Range.toNat_len (data : Range) : data.len.toNat = data.bytes.length := by
  have hlt := data.length_lt
  exact UInt64.toNat_ofNat_of_lt' (by unfold UInt64.size; omega)

/-- `Buffer`, with its indices as words. -/
structure WordBuffer (M : MaxSize) where
  /-- `buffer_`. -/
  buffer : CharVector M
  /-- `readerIndex_`. -/
  readerIndex : UInt64
  /-- `writerIndex_`. -/
  writerIndex : UInt64
  deriving DecidableEq

/-- Why an operation does not return. -/
inductive Exit (M : MaxSize)
  /-- A failed `assert` on the given expression of the source. -/
  | assertion (expression : String)
  /-- An access outside the storage, by the given call of the source. -/
  | outOfRange (expression : String)
  /-- `std::length_error` is thrown and leaves this buffer behind. -/
  | lengthError (b : WordBuffer M)
  deriving DecidableEq

namespace WordBuffer

/-- `assert(p)`, where `expression` is the source text of `p`. -/
def check (p : Prop) [Decidable p] (expression : String) : Except (Exit M) Unit :=
  if p then .ok () else .error (.assertion expression)

/-- An access that is an error where it finds no cells. -/
def access {α : Type} (x : Option α) (expression : String) : Except (Exit M) α :=
  match x with
  | some a => .ok a
  | none => .error (.outOfRange expression)

/-- An allocation by `b`, which throws where it has no result. -/
def allocate (b : WordBuffer M) : Option (CharVector M) → Except (Exit M) (CharVector M)
  | some v => .ok v
  | none => .error (.lengthError b)

/-- `Buffer::kCheapPrepend`. -/
def kCheapPrepend : UInt64 := 8

/-- The header has the size it has on natural numbers. -/
@[simp] theorem toNat_kCheapPrepend : kCheapPrepend.toNat = Buffer.kCheapPrepend := rfl

/-- `Buffer::Buffer()`. -/
def new : WordBuffer M where
  buffer :=
    ⟨List.replicate (Buffer.kCheapPrepend + Buffer.kInitialSize) 0, by
      rw [List.length_replicate]; exact M.initial_le⟩
  readerIndex := kCheapPrepend
  writerIndex := kCheapPrepend

/-- `Buffer::readableBytes`. -/
def readableBytes (b : WordBuffer M) : UInt64 := b.writerIndex - b.readerIndex

/-- `Buffer::writableBytes`. -/
def writableBytes (b : WordBuffer M) : UInt64 := b.buffer.size - b.writerIndex

/-- `Buffer::prependableBytes`. -/
def prependableBytes (b : WordBuffer M) : UInt64 := b.readerIndex

/-- `Buffer::peek`, as an offset from `begin()`. -/
def peek (b : WordBuffer M) : UInt64 := b.readerIndex

/-- `Buffer::beginWrite`, as an offset from `begin()`. -/
def beginWrite (b : WordBuffer M) : UInt64 := b.writerIndex

/-- `Buffer::retrieve`. -/
def retrieve (b : WordBuffer M) (len : UInt64) : Except (Exit M) (WordBuffer M) := do
  check (len ≤ b.readableBytes) "len <= readableBytes()"
  return { b with readerIndex := b.readerIndex + len }

/-- `Buffer::retrieveUntil`; the argument is an offset from `begin()`. -/
def retrieveUntil (b : WordBuffer M) (stop : UInt64) : Except (Exit M) (WordBuffer M) := do
  check (b.peek ≤ stop) "peek() <= end"
  check (stop ≤ b.beginWrite) "end <= beginWrite()"
  b.retrieve (stop - b.peek)

/-- `Buffer::retrieveAll`. -/
def retrieveAll (b : WordBuffer M) : WordBuffer M :=
  { b with readerIndex := kCheapPrepend, writerIndex := kCheapPrepend }

/-- `Buffer::retrieveAsString`: the string and the emptied buffer. -/
def retrieveAsString (b : WordBuffer M) : Except (Exit M) (List Byte × WordBuffer M) := do
  let str ← access (b.buffer.read b.peek (b.peek + b.readableBytes)) "str(peek(), readableBytes())"
  return (str, b.retrieveAll)

/-- `Buffer::prepend`. -/
def prepend (b : WordBuffer M) (data : Range) : Except (Exit M) (WordBuffer M) := do
  check (data.len ≤ b.prependableBytes) "len <= prependableBytes()"
  let readerIndex := b.readerIndex - data.len
  let buffer ← access (b.buffer.write readerIndex data.bytes) "begin() + readerIndex_"
  return { b with buffer := buffer, readerIndex := readerIndex }

/-- `Buffer::hasWritten`. -/
def hasWritten (b : WordBuffer M) (len : UInt64) : WordBuffer M :=
  { b with writerIndex := b.writerIndex + len }

/-- `Buffer::makeSpace`. -/
def makeSpace (b : WordBuffer M) (len : UInt64) : Except (Exit M) (WordBuffer M) :=
  if b.writableBytes + b.prependableBytes < len + kCheapPrepend then do
    let buffer ← b.allocate (b.buffer.resize (b.writerIndex + len) 0)
    return { b with buffer := buffer }
  else do
    check (kCheapPrepend < b.readerIndex) "kCheapPrepend < readerIndex_"
    let readable := b.readableBytes
    let buffer ← access (b.buffer.slide b.readerIndex b.writerIndex kCheapPrepend)
      "begin() + kCheapPrepend"
    let slid : WordBuffer M :=
      { buffer := buffer
        readerIndex := kCheapPrepend
        writerIndex := kCheapPrepend + readable }
    check (readable = slid.readableBytes) "readable == readableBytes()"
    return slid

/-- `Buffer::ensureWritableBytes`. -/
def ensureWritableBytes (b : WordBuffer M) (len : UInt64) : Except (Exit M) (WordBuffer M) := do
  let b ← if b.writableBytes < len then b.makeSpace len else .ok b
  check (len ≤ b.writableBytes) "writableBytes() >= len"
  return b

/-- `Buffer::append`. -/
def append (b : WordBuffer M) (data : Range) : Except (Exit M) (WordBuffer M) := do
  let b ← b.ensureWritableBytes data.len
  let buffer ← access (b.buffer.write b.writerIndex data.bytes) "beginWrite()"
  return { b with buffer := buffer }.hasWritten data.len

/-- `Buffer::shrink`. -/
def shrink (b : WordBuffer M) (reserve : UInt64) : Except (Exit M) (WordBuffer M) := do
  let buf ← b.allocate (WordVector.sized M.value (kCheapPrepend + b.readableBytes + reserve) 0)
  let readable ← access (b.buffer.read b.peek (b.peek + b.readableBytes))
    "peek()+readableBytes()"
  let buf ← access (buf.write kCheapPrepend readable) "buf.begin()+kCheapPrepend"
  return { b with buffer := buf }

/-- The bytes that do not fit into the storage of a buffer, in `extraBuf`. -/
def extra (writable : UInt64) (bytes : List Byte)
    (h : bytes.length ≤ writable.toNat + Buffer.extraSize) : Range where
  bytes := bytes.drop writable.toNat
  length_lt := by
    rw [List.length_drop]
    unfold Buffer.extraSize at h
    omega

/-- `Buffer::readFd`: the new buffer, the returned count and `*savedErrno`. -/
def readFd (b : WordBuffer M) (savedErrno : ℕ) :
    ReadResult → Except (Exit M) (WordBuffer M × ℤ × ℕ)
  | .failed errno => .ok (b, -1, errno)
  | .data arrived => do
    let writable := b.writableBytes
    let bytes := arrived.take (writable.toNat + Buffer.extraSize)
    let n := bytes.length
    let buffer ← access (b.buffer.write b.writerIndex (bytes.take writable.toNat)) "readv"
    let filled := { b with buffer := buffer }
    if n ≤ writable.toNat then
      return ({ filled with writerIndex := b.writerIndex + .ofNat n }, n, savedErrno)
    else
      let b ← { filled with writerIndex := filled.buffer.size }.append
        (extra writable bytes (List.length_take_le _ _))
      return (b, n, savedErrno)

/-- An assertion that holds changes nothing. -/
@[simp] theorem check_of_true {p : Prop} [Decidable p] {e : String} (h : p) :
    (check p e : Except (Exit M) Unit) = .ok () := if_pos h

/-- An access that finds its cells has their contents. -/
@[simp] theorem access_of_some {α : Type} {x : Option α} {a : α} {e : String} (h : x = some a) :
    (access x e : Except (Exit M) α) = .ok a := by
  rw [h]
  rfl

/-- Past an operation that returns, the rest goes on with what it returns. -/
theorem bind_of_ok {ε α β : Type} {x : Except ε α} {a : α} (f : α → Except ε β)
    (h : x = .ok a) : (x >>= f) = f a := by
  rw [h]
  rfl

/-! ### How an operation ends -/

/-- The operation ends, by a return or by an exception, and leaves this buffer behind. -/
def Ends (x : Except (Exit M) (WordBuffer M)) (b : WordBuffer M) : Prop :=
  x = .ok b ∨ x = .error (.lengthError b)

/-- A return leaves the returned buffer behind. -/
@[simp] theorem ends_ok {b b' : WordBuffer M} : Ends (.ok b) b' ↔ b' = b := by
  unfold Ends
  simp only [Except.ok.injEq, reduceCtorEq, or_false]
  exact eq_comm

/-- An exception leaves the buffer behind that it carries. -/
@[simp] theorem ends_lengthError {b b' : WordBuffer M} :
    Ends (.error (.lengthError b)) b' ↔ b' = b := by
  unfold Ends
  simp only [Except.error.injEq, Exit.lengthError.injEq, reduceCtorEq, false_or]
  exact eq_comm

/-- An operation past an assertion ends if the assertion holds and the rest ends. -/
theorem ends_check {p : Prop} [Decidable p] {e : String}
    {f : Unit → Except (Exit M) (WordBuffer M)} {b : WordBuffer M} :
    Ends (check p e >>= f) b ↔ p ∧ Ends (f ()) b := by
  unfold check
  by_cases h : p
  · simp only [h, if_true, true_and]
    rfl
  · simp only [h, if_false, false_and, iff_false]
    rintro (hok | herror)
    · cases hok
    · cases herror

/-- An operation past an access ends if the access finds its cells and the rest ends. -/
theorem ends_access {α : Type} {x : Option α} {e : String}
    {f : α → Except (Exit M) (WordBuffer M)} {b : WordBuffer M} :
    Ends (access x e >>= f) b ↔ ∃ a, x = some a ∧ Ends (f a) b := by
  cases x with
  | none =>
    constructor
    · rintro (hok | herror)
      · cases hok
      · cases herror
    · rintro ⟨_, h, _⟩
      cases h
  | some a =>
    constructor
    · intro h
      exact ⟨a, rfl, h⟩
    · rintro ⟨_, h, hends⟩
      cases h
      exact hends

/-- An operation past an allocation ends as the rest does, or throws. -/
theorem ends_allocate {b b' : WordBuffer M} {o : Option (CharVector M)}
    {f : CharVector M → Except (Exit M) (WordBuffer M)} :
    Ends (b.allocate o >>= f) b' ↔
      (∃ v, o = some v ∧ Ends (f v) b') ∨ (o = none ∧ b' = b) := by
  cases o with
  | none =>
    constructor
    · rintro (hok | herror)
      · cases hok
      · cases herror
        exact .inr ⟨rfl, rfl⟩
    · rintro (⟨_, h, _⟩ | ⟨_, rfl⟩)
      · cases h
      · exact .inr rfl
  | some v =>
    constructor
    · intro h
      exact .inl ⟨v, rfl, h⟩
    · rintro (⟨_, h, hends⟩ | ⟨h, _⟩)
      · cases h
        exact hends
      · cases h

/-- A sequence of two operations ends where the first one throws or the second one ends. -/
theorem ends_bind {α : Type} {x : Except (Exit M) α} {f : α → Except (Exit M) (WordBuffer M)}
    {b : WordBuffer M} :
    Ends (x >>= f) b ↔ (∃ a, x = .ok a ∧ Ends (f a) b) ∨ x = .error (.lengthError b) := by
  cases x with
  | error e =>
    constructor
    · rintro (hok | herror)
      · cases hok
      · cases herror
        exact .inr rfl
    · rintro (⟨_, h, _⟩ | h)
      · cases h
      · cases h
        exact .inr rfl
  | ok a =>
    constructor
    · intro h
      exact .inl ⟨a, rfl, h⟩
    · rintro (⟨_, h, hends⟩ | h)
      · cases h
        exact hends
      · cases h

/-- What `makeSpace` returns: the storage is resized, or the readable bytes are slid to the
front. -/
inductive Spaced (b : WordBuffer M) (len : UInt64) : WordBuffer M → Prop
  | grown (v : CharVector M) (hsize : v.cells.length = (b.writerIndex + len).toNat) :
    Spaced b len { b with buffer := v }
  | slid (v : CharVector M) (hfront : kCheapPrepend < b.readerIndex)
    (hsize : v.cells.length = b.buffer.cells.length) :
    Spaced b len ⟨v, kCheapPrepend, kCheapPrepend + b.readableBytes⟩

/-- How `makeSpace` ends. -/
theorem makeSpace_cases {b b' : WordBuffer M} {len : UInt64} (hends : Ends (b.makeSpace len) b') :
    (b.makeSpace len = .error (.lengthError b) ∧ b' = b ∧
      M.value < (b.writerIndex + len).toNat) ∨
    b.makeSpace len = .ok b' ∧ Spaced b len b' := by
  unfold makeSpace at hends ⊢
  split at hends
  · rename_i hgrow
    rw [if_pos hgrow]
    rcases ends_allocate.mp hends with ⟨v, hv, hends⟩ | ⟨hnone, rfl⟩
    · cases ends_ok.mp hends
      rw [hv]
      exact .inr ⟨rfl, .grown v (WordVector.length_resize hv)⟩
    · left
      exact ⟨by rw [hnone]; rfl, rfl, WordVector.resize_eq_none_iff.mp hnone⟩
  · rename_i hgrow
    rw [if_neg hgrow]
    obtain ⟨hfront, hends⟩ := ends_check.mp hends
    obtain ⟨v, hv, hends⟩ := ends_access.mp hends
    obtain ⟨hback, hends⟩ := ends_check.mp hends
    cases ends_ok.mp hends
    right
    refine ⟨?_, .slid v hfront (WordVector.slide_cases hv).1⟩
    rw [bind_of_ok _ (check_of_true hfront)]
    refine (bind_of_ok _ (access_of_some hv)).trans ?_
    exact bind_of_ok _ (check_of_true hback)

/-- How `ensureWritableBytes` ends: there is room already, or the resize throws, or `makeSpace`
makes the room. -/
theorem ensureWritableBytes_cases {b b' : WordBuffer M} {len : UInt64}
    (hends : Ends (b.ensureWritableBytes len) b') :
    (len ≤ b.writableBytes ∧ b.ensureWritableBytes len = .ok b' ∧ b' = b) ∨
    b.writableBytes < len ∧
      ((b.ensureWritableBytes len = .error (.lengthError b) ∧ b' = b ∧
        M.value < (b.writerIndex + len).toNat) ∨
      b.ensureWritableBytes len = .ok b' ∧ Spaced b len b' ∧ len ≤ b'.writableBytes) := by
  unfold ensureWritableBytes at hends ⊢
  split at hends
  · rename_i hlen
    rw [if_pos hlen]
    refine .inr ⟨hlen, ?_⟩
    rcases ends_bind.mp hends with ⟨b₁, hok, hends⟩ | hthrow
    · obtain ⟨hroom, hends⟩ := ends_check.mp hends
      cases ends_ok.mp hends
      right
      rcases makeSpace_cases (.inl hok) with ⟨herror, _⟩ | ⟨_, hspaced⟩
      · rw [hok] at herror
        cases herror
      · refine ⟨?_, hspaced, hroom⟩
        refine (bind_of_ok _ hok).trans ?_
        exact bind_of_ok _ (check_of_true hroom)
    · left
      rcases makeSpace_cases (.inr hthrow) with ⟨herror, rfl, hmax⟩ | ⟨hok, _⟩
      · exact ⟨by rw [herror]; rfl, rfl, hmax⟩
      · rw [hthrow] at hok
        cases hok
  · rename_i hlen
    rw [if_neg hlen]
    obtain ⟨hroom, hends⟩ := ends_check.mp hends
    cases ends_ok.mp hends
    exact .inl ⟨hroom, bind_of_ok _ (check_of_true hroom), rfl⟩

/-- The size of the vector that `shrink` allocates. -/
def newSize (b : WordBuffer M) (reserve : UInt64) : UInt64 :=
  kCheapPrepend + b.readableBytes + reserve

/-- How `shrink` ends: the allocation throws, or the buffer has a vector of the new size and its
old indices. -/
theorem shrink_cases {b b' : WordBuffer M} {reserve : UInt64}
    (hends : Ends (b.shrink reserve) b') :
    (b.shrink reserve = .error (.lengthError b) ∧ b' = b ∧
      M.value < (b.newSize reserve).toNat) ∨
    (b.newSize reserve).toNat ≤ M.value ∧ ∃ v, b' = { b with buffer := v } ∧
      v.cells.length = (b.newSize reserve).toNat := by
  rcases ends_allocate.mp hends with ⟨v, hv, hends⟩ | ⟨hnone, rfl⟩
  · obtain ⟨_, _, hends⟩ := ends_access.mp hends
    obtain ⟨v', hv', hends⟩ := ends_access.mp hends
    cases ends_ok.mp hends
    obtain ⟨hmax, hcells⟩ := WordVector.sized_cases hv
    refine .inr ⟨hmax, v', rfl, ?_⟩
    rw [(WordVector.write_cases hv').1, hcells, List.length_replicate]
    rfl
  · left
    refine ⟨?_, rfl, WordVector.sized_eq_none_iff.mp hnone⟩
    unfold shrink
    rw [hnone]
    rfl

/-! ### What an operation does without a wrap -/

/-- The buffer on natural numbers that `b` stands for. -/
def toBuffer (b : WordBuffer M) : Buffer :=
  ⟨b.buffer.cells, b.readerIndex.toNat, b.writerIndex.toNat⟩

/-- The bytes from `peek()` to `beginWrite()`. -/
def readable (b : WordBuffer M) : List Byte := b.toBuffer.readable

/-- `x` returns the buffer that `y` returns. -/
def Returns (x : Except (Exit M) (WordBuffer M)) (y : Except Failure Buffer) : Prop :=
  ∃ b, x = .ok b ∧ y = .ok b.toBuffer

section Refinement

variable {b : WordBuffer M}

/-- `readableBytes` does not wrap around. -/
theorem toNat_readableBytes (h : b.toBuffer.Wf) :
    b.readableBytes.toNat = b.toBuffer.readableBytes :=
  UInt64.toNat_sub_of_le _ _ (UInt64.le_iff_toNat_le.mpr h.reader_le_writer)

/-- `writableBytes` does not wrap around. -/
theorem toNat_writableBytes (h : b.toBuffer.Wf) :
    b.writableBytes.toNat = b.toBuffer.writableBytes := by
  have hle : b.writerIndex ≤ b.buffer.size := by
    rw [UInt64.le_iff_toNat_le, CharVector.toNat_size]
    exact h.writer_le_size
  have hsub := UInt64.toNat_sub_of_le _ _ hle
  rw [CharVector.toNat_size] at hsub
  exact hsub

/-- The writer index is no larger than a vector. -/
theorem writerIndex_lt (h : b.toBuffer.Wf) : b.writerIndex.toNat < 2 ^ 63 := by
  have hsize : b.writerIndex.toNat ≤ b.buffer.cells.length := h.writer_le_size
  have hmax := b.buffer.length_le
  have hlt := M.lt
  omega

/-- Within its precondition `retrieve` does what it does on natural numbers. -/
theorem retrieve_returns (h : b.toBuffer.Wf) {len : UInt64} (hlen : len ≤ b.readableBytes) :
    Returns (b.retrieve len) (b.toBuffer.retrieve len.toNat) := by
  have hle : b.readerIndex.toNat ≤ b.writerIndex.toNat := h.reader_le_writer
  have hlt := b.writerIndex.toNat_lt
  have hcount := UInt64.le_iff_toNat_le.mp hlen
  rw [toNat_readableBytes h] at hcount
  have hsum : (b.readerIndex + len).toNat = b.readerIndex.toNat + len.toNat := by
    unfold toBuffer Buffer.readableBytes at hcount
    simp only at hcount
    rw [UInt64.toNat_add]
    omega
  refine ⟨{ b with readerIndex := b.readerIndex + len }, ?_, ?_⟩
  · rw [retrieve, check_of_true hlen]
    rfl
  · rw [Buffer.retrieve, require_of_true hcount]
    exact congrArg (fun i => Except.ok (Buffer.mk b.buffer.cells i b.writerIndex.toNat)) hsum.symm

/-- Where its two sums do not wrap around, `makeSpace` tests what it tests on natural numbers. -/
theorem makeSpace_test (h : b.toBuffer.Wf) {len : UInt64}
    (hheader : len.toNat + Buffer.kCheapPrepend < 2 ^ 64) :
    b.writableBytes + b.prependableBytes < len + kCheapPrepend ↔
      b.toBuffer.writableBytes + b.toBuffer.prependableBytes <
        len.toNat + Buffer.kCheapPrepend := by
  have hwritable := toNat_writableBytes h
  have hroom : b.toBuffer.writableBytes < 2 ^ 63 := by
    have hmax := b.buffer.length_le
    have hlt := M.lt
    change b.buffer.cells.length - b.writerIndex.toNat < 2 ^ 63
    omega
  have hreader : b.readerIndex.toNat ≤ b.writerIndex.toNat := h.reader_le_writer
  have hwriter := writerIndex_lt h
  have hleft : (b.writableBytes + b.prependableBytes).toNat =
      b.toBuffer.writableBytes + b.toBuffer.prependableBytes := by
    rw [UInt64.toNat_add, hwritable]
    change _ = b.toBuffer.writableBytes + b.readerIndex.toNat
    unfold prependableBytes
    omega
  have hright : (len + kCheapPrepend).toNat = len.toNat + Buffer.kCheapPrepend := by
    rw [UInt64.toNat_add]
    exact Nat.mod_eq_of_lt hheader
  rw [UInt64.lt_iff_toNat_lt, hleft, hright]

/-- Where its two sums do not wrap around, `makeSpace` throws and leaves the buffer alone, or does
what it does on natural numbers. -/
theorem makeSpace_returns (h : b.toBuffer.Wf) {len : UInt64}
    (hlen : b.writableBytes < len) (hheader : len.toNat + Buffer.kCheapPrepend < 2 ^ 64)
    (hsum : b.writerIndex.toNat + len.toNat < 2 ^ 64) :
    b.makeSpace len = .error (.lengthError b) ∨
      Returns (b.makeSpace len) (b.toBuffer.makeSpace len.toNat) := by
  have htest := makeSpace_test h hheader
  unfold WordBuffer.makeSpace Buffer.makeSpace
  by_cases hgrow : b.writableBytes + b.prependableBytes < len + kCheapPrepend
  · have hgrow' := htest.mp hgrow
    have hindex : (b.writerIndex + len).toNat = b.writerIndex.toNat + len.toNat := by
      rw [UInt64.toNat_add]
      exact Nat.mod_eq_of_lt hsum
    rw [if_pos hgrow, if_pos hgrow']
    by_cases hmax : (b.writerIndex + len).toNat ≤ M.value
    · obtain ⟨v, hv, hcells⟩ := b.buffer.resize_of_le 0 hmax
      right
      refine ⟨{ b with buffer := v }, by rw [hv]; rfl, ?_⟩
      rw [hindex] at hcells
      exact congrArg (fun l => Except.ok (Buffer.mk l _ _)) hcells.symm
    · left
      rw [WordVector.resize_eq_none_iff.mpr (Nat.not_le.mp hmax)]
      rfl
  · have hgrow' := mt htest.mpr hgrow
    rw [if_neg hgrow, if_neg hgrow']
    right
    have hwritable := toNat_writableBytes h
    have hreadable := toNat_readableBytes h
    have hlen := UInt64.lt_iff_toNat_lt.mp hlen
    have hfront : Buffer.kCheapPrepend < b.toBuffer.readerIndex := by
      unfold Buffer.prependableBytes at hgrow'
      omega
    have hdst : kCheapPrepend.toNat ≤ b.readerIndex.toNat := Nat.le_of_lt hfront
    obtain ⟨v, hv, hcells⟩ := b.buffer.slide_of_le h.reader_le_writer h.writer_le_size hdst
    have hback : b.readableBytes = kCheapPrepend + b.readableBytes - kCheapPrepend := by
      rw [UInt64.add_comm, UInt64.add_sub_cancel]
    have hindex : (kCheapPrepend + b.readableBytes).toNat =
        Buffer.kCheapPrepend + b.toBuffer.readableBytes := by
      have hlt := writerIndex_lt h
      have hle : b.toBuffer.readableBytes ≤ b.writerIndex.toNat := Nat.sub_le _ _
      rw [UInt64.toNat_add, hreadable]
      change (Buffer.kCheapPrepend + _) % 2 ^ 64 = _
      unfold Buffer.kCheapPrepend
      omega
    refine ⟨⟨v, kCheapPrepend, kCheapPrepend + b.readableBytes⟩, ?_, ?_⟩
    · have hfront' : kCheapPrepend < b.readerIndex := UInt64.lt_iff_toNat_lt.mpr hfront
      rw [bind_of_ok _ (check_of_true hfront')]
      refine (bind_of_ok _ (access_of_some hv)).trans ?_
      exact bind_of_ok _ (check_of_true hback)
    · rw [require_bind_eq_ok]
      refine ⟨hfront, ?_⟩
      rw [require_bind_eq_ok]
      refine ⟨(Nat.add_sub_cancel_left _ _).symm, ?_⟩
      change Except.ok (Buffer.mk _ _ _) = Except.ok (Buffer.mk v.cells _ _)
      rw [hcells, hindex]
      rfl

/-- Where the writer index and `len` have a sum, `ensureWritableBytes` throws and leaves the buffer
alone, or does what it does on natural numbers. -/
theorem ensureWritableBytes_returns (h : b.toBuffer.Wf) {len : UInt64}
    (hheader : Buffer.kCheapPrepend ≤ b.writerIndex.toNat)
    (hsum : b.writerIndex.toNat + len.toNat < 2 ^ 64) :
    b.ensureWritableBytes len = .error (.lengthError b) ∨
      Returns (b.ensureWritableBytes len) (b.toBuffer.ensureWritableBytes len.toNat) := by
  have hwritable := toNat_writableBytes h
  unfold WordBuffer.ensureWritableBytes Buffer.ensureWritableBytes
  by_cases hlen : b.writableBytes < len
  · have hlen' : b.toBuffer.writableBytes < len.toNat := by
      rw [← hwritable]
      exact UInt64.lt_iff_toNat_lt.mp hlen
    rw [if_pos hlen, if_pos hlen']
    rcases makeSpace_returns h hlen (by omega) hsum with hthrow | ⟨b', hok, hok'⟩
    · left
      rw [hthrow]
      rfl
    · right
      obtain ⟨_, hspace, hwf, _, hroom⟩ := h.makeSpace hlen'
      cases hspace.symm.trans hok'
      have hroom' : len ≤ b'.writableBytes := by
        rw [UInt64.le_iff_toNat_le, toNat_writableBytes hwf]
        exact hroom
      refine ⟨b', ?_, ?_⟩
      · refine (bind_of_ok _ hok).trans ?_
        exact bind_of_ok _ (check_of_true hroom')
      · refine (bind_of_ok _ hok').trans ?_
        exact bind_of_ok _ (require_of_true hroom)
  · have hroom : len ≤ b.writableBytes := by
      rw [UInt64.lt_iff_toNat_lt] at hlen
      rw [UInt64.le_iff_toNat_le]
      omega
    have hroom' : len.toNat ≤ b.toBuffer.writableBytes := by
      rw [← hwritable]
      exact UInt64.le_iff_toNat_le.mp hroom
    rw [if_neg hlen, if_neg (by omega)]
    right
    refine ⟨b, ?_, ?_⟩
    · exact bind_of_ok _ (check_of_true hroom)
    · exact bind_of_ok _ (require_of_true hroom')

/-- `append` throws and leaves the buffer alone, or does what it does on natural numbers. -/
theorem append_returns (h : b.toBuffer.Wf) (hheader : Buffer.kCheapPrepend ≤ b.writerIndex.toNat)
    (data : Range) :
    b.append data = .error (.lengthError b) ∨
      Returns (b.append data) (b.toBuffer.append data.bytes) := by
  have hlt := writerIndex_lt h
  have hlen := data.toNat_len
  have hfits := data.length_lt
  unfold WordBuffer.append Buffer.append
  rw [← hlen]
  have hsum : b.writerIndex.toNat + data.len.toNat < 2 ^ 64 := by omega
  rcases ensureWritableBytes_returns h hheader hsum with hthrow | ⟨b₁, hok, hok'⟩
  · left
    rw [hthrow]
    rfl
  · right
    obtain ⟨_, hensure, hwf, _, hroom⟩ := h.ensureWritableBytes data.len.toNat
    cases hensure.symm.trans hok'
    have hwriter : b₁.writerIndex.toNat ≤ b₁.buffer.cells.length := hwf.writer_le_size
    have hmax := b₁.buffer.length_le
    have hM := M.lt
    have hcells : b₁.writerIndex.toNat + data.bytes.length ≤ b₁.buffer.cells.length := by
      change data.len.toNat ≤ b₁.buffer.cells.length - b₁.writerIndex.toNat at hroom
      omega
    obtain ⟨v, hv, hwritten⟩ := WordVector.write_of_le hcells
    have hindex : (b₁.writerIndex + data.len).toNat = b₁.writerIndex.toNat + data.len.toNat := by
      rw [UInt64.toNat_add]
      omega
    refine ⟨⟨v, b₁.readerIndex, b₁.writerIndex + data.len⟩, ?_, ?_⟩
    · rw [bind_of_ok _ hok]
      exact bind_of_ok _ (access_of_some hv)
    · rw [hok']
      change Except.ok (Buffer.mk _ _ _) = Except.ok (Buffer.mk v.cells _ _)
      rw [hwritten, hindex]
      rfl

end Refinement

end WordBuffer

end Dalin.Net
