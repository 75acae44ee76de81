import Dalin.Net.WordBufferRun

/-!
# Shrinking a buffer

`shrink` copies the readable bytes behind the header of a new vector, but leaves
the indices where they were. This file says when that goes well: the new vector
can be allocated, and the readable bytes were behind the header already, or
nearer to the front and all zero.
-/

set_option autoImplicit false

namespace Dalin.Net

open Slice Transition

variable {M : MaxSize}

/-- A call that a byte queue has, too. -/
inductive QueueCall
  | append (data : Range)
  | retrieve (len : UInt64)

namespace WordBuffer

/-- From `b` on, the calls do to the buffer what they do to the queue: an `append` adds its bytes
at the end, or throws and adds none, and a `retrieve` of bytes that are there drops them. -/
def FollowsQueue : WordBuffer M → List Byte → List QueueCall → Prop
  | b, q, [] => b.readable = q
  | b, q, .append data :: cs =>
    b.readable = q ∧
      match b.append data with
      | .ok b' => FollowsQueue b' (q ++ data.bytes) cs
      | .error (.lengthError b') => FollowsQueue b' q cs
      | .error _ => False
  | b, q, .retrieve len :: cs =>
    b.readable = q ∧
      (len.toNat ≤ q.length → ∃ b', b.retrieve len = .ok b' ∧
        FollowsQueue b' (q.drop len.toNat) cs)

/-- `b'` is what `shrink(reserve)` should make of `b`: it holds the same bytes with room for
`reserve` more, its indices are in order and inside the storage, and it goes on as a queue. -/
structure ShrinkKeeps (b b' : WordBuffer M) (reserve : UInt64) : Prop where
  readable_eq : b'.readable = b.readable
  reader_le_writer : b'.readerIndex ≤ b'.writerIndex
  writer_le_size : b'.writerIndex ≤ b'.buffer.size
  reserve_le : reserve ≤ b'.writableBytes
  follows : ∀ cs, FollowsQueue b' b.readable cs

/-- The new vector can be allocated, and the readable bytes do not lie behind the header, or
nearer to the front without being all zero. -/
def ShrinkFits (b : WordBuffer M) (reserve : UInt64) : Prop :=
  Buffer.kCheapPrepend + b.readable.length + reserve.toNat ≤ M.value ∧
    (b.readerIndex = kCheapPrepend ∨
      b.readerIndex < kCheapPrepend ∧ ∀ x ∈ b.readable, x = 0)

namespace Stored

variable {b b' : WordBuffer M}

/-- A stored buffer goes on as a queue, whatever is called. -/
theorem followsQueue (h : b.Stored) (cs : List QueueCall) : FollowsQueue b b.readable cs := by
  induction cs generalizing b with
  | nil => rfl
  | cons c cs ih =>
    cases c with
    | append data =>
      refine ⟨rfl, ?_⟩
      rcases append_returns h.wf h.header_le_writer data with hthrow | ⟨b', hok, hok'⟩
      · rw [hthrow]
        exact ih h
      · obtain ⟨_, happend, _, hreadable⟩ := h.wf.append data.bytes
        cases happend.symm.trans hok'
        rw [hok]
        have hnext := ih (h.append (.inl hok)).1
        rwa [show b'.readable = b.readable ++ data.bytes from hreadable] at hnext
    | retrieve len =>
      refine ⟨rfl, fun hlen => ?_⟩
      have hcount := h.length_readable
      have hlen' : len ≤ b.readableBytes := by
        rw [UInt64.le_iff_toNat_le]
        omega
      obtain ⟨b', hok, hok'⟩ := retrieve_returns h.wf hlen'
      have hheld : len.toNat ≤ b.toBuffer.readableBytes := by
        rw [← toNat_readableBytes h.wf]
        exact UInt64.le_iff_toNat_le.mp hlen'
      obtain ⟨_, hretrieve, _, hreadable⟩ := h.wf.retrieve hheld
      cases hretrieve.symm.trans hok'
      refine ⟨b', hok, ?_⟩
      have hnext := ih (b := b') (h.call (c := .retrieve len) trivial (.inl hok)).1
      rwa [show b'.readable = b.readable.drop len.toNat from hreadable] at hnext

/-- The new size, where it does not wrap around. -/
theorem toNat_newSize (h : b.Stored) {reserve : UInt64}
    (hnowrap : Buffer.kCheapPrepend + b.readable.length + reserve.toNat < 2 ^ 64) :
    (b.newSize reserve).toNat =
      Buffer.kCheapPrepend + b.readable.length + reserve.toNat := by
  rw [newSize, UInt64.toNat_add, UInt64.toNat_add, toNat_kCheapPrepend, ← h.length_readable]
  omega

/-- Where the new size does not wrap around and fits, `shrink` returns. -/
theorem shrink_returns (h : b.Stored) {reserve : UInt64}
    (hfits : Buffer.kCheapPrepend + b.readable.length + reserve.toNat ≤ M.value) :
    ∃ v, b.shrink reserve = .ok { b with buffer := v } ∧
      v.cells = overwrite
        (List.replicate (Buffer.kCheapPrepend + b.readable.length + reserve.toNat) 0)
        Buffer.kCheapPrepend b.readable := by
  have hM := M.lt
  have hnowrap : Buffer.kCheapPrepend + b.readable.length + reserve.toNat < 2 ^ 64 := by omega
  have hsum := h.toNat_newSize hnowrap
  obtain ⟨v, hv, hcells⟩ := WordVector.sized_of_le (0 : Byte) (hsum ▸ hfits)
  unfold newSize at hv
  rw [hsum] at hcells
  have hread : b.buffer.read b.peek (b.peek + b.readableBytes) = some b.readable := by
    rw [h.toOrdered.peek_add_readableBytes]
    exact WordVector.read_of_le h.reader_le_writer h.writer_le_size
  have hroom : kCheapPrepend.toNat + b.readable.length ≤ v.cells.length := by
    rw [hcells, List.length_replicate]
    exact Nat.le_add_right _ _
  obtain ⟨v', hv', hcells'⟩ := WordVector.write_of_le hroom
  refine ⟨v', ?_, ?_⟩
  · unfold shrink
    rw [hv]
    refine (bind_of_ok _ (access_of_some hread)).trans ?_
    exact bind_of_ok _ (access_of_some hv')
  · rw [hcells', hcells]
    rfl

/-- Where the new size fits and the reader index is not behind the header, the shrunk buffer is
stored, has the room asked for, and reads the old bytes behind those before the header. -/
theorem of_shrink (h : b.Stored) {reserve : UInt64}
    (hfits : Buffer.kCheapPrepend + b.readable.length + reserve.toNat ≤ M.value)
    (hreader : b.readerIndex.toNat ≤ Buffer.kCheapPrepend) :
    ∃ b', b.shrink reserve = .ok b' ∧ b'.Stored ∧ reserve ≤ b'.writableBytes ∧
      b'.readable = (List.replicate (Buffer.kCheapPrepend - b.readerIndex.toNat) 0 ++
        b.readable).take b.readable.length := by
  have hcount := h.length_readable
  have hdiff := h.toOrdered.toNat_readableBytes
  have hle := h.reader_le_writer
  have hend : b.writerIndex.toNat = b.readerIndex.toNat + b.readable.length := by omega
  obtain ⟨v, hok, hcells⟩ := h.shrink_returns hfits
  have hsize : v.cells.length = Buffer.kCheapPrepend + b.readable.length + reserve.toNat := by
    rw [hcells, length_overwrite (by rw [List.length_replicate]; exact Nat.le_add_right _ _),
      List.length_replicate]
  have hstored : Stored { b with buffer := v } := by
    refine ⟨h.toOrdered.shrink (.inl hok), ?_⟩
    change b.writerIndex.toNat ≤ v.cells.length
    omega
  refine ⟨_, hok, hstored, ?_, ?_⟩
  · rw [UInt64.le_iff_toNat_le, toNat_writableBytes hstored.wf]
    change reserve.toNat ≤ v.cells.length - b.writerIndex.toNat
    omega
  · change slice v.cells b.readerIndex.toNat b.writerIndex.toNat = _
    rw [hcells, hend]
    exact slice_overwrite_replicate hreader (Nat.le_add_right _ _)

/-- A shrunk buffer with its indices inside the storage and the room asked for has a new size that
does not wrap around, and its reader index is not behind the header. -/
theorem of_shrinkKeeps (h : b.Stored) {reserve : UInt64} (hok : b.shrink reserve = .ok b')
    (hkeeps : ShrinkKeeps b b' reserve) :
    Buffer.kCheapPrepend + b.readable.length + reserve.toNat ≤ M.value ∧
      b.readerIndex.toNat ≤ Buffer.kCheapPrepend := by
  rcases shrink_cases (.inl hok) with ⟨hthrow, _⟩ | ⟨hmax, v, rfl, hsize⟩
  · rw [hok] at hthrow
    cases hthrow
  have hM := M.lt
  have hinitial := M.initial_le
  have hindex := h.writer_le_max
  have hle := h.reader_le_writer
  have hcount := h.length_readable
  have hdiff := h.toOrdered.toNat_readableBytes
  have hwriter : b.writerIndex.toNat ≤ v.size.toNat :=
    UInt64.le_iff_toNat_le.mp hkeeps.writer_le_size
  have hroom : reserve.toNat ≤ (v.size - b.writerIndex).toNat :=
    UInt64.le_iff_toNat_le.mp hkeeps.reserve_le
  have hsub := UInt64.toNat_sub_of_le v.size b.writerIndex hkeeps.writer_le_size
  rw [hsub, CharVector.toNat_size] at hroom
  rw [CharVector.toNat_size] at hwriter
  rw [hsize] at hroom hwriter
  rw [newSize, UInt64.toNat_add, UInt64.toNat_add, toNat_kCheapPrepend] at hroom hwriter hmax
  have hreserve := reserve.toNat_lt
  constructor
  · omega
  · omega

end Stored

/-- **Shrinking a buffer.** In every buffer that calls which move bytes bring about, `shrink` keeps
the contents exactly if the new vector fits and the reader index is at the header, or in front of
it with only zero bytes to read. If the new size is beyond the largest one and does not wrap
around, `shrink` throws and leaves the buffer alone. -/
theorem shrink_keeps_iff {b : WordBuffer M} (h : (byteSystem M).Reachable b) (reserve : UInt64) :
    ((∃ b', b.shrink reserve = .ok b' ∧ ShrinkKeeps b b' reserve) ↔ ShrinkFits b reserve) ∧
      (M.value < Buffer.kCheapPrepend + b.readable.length + reserve.toNat →
        Buffer.kCheapPrepend + b.readable.length + reserve.toNat < 2 ^ 64 →
          b.shrink reserve = .error (.lengthError b)) := by
  obtain ⟨_, cs, rfl, hrun⟩ := h
  have hstored := stored_of_run hrun
  refine ⟨⟨?_, ?_⟩, fun hlarge hnowrap => ?_⟩
  · rintro ⟨b', hok, hkeeps⟩
    obtain ⟨hfits, hfront⟩ := hstored.of_shrinkKeeps hok hkeeps
    refine ⟨hfits, ?_⟩
    by_cases heq : b.readerIndex = kCheapPrepend
    · exact .inl heq
    · have hgap : b.readerIndex.toNat < Buffer.kCheapPrepend :=
        Nat.lt_of_le_of_ne hfront fun hnat => heq (UInt64.toNat_inj.mp hnat)
      right
      refine ⟨UInt64.lt_iff_toNat_lt.mpr hgap, ?_⟩
      obtain ⟨_, hok', _, _, hreadable⟩ := hstored.of_shrink hfits hfront
      cases hok'.symm.trans hok
      rw [hkeeps.readable_eq] at hreadable
      exact (take_replicate_append_eq_self_iff (Nat.sub_pos_of_lt hgap)).mp hreadable.symm
  · rintro ⟨hfits, hreader⟩
    have hfront : b.readerIndex.toNat ≤ Buffer.kCheapPrepend := by
      rcases hreader with heq | ⟨hlt, _⟩
      · rw [heq, toNat_kCheapPrepend]
      · exact Nat.le_of_lt (UInt64.lt_iff_toNat_lt.mp hlt)
    obtain ⟨b', hok, hstored', hroom, hreadable⟩ := hstored.of_shrink hfits hfront
    have hsame : b'.readable = b.readable := by
      rw [hreadable]
      rcases hreader with heq | ⟨hlt, hzero⟩
      · rw [heq, toNat_kCheapPrepend, Nat.sub_self, List.replicate_zero, List.nil_append,
          List.take_length]
      · have hgap := UInt64.lt_iff_toNat_lt.mp hlt
        rw [toNat_kCheapPrepend] at hgap
        exact (take_replicate_append_eq_self_iff (Nat.sub_pos_of_lt hgap)).mpr hzero
    refine ⟨b', hok, hsame, UInt64.le_iff_toNat_le.mpr hstored'.reader_le_writer, ?_, hroom,
      fun cs => hsame ▸ hstored'.followsQueue cs⟩
    rw [UInt64.le_iff_toNat_le, CharVector.toNat_size]
    exact hstored'.writer_le_size
  · have hlarge' : M.value < (b.newSize reserve).toNat := by
      rwa [hstored.toNat_newSize hnowrap]
    have hnone := WordVector.sized_eq_none_iff (x := (0 : Byte)).mpr hlarge'
    unfold newSize at hnone
    unfold shrink
    rw [hnone]
    rfl

/-- Two bytes with sixteen more to come: the indices of the buffer are still at the header. -/
theorem shrink_keeps_iff_append : ∃ b : WordBuffer .ptrdiff, b.readable = [1, 2] ∧
    ∃ b', b.shrink 16 = .ok b' ∧ ShrinkKeeps b b' 16 := by
  have hcheck : ((byteSystem .ptrdiff).replay new [.append ⟨[1, 2], by decide⟩]).any (fun b =>
      b.readable == [1, 2] && b.readerIndex == kCheapPrepend) = true := by
    decide +kernel
  obtain ⟨b, hrun, hb⟩ := System.exists_run_of_replay hcheck
  have hb : b.readable = [1, 2] ∧ b.readerIndex = kCheapPrepend := by simpa using hb
  refine ⟨b, hb.1, (shrink_keeps_iff ⟨_, _, rfl, hrun⟩ 16).1.mpr ⟨?_, .inl hb.2⟩⟩
  rw [hb.1]
  decide

/-- Two bytes are appended and one is read: a shrunk buffer without room to spare then has its
indices behind its storage, and the other byte is lost. -/
theorem shrink_loses_byte : ∃ b : WordBuffer .ptrdiff, (byteSystem .ptrdiff).Reachable b ∧
    b.readable = [2] ∧ ∃ b', b.shrink 0 = .ok b' ∧ b'.readable = [] ∧
      b'.buffer.size < b'.writerIndex ∧ ¬ShrinkKeeps b b' 0 := by
  have hcheck : ((byteSystem .ptrdiff).replay new
      [.append ⟨[1, 2], by decide⟩, .retrieve 1]).any (fun b =>
        b.readable == [2] && (b.shrink 0).toOption.any fun b' =>
          b'.readable == [] && decide (b'.buffer.size < b'.writerIndex)) = true := by
    decide +kernel
  obtain ⟨b, hrun, hb⟩ := System.exists_run_of_replay hcheck
  simp only [Bool.and_eq_true, beq_iff_eq] at hb
  obtain ⟨hreadable, hb⟩ := hb
  obtain ⟨b', hok, hb'⟩ := exists_ok_of_any hb
  simp only [Bool.and_eq_true, beq_iff_eq, decide_eq_true_eq] at hb'
  refine ⟨b, ⟨_, _, rfl, hrun⟩, hreadable, b', hok, hb'.1, hb'.2, fun hkeeps => ?_⟩
  have hsame := hkeeps.readable_eq
  rw [hb'.1, hreadable] at hsame
  cases hsame

end WordBuffer

end Dalin.Net
