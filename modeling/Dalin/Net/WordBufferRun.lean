import Dalin.Net.WordBuffer

/-!
# Runs of the byte buffer on machine words

A program owns a buffer on machine words and calls its operations in any order;
where one throws, the program goes on with the buffer as the exception leaves
it. This file proves that the indices stay in order in every run, that they stay
inside the storage as long as bytes are only moved in and out, and that the
storage is then never larger than twice what it has held at one time.
-/

set_option autoImplicit false

namespace Dalin.Net

open Slice Transition

variable {M : MaxSize}

/-- A call of an operation on a buffer. `swap` is not among them: it exchanges two buffers whole,
so no buffer comes to hold what none held before. -/
inductive WordCall
  | append (data : Range)
  | prepend (data : Range)
  | retrieve (len : UInt64)
  | retrieveUntil (stop : UInt64)
  | retrieveAll
  | retrieveAsString
  | readFd (result : ReadResult)
  | ensureWritableBytes (len : UInt64)
  | shrink (reserve : UInt64)

/-- The calls that move bytes in or out. -/
def WordCall.MovesBytes : WordCall → Prop
  | .ensureWritableBytes _ | .shrink _ => False
  | _ => True

instance : (c : WordCall) → Decidable c.MovesBytes
  | .ensureWritableBytes _ | .shrink _ => inferInstanceAs (Decidable False)
  | .append _ | .prepend _ | .retrieve _ | .retrieveUntil _ | .retrieveAll | .retrieveAsString
  | .readFd _ => inferInstanceAs (Decidable True)

namespace WordBuffer

/-- Carry a call out. -/
def call (b : WordBuffer M) : WordCall → Except (Exit M) (WordBuffer M)
  | .append data => b.append data
  | .prepend data => b.prepend data
  | .retrieve len => b.retrieve len
  | .retrieveUntil stop => b.retrieveUntil stop
  | .retrieveAll => .ok b.retrieveAll
  | .retrieveAsString => do
    let (_, b) ← b.retrieveAsString
    return b
  | .readFd result => do
    let (b, _, _) ← b.readFd 0 result
    return b
  | .ensureWritableBytes len => b.ensureWritableBytes len
  | .shrink reserve => b.shrink reserve

/-- The program goes on with the buffer that a return or an exception leaves behind. -/
def settle : Except (Exit M) (WordBuffer M) → Except (Exit M) (WordBuffer M)
  | .ok b => .ok b
  | .error (.lengthError b) => .ok b
  | .error e => .error e

/-- The program goes on exactly with what the operation ends with. -/
theorem settle_eq_ok {x : Except (Exit M) (WordBuffer M)} {b : WordBuffer M} :
    settle x = .ok b ↔ Ends x b := by
  unfold Ends
  rcases x with (_ | _ | b') | b'
  · simp [settle]
  · simp [settle]
  · simp [settle]
  · simp [settle]

end WordBuffer

/-- A buffer under any calls. -/
def wordSystem (M : MaxSize) : System (WordBuffer M) WordCall (Exit M) where
  init b := b = .new
  enabled _ _ := True
  exec b c := WordBuffer.settle (b.call c)

instance (b : WordBuffer M) (c : WordCall) : Decidable ((wordSystem M).enabled b c) :=
  inferInstanceAs (Decidable True)

/-- A buffer under calls that move bytes in or out. -/
def byteSystem (M : MaxSize) : System (WordBuffer M) WordCall (Exit M) :=
  (wordSystem M).restrict fun _ c => c.MovesBytes

instance (b : WordBuffer M) (c : WordCall) : Decidable ((byteSystem M).enabled b c) :=
  inferInstanceAs (Decidable (True ∧ c.MovesBytes))

namespace WordBuffer

/-! ### What all calls keep -/

/-- The indices are in order and behind the header, and could be those of a vector. This says
nothing about the storage that is there. -/
structure Ordered (b : WordBuffer M) : Prop where
  reader_le_writer : b.readerIndex.toNat ≤ b.writerIndex.toNat
  writer_le_max : b.writerIndex.toNat ≤ M.value
  header_le_writer : Buffer.kCheapPrepend ≤ b.writerIndex.toNat

/-- Indices at the header are in order. -/
theorem ordered_header (v : CharVector M) : Ordered ⟨v, kCheapPrepend, kCheapPrepend⟩ :=
  ⟨Nat.le_refl _, Nat.le_trans (Nat.le_add_right _ _) M.initial_le, Nat.le_refl _⟩

/-- What returns the buffer of an operation along with other results ends as the operation does. -/
theorem bind_of_return {α : Type} (x : Except (Exit M) (WordBuffer M)) (f : WordBuffer M → α)
    {g : α → Except (Exit M) (WordBuffer M)} (h : ∀ b, g (f b) = .ok b) :
    ((x >>= fun b => .ok (f b)) >>= g) = x := by
  cases x with
  | ok b => exact h b
  | error e => rfl

/-- The buffer after `readFd`. -/
theorem call_readFd (b : WordBuffer M) (arrived : List Byte) :
    b.call (.readFd (.data arrived)) =
      let writable := b.writableBytes
      let bytes := arrived.take (writable.toNat + Buffer.extraSize)
      access (b.buffer.write b.writerIndex (bytes.take writable.toNat)) "readv" >>= fun v =>
        if bytes.length ≤ writable.toNat then
          .ok ⟨v, b.readerIndex, b.writerIndex + .ofNat bytes.length⟩
        else
          append ⟨v, b.readerIndex, v.size⟩ (extra writable bytes (List.length_take_le _ _)) := by
  simp only [call, readFd]
  cases b.buffer.write b.writerIndex _ with
  | none => rfl
  | some v =>
    simp only [access]
    by_cases hn : (arrived.take (b.writableBytes.toNat + Buffer.extraSize)).length ≤
        b.writableBytes.toNat
    · simp only [hn, if_true]
      rfl
    · simp only [hn, if_false]
      exact bind_of_return (append ⟨v, b.readerIndex, v.size⟩ _) _ fun _ => rfl

/-- The buffer after `retrieveAsString`. -/
theorem call_retrieveAsString (b : WordBuffer M) :
    b.call .retrieveAsString = access (b.buffer.read b.peek (b.peek + b.readableBytes))
      "str(peek(), readableBytes())" >>= fun _ => .ok b.retrieveAll := by
  simp only [call, retrieveAsString]
  cases b.buffer.read b.peek _ with
  | none => rfl
  | some str => rfl

namespace Ordered

variable {b b' : WordBuffer M}

/-- `readableBytes` does not wrap around. -/
theorem toNat_readableBytes (h : b.Ordered) :
    b.readableBytes.toNat = b.writerIndex.toNat - b.readerIndex.toNat :=
  UInt64.toNat_sub_of_le _ _ (UInt64.le_iff_toNat_le.mpr h.reader_le_writer)

/-- `peek()` and `readableBytes()` lead to `beginWrite()`. -/
theorem peek_add_readableBytes (h : b.Ordered) :
    b.peek + b.readableBytes = b.writerIndex := by
  apply UInt64.toNat_inj.mp
  have hle := h.reader_le_writer
  have hlt := b.writerIndex.toNat_lt
  rw [UInt64.toNat_add, h.toNat_readableBytes, peek]
  omega

/-- The writer index behind readable bytes that are slid to the front. -/
theorem toNat_slid (h : b.Ordered) (hfront : kCheapPrepend.toNat ≤ b.readerIndex.toNat) :
    (kCheapPrepend + b.readableBytes).toNat =
      Buffer.kCheapPrepend + (b.writerIndex.toNat - b.readerIndex.toNat) := by
  have hle := h.reader_le_writer
  have hlt := b.writerIndex.toNat_lt
  rw [toNat_kCheapPrepend] at hfront
  rw [UInt64.toNat_add, h.toNat_readableBytes, toNat_kCheapPrepend]
  omega

/-- `retrieve` moves the reader index towards the writer index. -/
theorem retrieve (h : b.Ordered) {len : UInt64} (hends : Ends (b.retrieve len) b') :
    b'.Ordered := by
  obtain ⟨hlen, hends⟩ := ends_check.mp hends
  cases ends_ok.mp hends
  have hlen := UInt64.le_iff_toNat_le.mp hlen
  have hle := h.reader_le_writer
  have hlt := b.writerIndex.toNat_lt
  rw [h.toNat_readableBytes] at hlen
  refine ⟨?_, h.writer_le_max, h.header_le_writer⟩
  change (b.readerIndex + len).toNat ≤ b.writerIndex.toNat
  rw [UInt64.toNat_add]
  omega

/-- `prepend` moves the reader index towards the front. -/
theorem prepend (h : b.Ordered) {data : Range} (hends : Ends (b.prepend data) b') :
    b'.Ordered := by
  obtain ⟨hlen, hends⟩ := ends_check.mp hends
  obtain ⟨_, _, hends⟩ := ends_access.mp hends
  cases ends_ok.mp hends
  have hle := h.reader_le_writer
  have hsub := UInt64.toNat_sub_of_le _ _ hlen
  refine ⟨?_, h.writer_le_max, h.header_le_writer⟩
  change (b.prependableBytes - data.len).toNat ≤ b.writerIndex.toNat
  rw [hsub, prependableBytes]
  omega

/-- `makeSpace` leaves the indices alone or slides them to the front together. -/
theorem spaced (h : b.Ordered) {len : UInt64} (hspaced : Spaced b len b') : b'.Ordered := by
  cases hspaced with
  | grown v hsize => exact ⟨h.reader_le_writer, h.writer_le_max, h.header_le_writer⟩
  | slid v hfront hsize =>
    have hfront := UInt64.lt_iff_toNat_lt.mp hfront
    have hwriter := h.toNat_slid (Nat.le_of_lt hfront)
    have hle := h.reader_le_writer
    have hmax := h.writer_le_max
    rw [toNat_kCheapPrepend] at hfront
    refine ⟨?_, ?_, ?_⟩
    · change kCheapPrepend.toNat ≤ (kCheapPrepend + b.readableBytes).toNat
      rw [hwriter]
      exact Nat.le_add_right _ _
    · change (kCheapPrepend + b.readableBytes).toNat ≤ M.value
      omega
    · change Buffer.kCheapPrepend ≤ (kCheapPrepend + b.readableBytes).toNat
      omega

/-- `ensureWritableBytes` moves the indices as `makeSpace` does. -/
theorem ensureWritableBytes (h : b.Ordered) {len : UInt64}
    (hends : Ends (b.ensureWritableBytes len) b') : b'.Ordered := by
  rcases ensureWritableBytes_cases hends with
    ⟨_, _, rfl⟩ | ⟨_, ⟨_, rfl, _⟩ | ⟨_, hspaced, _⟩⟩
  · exact h
  · exact h
  · exact h.spaced hspaced

/-- The writer index does not wrap around where the bytes have cells to go to. -/
theorem toNat_written (h : b.Ordered) {v : CharVector M} {bytes : List Byte}
    (hwrite : b.buffer.write b.writerIndex bytes = some v) :
    (b.writerIndex + .ofNat bytes.length).toNat = b.writerIndex.toNat + bytes.length ∧
      b.writerIndex.toNat + bytes.length ≤ max b.writerIndex.toNat b.buffer.cells.length := by
  have hmax := h.writer_le_max
  have hsize := b.buffer.length_le
  have hlt := M.lt
  have hfits : b.writerIndex.toNat + bytes.length ≤
      max b.writerIndex.toNat b.buffer.cells.length := by
    rcases (WordVector.write_cases hwrite).2 with rfl | hfits
    · exact Nat.le_max_left _ _
    · exact Nat.le_trans hfits (Nat.le_max_right _ _)
  have hlen : (UInt64.ofNat bytes.length).toNat = bytes.length :=
    UInt64.toNat_ofNat_of_lt' (by unfold UInt64.size; omega)
  refine ⟨?_, hfits⟩
  rw [UInt64.toNat_add, hlen]
  omega

/-- Bytes written to cells that are there move the writer index to a place that is there. -/
theorem written (h : b.Ordered) {v : CharVector M} {bytes : List Byte}
    (hwrite : b.buffer.write b.writerIndex bytes = some v) :
    Ordered ⟨v, b.readerIndex, b.writerIndex + .ofNat bytes.length⟩ := by
  have hle := h.reader_le_writer
  have hmax := h.writer_le_max
  have hheader := h.header_le_writer
  have hsize := b.buffer.length_le
  obtain ⟨hwriter, hfits⟩ := h.toNat_written hwrite
  refine ⟨?_, ?_, ?_⟩
  · change b.readerIndex.toNat ≤ (b.writerIndex + .ofNat bytes.length).toNat
    omega
  · change (b.writerIndex + .ofNat bytes.length).toNat ≤ M.value
    omega
  · change Buffer.kCheapPrepend ≤ (b.writerIndex + .ofNat bytes.length).toNat
    omega

/-- A read that fills the cells up to the end moves the writer index there. -/
theorem filled (h : b.Ordered) {v : CharVector M} {bytes : List Byte}
    (hn : ¬bytes.length ≤ b.writableBytes.toNat)
    (hwrite : b.buffer.write b.writerIndex (bytes.take b.writableBytes.toNat) = some v) :
    Ordered ⟨v, b.readerIndex, v.size⟩ := by
  have hle := h.reader_le_writer
  have hmax := h.writer_le_max
  have hheader := h.header_le_writer
  have hsize := b.buffer.length_le
  have hlt := M.lt
  obtain ⟨hlength, hcells⟩ := WordVector.write_cases hwrite
  have hwriter : b.writerIndex.toNat ≤ v.cells.length := by
    rcases hcells with hnil | hfits
    · -- Nothing is written only if the writer index is at the end.
      have hzero : b.writableBytes.toNat = 0 := by
        have htake := congrArg List.length hnil
        rw [List.length_take, List.length_nil] at htake
        omega
      rw [writableBytes, UInt64.toNat_sub, CharVector.toNat_size] at hzero
      omega
    · omega
  refine ⟨?_, ?_, ?_⟩
  · change b.readerIndex.toNat ≤ v.size.toNat
    rw [CharVector.toNat_size]
    omega
  · change v.size.toNat ≤ M.value
    rw [CharVector.toNat_size]
    exact v.length_le
  · change Buffer.kCheapPrepend ≤ v.size.toNat
    rw [CharVector.toNat_size]
    omega

/-- `append` moves the writer index behind what it writes. -/
theorem append (h : b.Ordered) {data : Range} (hends : Ends (b.append data) b') :
    b'.Ordered := by
  rcases ends_bind.mp hends with ⟨b₁, hok, hends⟩ | hthrow
  · obtain ⟨v, hwrite, hends⟩ := ends_access.mp hends
    cases ends_ok.mp hends
    exact (h.ensureWritableBytes (.inl hok)).written hwrite
  · exact h.ensureWritableBytes (.inr hthrow)

/-- `readFd` moves the writer index behind what it has read. -/
theorem readFd (h : b.Ordered) {result : ReadResult} (hends : Ends (b.call (.readFd result)) b') :
    b'.Ordered := by
  cases result with
  | failed errno =>
    cases ends_ok.mp hends
    exact h
  | data arrived =>
    rw [call_readFd] at hends
    obtain ⟨v, hwrite, hends⟩ := ends_access.mp hends
    split at hends
    · rename_i hn
      cases ends_ok.mp hends
      rw [List.take_of_length_le hn] at hwrite
      exact h.written hwrite
    · exact (h.filled ‹_› hwrite).append hends

/-- `shrink` leaves the indices alone. -/
theorem shrink (h : b.Ordered) {reserve : UInt64} (hends : Ends (b.shrink reserve) b') :
    b'.Ordered := by
  rcases shrink_cases hends with ⟨_, rfl, _⟩ | ⟨_, _, rfl, _⟩
  · exact h
  · exact ⟨h.reader_le_writer, h.writer_le_max, h.header_le_writer⟩

/-- **Order.** However a call ends, the indices are still in order. -/
theorem call (h : b.Ordered) {c : WordCall} (hends : Ends (b.call c) b') : b'.Ordered := by
  cases c with
  | append data => exact h.append hends
  | prepend data => exact h.prepend hends
  | retrieve len => exact h.retrieve hends
  | retrieveUntil stop =>
    obtain ⟨_, hends⟩ := ends_check.mp hends
    obtain ⟨_, hends⟩ := ends_check.mp hends
    exact h.retrieve hends
  | retrieveAll =>
    cases ends_ok.mp hends
    exact ordered_header b.buffer
  | retrieveAsString =>
    rw [call_retrieveAsString] at hends
    obtain ⟨_, _, hends⟩ := ends_access.mp hends
    cases ends_ok.mp hends
    exact ordered_header b.buffer
  | readFd result => exact h.readFd hends
  | ensureWritableBytes len => exact h.ensureWritableBytes hends
  | shrink reserve => exact h.shrink hends

end Ordered

/-! ### What the calls that move bytes keep -/

/-- The indices are in order, behind the header and inside the storage. -/
structure Stored (b : WordBuffer M) : Prop extends b.Ordered where
  writer_le_size : b.writerIndex.toNat ≤ b.buffer.cells.length

/-- A new buffer is stored. -/
theorem new_stored : (new : WordBuffer M).Stored := ⟨ordered_header _, by
  change 8 ≤ (List.replicate _ _).length
  rw [List.length_replicate]
  decide⟩

end WordBuffer

namespace Buffer

/-- Growing makes room for the dead space, too, but only where it is too short: the storage is at
most twice as large as what it is to hold. -/
theorem Wf.size_makeSpace_le {b b' : Buffer} (h : b.Wf) {len : ℕ} (hok : b.makeSpace len = .ok b') :
    b'.buffer.length ≤ max b.buffer.length (2 * (b.readableBytes + len) + kCheapPrepend) := by
  obtain ⟨hrw, hws⟩ := h
  unfold Buffer.makeSpace at hok
  by_cases hgrow : b.writableBytes + b.prependableBytes < len + kCheapPrepend
  · rw [if_pos hgrow] at hok
    cases hok
    rw [length_resize]
    unfold writableBytes prependableBytes at hgrow
    unfold readableBytes
    omega
  · rw [if_neg hgrow] at hok
    obtain ⟨_, hok⟩ := require_bind_eq_ok.mp hok
    obtain ⟨_, hok⟩ := require_bind_eq_ok.mp hok
    cases hok
    rw [length_copyForward]
    exact Nat.le_max_left _ _

/-- `ensureWritableBytes` grows the storage as `makeSpace` does. -/
theorem Wf.size_ensureWritableBytes_le {b b' : Buffer} (h : b.Wf) {len : ℕ}
    (hok : b.ensureWritableBytes len = .ok b') :
    b'.buffer.length ≤ max b.buffer.length (2 * (b.readableBytes + len) + kCheapPrepend) := by
  unfold Buffer.ensureWritableBytes at hok
  by_cases hlen : b.writableBytes < len
  · rw [if_pos hlen] at hok
    obtain ⟨b₁, hspace, hok⟩ := bind_eq_ok.mp hok
    obtain ⟨_, hok⟩ := require_bind_eq_ok.mp hok
    cases hok
    exact h.size_makeSpace_le hspace
  · rw [if_neg hlen] at hok
    obtain ⟨_, hok⟩ := require_bind_eq_ok.mp hok
    cases hok
    exact Nat.le_max_left _ _

/-- The storage that an `append` leaves is the old one or at most twice as large as what it
holds. -/
theorem Wf.size_append_le {b b' : Buffer} (h : b.Wf) {data : List Byte}
    (hok : b.append data = .ok b') :
    b'.buffer.length ≤ max b.buffer.length (2 * b'.readableBytes + kCheapPrepend) := by
  obtain ⟨_, happend, hwf, hreadable⟩ := h.append data
  cases happend.symm.trans hok
  have hcount := congrArg List.length hreadable
  rw [hwf.length_readable, List.length_append, h.length_readable] at hcount
  obtain ⟨b₁, hensure, hok⟩ := bind_eq_ok.mp hok
  obtain ⟨_, hensure', hwf₁, _, hroom⟩ := h.ensureWritableBytes data.length
  cases hensure'.symm.trans hensure
  cases hok
  have hws := hwf₁.writer_le_size
  unfold writableBytes at hroom
  change (overwrite b₁.buffer b₁.writerIndex data).length ≤ _
  rw [length_overwrite (by omega), hcount]
  exact h.size_ensureWritableBytes_le hensure

end Buffer

namespace WordBuffer

namespace Stored

variable {b b' : WordBuffer M}

/-- A stored buffer stands for a well-formed one. -/
theorem wf (h : b.Stored) : b.toBuffer.Wf := ⟨h.reader_le_writer, h.writer_le_size⟩

/-- The readable bytes are counted by `readableBytes()`. -/
theorem length_readable (h : b.Stored) : b.readable.length = b.readableBytes.toNat := by
  rw [toNat_readableBytes h.wf]
  exact h.wf.length_readable

/-- A buffer in order that stands for a well-formed one is stored. -/
theorem of_wf (h : b.Ordered) (hwf : b.toBuffer.Wf) : b.Stored := ⟨h, hwf.writer_le_size⟩

/-- The size that a step from `b` to `b'` may leave. -/
def Allows (b b' : WordBuffer M) : Prop :=
  b'.buffer.cells.length ≤
    max b.buffer.cells.length (2 * b'.readableBytes.toNat + Buffer.kCheapPrepend)

/-- A step that keeps the size keeps the writer index inside the storage if it keeps it in place. -/
theorem of_size_eq (hordered : b'.Ordered)
    (hsize : b'.buffer.cells.length = b.buffer.cells.length)
    (hwriter : b'.writerIndex.toNat ≤ b.buffer.cells.length) : b'.Stored ∧ Allows b b' := by
  refine ⟨⟨hordered, by omega⟩, ?_⟩
  unfold Allows
  omega

/-- `append` keeps the buffer stored and grows it with measure. -/
theorem append (h : b.Stored) {data : Range} (hends : Ends (b.append data) b') :
    b'.Stored ∧ Allows b b' := by
  have hordered := h.toOrdered.append hends
  rcases append_returns h.wf h.header_le_writer data with hthrow | ⟨b₁, hok, hok'⟩
  · rw [hthrow] at hends
    cases ends_lengthError.mp hends
    exact ⟨h, Nat.le_max_left _ _⟩
  · rw [hok] at hends
    cases ends_ok.mp hends
    obtain ⟨_, happend, hwf, _⟩ := h.wf.append data.bytes
    cases happend.symm.trans hok'
    refine ⟨of_wf hordered hwf, ?_⟩
    have hsize := h.wf.size_append_le hok'
    rw [← toNat_readableBytes hwf] at hsize
    exact hsize

/-- Every call that moves bytes keeps the buffer stored and grows it with measure. -/
theorem call (h : b.Stored) {c : WordCall} (hc : c.MovesBytes) (hends : Ends (b.call c) b') :
    b'.Stored ∧ Allows b b' := by
  have hordered := h.toOrdered.call hends
  have hwriter := h.writer_le_size
  have hheader : kCheapPrepend.toNat ≤ b.buffer.cells.length :=
    Nat.le_trans h.header_le_writer hwriter
  cases c with
  | append data => exact h.append hends
  | prepend data =>
    obtain ⟨_, hends⟩ := ends_check.mp hends
    obtain ⟨v, hv, hends⟩ := ends_access.mp hends
    cases ends_ok.mp hends
    exact of_size_eq hordered (WordVector.write_cases hv).1 hwriter
  | retrieve len =>
    obtain ⟨_, hends⟩ := ends_check.mp hends
    cases ends_ok.mp hends
    exact of_size_eq hordered rfl hwriter
  | retrieveUntil stop =>
    obtain ⟨_, hends⟩ := ends_check.mp hends
    obtain ⟨_, hends⟩ := ends_check.mp hends
    obtain ⟨_, hends⟩ := ends_check.mp hends
    cases ends_ok.mp hends
    exact of_size_eq hordered rfl hwriter
  | retrieveAll =>
    cases ends_ok.mp hends
    exact of_size_eq hordered rfl hheader
  | retrieveAsString =>
    rw [call_retrieveAsString] at hends
    obtain ⟨_, _, hends⟩ := ends_access.mp hends
    cases ends_ok.mp hends
    exact of_size_eq hordered rfl hheader
  | readFd result =>
    cases result with
    | failed errno =>
      cases ends_ok.mp hends
      exact of_size_eq hordered rfl hwriter
    | data arrived =>
      rw [call_readFd] at hends
      obtain ⟨v, hv, hends⟩ := ends_access.mp hends
      have hsize := (WordVector.write_cases hv).1
      split at hends
      · rename_i hn
        cases ends_ok.mp hends
        rw [List.take_of_length_le hn] at hv
        obtain ⟨hindex, hfits⟩ := h.toOrdered.toNat_written hv
        exact of_size_eq hordered hsize (Nat.le_trans (Nat.le_of_eq hindex) (by omega))
      · rename_i hn
        have hfull : Stored ⟨v, b.readerIndex, v.size⟩ :=
          ⟨h.toOrdered.filled hn hv, Nat.le_of_eq (CharVector.toNat_size v)⟩
        obtain ⟨hstored, hallows⟩ := hfull.append hends
        refine ⟨hstored, ?_⟩
        unfold Allows at hallows ⊢
        rwa [← hsize]
  | ensureWritableBytes len => exact hc.elim
  | shrink reserve => exact hc.elim

end Stored

/-- A run of calls that move bytes ends with a stored buffer. -/
theorem stored_of_run {cs : List WordCall} {b : WordBuffer M} (hrun : (byteSystem M).Run new cs b) :
    b.Stored :=
  hrun.invariant new_stored fun h henabled hexec => (h.call henabled.2 (settle_eq_ok.mp hexec)).1

/-- **The storage does not drift.** -/
theorem always_size_le {cs : List WordCall} {largest : ℕ}
    (hlargest : (byteSystem M).Always (fun b => b.readableBytes.toNat ≤ largest) new cs) :
    (byteSystem M).Always (fun b => b.buffer.cells.length ≤
      max (Buffer.kCheapPrepend + Buffer.kInitialSize) (2 * largest + Buffer.kCheapPrepend))
      new cs := by
  intro bs b hbs hrun
  induction hrun with
  | nil =>
    change (List.replicate _ _).length ≤ _
    rw [List.length_replicate]
    exact Nat.le_max_left _ _
  | @snoc bs c b b' hrun henabled hexec ih =>
    have hsize := ih ((List.prefix_append bs [c]).trans hbs)
    have hheld := hlargest _ b' hbs (hrun.snoc henabled hexec)
    have hallows := ((stored_of_run hrun).call henabled.2 (settle_eq_ok.mp hexec)).2
    unfold Stored.Allows at hallows
    omega

/-- A run in which dead space is once reused and once copied along. -/
def growingCalls : List WordCall :=
  [.append (.uniform 1020 1 (by decide)), .retrieve 1015, .append (.uniform 20 2 (by decide)),
    .append (.uniform 2000 3 (by decide))]

/-- In `growingCalls` the buffer holds at most 2025 bytes, and the storage grows. -/
theorem always_size_le_growingCalls : ∃ b, (byteSystem .ptrdiff).Run new growingCalls b ∧
    1032 < b.buffer.cells.length ∧ b.buffer.cells.length ≤ 2 * 2025 + 8 := by
  have hcheck : ((byteSystem .ptrdiff).replay new growingCalls).any
      (fun b => decide (1032 < b.buffer.cells.length)) = true := by
    decide +kernel
  obtain ⟨b, hrun, hb⟩ := System.exists_run_of_replay hcheck
  have hlargest : (byteSystem .ptrdiff).Always (fun b => b.readableBytes.toNat ≤ 2025) new
      growingCalls := by
    have hheld : (byteSystem .ptrdiff).Always
        (fun b => decide (b.readableBytes.toNat ≤ 2025) = true) new growingCalls :=
      System.always_of_replay (by decide +kernel)
    intro bs b hbs hrun
    simpa using hheld bs b hbs hrun
  exact ⟨b, hrun, by simpa using hb, always_size_le hlargest _ b List.prefix_rfl hrun⟩

end WordBuffer

end Dalin.Net
