import Mathlib.Data.UInt
import Dalin.Net.WordBufferRun

/-!
# Room for any length

`ensureWritableBytes` takes any `size_t`. Two of its sums can wrap around: the
one it tests and the one it resizes to. This file proves that a call is safe
exactly if the writer index is inside the storage and its sum with the length
does not wrap around, and that the writer index stays inside the storage in
exactly those runs whose earlier calls were of that kind and whose calls of
`shrink` left the writer index room.
-/

set_option autoImplicit false

namespace Dalin.Net

open Slice Transition

variable {M : MaxSize}

namespace WordBuffer

/-- `b'` holds the bytes of `b`, with its indices in order and inside the storage and with room
for `len` bytes, where the difference is one of natural numbers. -/
structure Roomy (b b' : WordBuffer M) (len : UInt64) : Prop where
  reader_le_writer : b'.readerIndex ≤ b'.writerIndex
  writer_le_size : b'.writerIndex ≤ b'.buffer.size
  readable_eq : b'.readable = b.readable
  len_le : len.toNat ≤ b'.buffer.cells.length - b'.writerIndex.toNat

/-- `ensureWritableBytes(len)` throws and leaves the buffer unchanged, or returns with the room
asked for. -/
def RoomSafe (b : WordBuffer M) (len : UInt64) : Prop :=
  b.ensureWritableBytes len = .error (.lengthError b) ∨
    ∃ b', b.ensureWritableBytes len = .ok b' ∧ Roomy b b' len

/-- The step leaves the writer index inside the storage: the sum of an `ensureWritableBytes` does
not wrap around, and the new size of a `shrink` covers the writer index or is too large. -/
def InBounds (b : WordBuffer M) : WordCall → Prop
  | .ensureWritableBytes len => b.writerIndex.toNat + len.toNat < 2 ^ 64
  | .shrink reserve =>
    M.value < (b.newSize reserve).toNat ∨ b.writerIndex ≤ b.newSize reserve
  | _ => True

instance (b : WordBuffer M) : (c : WordCall) → Decidable (b.InBounds c)
  | .ensureWritableBytes _ => inferInstanceAs (Decidable (_ < _))
  | .shrink _ => inferInstanceAs (Decidable (_ ∨ _))
  | .append _ | .prepend _ | .retrieve _ | .retrieveUntil _ | .retrieveAll | .retrieveAsString
  | .readFd _ => inferInstanceAs (Decidable True)

instance (b : WordBuffer M) (c : WordCall) :
    Decidable (((wordSystem M).restrict InBounds).enabled b c) :=
  inferInstanceAs (Decidable (True ∧ b.InBounds c))

variable {b b' : WordBuffer M}

/-- `writableBytes`, which wraps around where the writer index is outside the storage. -/
theorem toNat_writableBytes_mod (b : WordBuffer M) :
    b.writableBytes.toNat =
      (2 ^ 64 - b.writerIndex.toNat + b.buffer.cells.length) % 2 ^ 64 := by
  rw [writableBytes, UInt64.toNat_sub, CharVector.toNat_size]

/-- A safe call finds the writer index inside the storage and does not wrap around. -/
theorem Ordered.of_roomSafe (h : b.Ordered) {len : UInt64} (hsafe : RoomSafe b len) :
    b.writerIndex ≤ b.buffer.size ∧ b.writerIndex.toNat + len.toNat < 2 ^ 64 := by
  rw [UInt64.le_iff_toNat_le, CharVector.toNat_size]
  have hM := M.lt
  have hmax := h.writer_le_max
  have hsize := b.buffer.length_le
  have hwritable := toNat_writableBytes_mod b
  have hsum := UInt64.toNat_add b.writerIndex len
  have hlen := len.toNat_lt
  rcases hsafe with hthrow | ⟨b', hok, hroomy⟩
  · rcases ensureWritableBytes_cases (.inr hthrow) with
      ⟨_, hok, _⟩ | ⟨hshort, ⟨_, _, hlarge⟩ | ⟨hok, _⟩⟩
    · rw [hthrow] at hok
      cases hok
    · rw [UInt64.lt_iff_toNat_lt] at hshort
      omega
    · rw [hthrow] at hok
      cases hok
  · have hwriter := UInt64.le_iff_toNat_le.mp hroomy.writer_le_size
    have hroom := hroomy.len_le
    rw [CharVector.toNat_size] at hwriter
    rcases ensureWritableBytes_cases (.inl hok) with
      ⟨_, _, rfl⟩ | ⟨hshort, ⟨hthrow, _⟩ | ⟨_, hspaced, _⟩⟩
    · omega
    · rw [hok] at hthrow
      cases hthrow
    · rw [UInt64.lt_iff_toNat_lt] at hshort
      cases hspaced with
      | grown v hgrown =>
        change b.writerIndex.toNat ≤ v.cells.length at hwriter
        change len.toNat ≤ v.cells.length - b.writerIndex.toNat at hroom
        omega
      | slid v hfront hslid =>
        change len.toNat ≤ v.cells.length - _ at hroom
        omega

/-- Where the writer index is inside the storage and its sum with `len` does not wrap around, the
call is safe. -/
theorem Stored.roomSafe (h : b.Stored) {len : UInt64}
    (hsum : b.writerIndex.toNat + len.toNat < 2 ^ 64) : RoomSafe b len := by
  rcases ensureWritableBytes_returns h.wf h.header_le_writer hsum with hthrow | ⟨b', hok, hok'⟩
  · exact .inl hthrow
  · obtain ⟨_, hensure, hwf, hreadable, hroom⟩ := h.wf.ensureWritableBytes len.toNat
    cases hensure.symm.trans hok'
    refine .inr ⟨b', hok, UInt64.le_iff_toNat_le.mpr hwf.reader_le_writer, ?_, hreadable, hroom⟩
    rw [UInt64.le_iff_toNat_le, CharVector.toNat_size]
    exact hwf.writer_le_size

/-- A step in bounds keeps the writer index inside the storage. -/
theorem Stored.call_of_inBounds (h : b.Stored) {c : WordCall} (hc : InBounds b c)
    (hends : Ends (b.call c) b') : b'.Stored := by
  by_cases hmoves : c.MovesBytes
  · exact (h.call hmoves hends).1
  · have hordered := h.toOrdered.call hends
    cases c with
    | ensureWritableBytes len =>
      rcases h.roomSafe hc with hthrow | ⟨b₁, hok, hroomy⟩
      · change Ends (b.ensureWritableBytes len) b' at hends
        rw [hthrow] at hends
        cases ends_lengthError.mp hends
        exact h
      · change Ends (b.ensureWritableBytes len) b' at hends
        rw [hok] at hends
        cases ends_ok.mp hends
        have hwriter := UInt64.le_iff_toNat_le.mp hroomy.writer_le_size
        rw [CharVector.toNat_size] at hwriter
        exact ⟨hordered, hwriter⟩
    | shrink reserve =>
      rcases shrink_cases hends with ⟨_, rfl, _⟩ | ⟨hmax, v, rfl, hsize⟩
      · exact h
      · rcases hc with hlarge | hwriter
        · omega
        · refine ⟨hordered, ?_⟩
          rw [hsize]
          exact UInt64.le_iff_toNat_le.mp hwriter
    | _ => exact absurd trivial hmoves

/-- A step that keeps the writer index inside the storage is in bounds. -/
theorem Stored.inBounds (h : b.Stored) {c : WordCall} (hends : Ends (b.call c) b')
    (hwriter : b'.writerIndex ≤ b'.buffer.size) : InBounds b c := by
  rw [UInt64.le_iff_toNat_le, CharVector.toNat_size] at hwriter
  cases c with
  | ensureWritableBytes len =>
    have hM := M.lt
    have hmax := h.writer_le_max
    have hinside := h.writer_le_size
    have hsize := b.buffer.length_le
    have hwritable := toNat_writableBytes_mod b
    have hsum := UInt64.toNat_add b.writerIndex len
    have hlen := len.toNat_lt
    change b.writerIndex.toNat + len.toNat < 2 ^ 64
    rcases ensureWritableBytes_cases hends with
      ⟨hroom, _⟩ | ⟨hshort, ⟨_, _, hlarge⟩ | ⟨_, hspaced, hroom⟩⟩
    · rw [UInt64.le_iff_toNat_le] at hroom
      omega
    · omega
    · cases hspaced with
      | grown v hgrown =>
        change b.writerIndex.toNat ≤ v.cells.length at hwriter
        omega
      | slid v hfront hslid =>
        have hslide := toNat_writableBytes_mod ⟨v, kCheapPrepend, kCheapPrepend + b.readableBytes⟩
        rw [UInt64.le_iff_toNat_le, hslide] at hroom
        change (kCheapPrepend + b.readableBytes).toNat ≤ v.cells.length at hwriter
        change len.toNat ≤
          (2 ^ 64 - (kCheapPrepend + b.readableBytes).toNat + v.cells.length) % 2 ^ 64 at hroom
        omega
  | shrink reserve =>
    rcases shrink_cases hends with ⟨_, rfl, hlarge⟩ | ⟨_, v, rfl, hsize⟩
    · exact .inl hlarge
    · right
      rw [UInt64.le_iff_toNat_le, ← hsize]
      exact hwriter
  | _ => trivial

/-- **Room for any length.** In every buffer that calls bring about, a call of
`ensureWritableBytes` is safe exactly if the writer index is inside the storage and its sum with
the length does not wrap around; and the calls without such a wrap are safe in all states of a run
exactly if all its steps are in bounds. -/
theorem ensureWritableBytes_safe_iff {cs : List WordCall} {b : WordBuffer M}
    (hrun : (wordSystem M).Run new cs b) :
    (∀ len, RoomSafe b len ↔
      b.writerIndex ≤ b.buffer.size ∧ b.writerIndex.toNat + len.toNat < 2 ^ 64) ∧
    ((wordSystem M).Always (fun b => ∀ len : UInt64, b.writerIndex.toNat + len.toNat < 2 ^ 64 →
        RoomSafe b len) new cs ↔
      (wordSystem M).Throughout InBounds new cs) := by
  constructor
  · have hordered : b.Ordered :=
      hrun.invariant (ordered_header _) fun h _ hexec => h.call (settle_eq_ok.mp hexec)
    intro len
    refine ⟨hordered.of_roomSafe, fun ⟨hwriter, hsum⟩ => ?_⟩
    rw [UInt64.le_iff_toNat_le, CharVector.toNat_size] at hwriter
    exact Stored.roomSafe ⟨hordered, hwriter⟩ hsum
  · refine hrun.always_iff_throughout_of_keeps (I := Stored) new_stored
      (fun h len hsum => h.roomSafe hsum)
      (fun h _ hexec hbounds => h.call_of_inBounds hbounds (settle_eq_ok.mp hexec)) ?_
    intro b c b' h _ hexec hsafe
    have hends := settle_eq_ok.mp hexec
    have hsafe₀ := hsafe 0 b'.writerIndex.toNat_lt
    exact h.inBounds hends ((h.toOrdered.call hends).of_roomSafe hsafe₀).1

/-- Some bytes come and go, and there is room for more. -/
def comeAndGo : List WordCall :=
  [.append ⟨[1, 2, 3], by decide⟩, .retrieve 2, .ensureWritableBytes 5]

/-- After them the largest sum that does not wrap around is refused, and the buffer is as before;
all calls are in bounds, so that every state of the run is safe. -/
theorem ensureWritableBytes_safe_iff_new :
    ∃ b : WordBuffer .ptrdiff, (wordSystem .ptrdiff).Run new comeAndGo b ∧ b.readable = [3] ∧
      RoomSafe b (2 ^ 64 - 12) ∧
      (wordSystem .ptrdiff).Always (fun b => ∀ len : UInt64,
        b.writerIndex.toNat + len.toNat < 2 ^ 64 → RoomSafe b len) new comeAndGo := by
  have hcheck : (((wordSystem .ptrdiff).restrict InBounds).replay new comeAndGo).any (fun b =>
      decide (b.readable = [3] ∧ b.writerIndex = 11 ∧ 11 ≤ b.buffer.size)) = true := by
    decide +kernel
  obtain ⟨b, hrestricted, hb⟩ := System.exists_run_of_replay hcheck
  obtain ⟨hrun, hthroughout⟩ := hrestricted.throughout_of_restrict
  obtain ⟨hreadable, hwriter, hsize⟩ := of_decide_eq_true hb
  obtain ⟨hroom, hall⟩ := ensureWritableBytes_safe_iff hrun
  refine ⟨b, hrun, hreadable, (hroom _).mpr ?_, hall.mpr hthroughout⟩
  rw [hwriter]
  exact ⟨hsize, by decide +kernel⟩

/-- The sums that wrap around: in a new buffer an assertion of `makeSpace` fails; and after one
byte has been appended, the storage is resized to nothing, no assertion fails, and the call returns
with the writer index outside the storage. -/
theorem ensureWritableBytes_wraps :
    ((new : WordBuffer .ptrdiff).ensureWritableBytes (2 ^ 64 - 8) =
        .error (.assertion "kCheapPrepend < readerIndex_") ∧
      ¬RoomSafe (new : WordBuffer .ptrdiff) (2 ^ 64 - 8)) ∧
    ∃ b : WordBuffer .ptrdiff, (wordSystem .ptrdiff).Reachable b ∧ b.readable = [1] ∧
      ¬RoomSafe b (2 ^ 64 - 9) ∧ ∃ b', b.ensureWritableBytes (2 ^ 64 - 9) = .ok b' ∧
        b'.readable = [] ∧ b'.buffer.size < b'.writerIndex := by
  constructor
  · have hfails : (new : WordBuffer .ptrdiff).ensureWritableBytes (2 ^ 64 - 8) =
        .error (.assertion "kCheapPrepend < readerIndex_") := by
      decide +kernel
    refine ⟨hfails, fun hsafe => ?_⟩
    rcases hsafe with hthrow | ⟨_, hok, _⟩
    · rw [hfails] at hthrow
      cases hthrow
    · rw [hfails] at hok
      cases hok
  · have hcheck : ((wordSystem .ptrdiff).replay new [.append ⟨[1], by decide⟩]).any (fun b =>
        b.readable == [1] && (b.ensureWritableBytes (2 ^ 64 - 9)).toOption.any fun b' =>
          b'.readable == [] && decide (b'.buffer.size < b'.writerIndex)) = true := by
      decide +kernel
    obtain ⟨b, hrun, hb⟩ := System.exists_run_of_replay hcheck
    simp only [Bool.and_eq_true, beq_iff_eq] at hb
    obtain ⟨hreadable, hb⟩ := hb
    obtain ⟨b', hok, hb'⟩ := exists_ok_of_any hb
    simp only [Bool.and_eq_true, beq_iff_eq, decide_eq_true_eq] at hb'
    refine ⟨b, ⟨_, _, rfl, hrun⟩, hreadable, fun hsafe => ?_, b', hok, hb'⟩
    rcases hsafe with hthrow | ⟨_, hok', hroomy⟩
    · rw [hok] at hthrow
      cases hthrow
    · cases hok.symm.trans hok'
      have hsame := hroomy.readable_eq
      rw [hb'.1, hreadable] at hsame
      cases hsame

end WordBuffer

end Dalin.Net
