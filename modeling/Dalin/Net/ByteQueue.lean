import Dalin.Library.Transition
import Dalin.Net.Buffer
import Mathlib.Logic.Function.Basic

/-!
# Buffers as byte queues

A program owns any number of `Buffer`s and calls their operations in any order.
A buffer stands for a queue of bytes: this file gives the queues, the calls on
both sides, and proves that the buffers do to their readable bytes exactly what
the calls do to the queues, that no assertion of the buffer fails on the way, and
that the cheap header survives as long as nothing is prepended.
-/

set_option autoImplicit false

namespace Dalin.Net

open Slice Transition

namespace Buffer

/-! ### Room that an operation leaves -/

/-- `b'` has at least the storage of `b`, and the cheap header if `b` had it. -/
structure Spares (b b' : Buffer) : Prop where
  size_le : b.buffer.length ≤ b'.buffer.length
  header : kCheapPrepend ≤ b.prependableBytes → kCheapPrepend ≤ b'.prependableBytes

/-- An unchanged buffer spares everything. -/
theorem Spares.refl (b : Buffer) : b.Spares b := ⟨Nat.le_refl _, id⟩

/-- `retrieve` only moves the reader index towards the end. -/
theorem spares_retrieve {b b' : Buffer} {len : ℕ} (h : b.retrieve len = .ok b') :
    b.Spares b' := by
  obtain ⟨_, hok⟩ := require_bind_eq_ok.mp h
  cases hok
  refine ⟨Nat.le_refl _, fun hheader => ?_⟩
  exact Nat.le_trans hheader (Nat.le_add_right _ _)

/-- `retrieveUntil` spares what `retrieve` spares. -/
theorem spares_retrieveUntil {b b' : Buffer} {stop : ℕ} (h : b.retrieveUntil stop = .ok b') :
    b.Spares b' := by
  obtain ⟨_, h⟩ := require_bind_eq_ok.mp h
  obtain ⟨_, h⟩ := require_bind_eq_ok.mp h
  exact spares_retrieve h

/-- `retrieveAll` puts the reader index behind the header. -/
theorem spares_retrieveAll (b : Buffer) : b.Spares b.retrieveAll :=
  ⟨Nat.le_refl _, fun _ => Nat.le_refl _⟩

/-- `makeSpace`, called when the room is too short, either grows the storage or
slides the readable bytes down to the header. -/
theorem Wf.spares_makeSpace {b b' : Buffer} (hwf : b.Wf) {len : ℕ}
    (hlen : b.writableBytes < len) (h : b.makeSpace len = .ok b') : b.Spares b' := by
  have hws := hwf.writer_le_size
  unfold Buffer.makeSpace at h
  unfold writableBytes at hlen
  by_cases hgrow : b.writableBytes + b.prependableBytes < len + kCheapPrepend
  · rw [if_pos hgrow] at h
    cases h
    refine ⟨?_, id⟩
    rw [length_resize]
    omega
  · rw [if_neg hgrow] at h
    obtain ⟨_, h⟩ := require_bind_eq_ok.mp h
    obtain ⟨_, h⟩ := require_bind_eq_ok.mp h
    cases h
    refine ⟨?_, fun _ => Nat.le_refl _⟩
    rw [length_copyForward]

/-- `ensureWritableBytes` spares what `makeSpace` spares. -/
theorem Wf.spares_ensureWritableBytes {b b' : Buffer} (hwf : b.Wf) {len : ℕ}
    (h : b.ensureWritableBytes len = .ok b') : b.Spares b' := by
  unfold Buffer.ensureWritableBytes at h
  by_cases hlen : b.writableBytes < len
  · rw [if_pos hlen] at h
    obtain ⟨b₁, hspace, h⟩ := bind_eq_ok.mp h
    obtain ⟨_, hok⟩ := require_bind_eq_ok.mp h
    cases hok
    exact hwf.spares_makeSpace hlen hspace
  · rw [if_neg hlen] at h
    obtain ⟨_, hok⟩ := require_bind_eq_ok.mp h
    cases hok
    exact .refl b

/-- `append` writes into room that `ensureWritableBytes` provides. -/
theorem Wf.spares_append {b b' : Buffer} (hwf : b.Wf) {data : List Byte}
    (h : b.append data = .ok b') : b.Spares b' := by
  obtain ⟨b₁, hensure, hok⟩ := bind_eq_ok.mp h
  cases hok
  have hspares := hwf.spares_ensureWritableBytes hensure
  obtain ⟨b₂, hensure', hwf₁, _, hroom⟩ := hwf.ensureWritableBytes data.length
  rw [hensure] at hensure'
  obtain rfl := Except.ok.inj hensure'
  have hws := hwf₁.writer_le_size
  unfold writableBytes at hroom
  refine ⟨?_, hspares.header⟩
  change b.buffer.length ≤ (overwrite b₁.buffer b₁.writerIndex data).length
  rw [length_overwrite (by omega)]
  exact hspares.size_le

end Buffer

/-! ### The queues and the calls -/

/-- Byte queues, one for each name, and the strings handed out so far. -/
structure ByteQueues (ι : Type*) where
  /-- The bytes of each queue, front first. -/
  queue : ι → List Byte
  /-- The returned strings, oldest first. -/
  returned : List (List Byte)

/-- Buffers, one for each name, and the strings handed out so far. -/
structure Buffers (ι : Type*) where
  /-- The buffer of each name. -/
  buf : ι → Buffer
  /-- The strings `retrieveAsString` has returned, oldest first. -/
  returned : List (List Byte)

/-- A call on the buffers. The argument of `retrieveUntil` is the distance of its
`end` from `peek()`. -/
inductive BufferCall (ι : Type*)
  | append (i : ι) (data : List Byte)
  | prepend (i : ι) (data : List Byte)
  | retrieve (i : ι) (len : ℕ)
  | retrieveUntil (i : ι) (distance : ℕ)
  | retrieveAll (i : ι)
  | retrieveAsString (i : ι)
  | ensureWritableBytes (i : ι) (len : ℕ)
  | swap (i j : ι)

variable {ι : Type*} [DecidableEq ι]

/-- The call puts bytes in front of a buffer. -/
def BufferCall.Prepends : BufferCall ι → Prop
  | .prepend _ _ => True
  | _ => False

/-- Empty queues. -/
def ByteQueues.empty : ByteQueues ι := ⟨fun _ => [], []⟩

/-- What a call means for the queues. -/
def ByteQueues.step (q : ByteQueues ι) : BufferCall ι → ByteQueues ι
  | .append i data => { q with queue := Function.update q.queue i (q.queue i ++ data) }
  | .prepend i data => { q with queue := Function.update q.queue i (data ++ q.queue i) }
  | .retrieve i len => { q with queue := Function.update q.queue i ((q.queue i).drop len) }
  | .retrieveUntil i distance =>
    { q with queue := Function.update q.queue i ((q.queue i).drop distance) }
  | .retrieveAll i => { q with queue := Function.update q.queue i [] }
  | .retrieveAsString i => ⟨Function.update q.queue i [], q.returned ++ [q.queue i]⟩
  | .ensureWritableBytes _ _ => q
  | .swap i j =>
    { q with queue := Function.update (Function.update q.queue i (q.queue j)) j (q.queue i) }

namespace Buffers

/-- New buffers. -/
def new : Buffers ι := ⟨fun _ => .new, []⟩

/-- Replace one buffer. -/
def set (s : Buffers ι) (i : ι) (b : Buffer) : Buffers ι :=
  { s with buf := Function.update s.buf i b }

/-- The queues the buffers stand for. -/
def toByteQueues (s : Buffers ι) : ByteQueues ι := ⟨fun i => (s.buf i).readable, s.returned⟩

/-- The preconditions of the calls. -/
def enabled (s : Buffers ι) : BufferCall ι → Prop
  | .prepend i data => data.length ≤ (s.buf i).prependableBytes
  | .retrieve i len => len ≤ (s.buf i).readableBytes
  | .retrieveUntil i distance => (s.buf i).peek + distance ≤ (s.buf i).beginWrite
  | _ => True

/-- Carry a call out. -/
def exec (s : Buffers ι) : BufferCall ι → Except Failure (Buffers ι)
  | .append i data => ((s.buf i).append data).map (s.set i)
  | .prepend i data => ((s.buf i).prepend data).map (s.set i)
  | .retrieve i len => ((s.buf i).retrieve len).map (s.set i)
  | .retrieveUntil i distance => ((s.buf i).retrieveUntil ((s.buf i).peek + distance)).map (s.set i)
  | .retrieveAll i => .ok (s.set i (s.buf i).retrieveAll)
  | .retrieveAsString i =>
    let (str, b) := (s.buf i).retrieveAsString
    .ok { s.set i b with returned := s.returned ++ [str] }
  | .ensureWritableBytes i len => ((s.buf i).ensureWritableBytes len).map (s.set i)
  | .swap i j =>
    let (b, rhs) := (s.buf i).swap (s.buf j)
    .ok ((s.set i b).set j rhs)

instance (s : Buffers ι) : (a : BufferCall ι) → Decidable (s.enabled a)
  | .prepend _ _ => inferInstanceAs (Decidable (_ ≤ _))
  | .retrieve _ _ => inferInstanceAs (Decidable (_ ≤ _))
  | .retrieveUntil _ _ => inferInstanceAs (Decidable (_ ≤ _))
  | .append _ _ | .retrieveAll _ | .retrieveAsString _ | .ensureWritableBytes _ _ | .swap _ _ =>
    inferInstanceAs (Decidable True)

end Buffers

/-- Buffers under any sequence of calls that meet their preconditions. -/
def bufferSystem (ι : Type*) [DecidableEq ι] : System (Buffers ι) (BufferCall ι) Failure where
  init s := s = Buffers.new
  enabled := Buffers.enabled
  exec := Buffers.exec

instance (s : Buffers ι) (a : BufferCall ι) : Decidable ((bufferSystem ι).enabled s a) :=
  inferInstanceAs (Decidable (s.enabled a))

namespace Buffers

/-- Every buffer is well formed and has storage for the header. -/
def Sound (s : Buffers ι) : Prop :=
  ∀ i, (s.buf i).Wf ∧ Buffer.kCheapPrepend ≤ (s.buf i).buffer.length

/-- Every buffer still has its cheap header. -/
def Headed (s : Buffers ι) : Prop := ∀ i, Buffer.kCheapPrepend ≤ (s.buf i).prependableBytes

omit [DecidableEq ι] in
/-- New buffers are sound. -/
theorem new_sound : (new : Buffers ι).Sound := fun _ => ⟨Buffer.new_wf, by
  simp [new, Buffer.new, Buffer.kCheapPrepend]⟩

omit [DecidableEq ι] in
/-- New buffers stand for empty queues. -/
theorem toByteQueues_new : (new : Buffers ι).toByteQueues = .empty := by
  simp only [toByteQueues, new, Buffer.readable_new]
  rfl

/-- Replacing a buffer replaces the queue it stands for. -/
theorem toByteQueues_set (s : Buffers ι) (i : ι) (b : Buffer) :
    (s.set i b).toByteQueues =
      ⟨Function.update s.toByteQueues.queue i b.readable, s.returned⟩ := by
  have hqueue : (fun k => ((s.set i b).buf k).readable) =
      Function.update s.toByteQueues.queue i b.readable := by
    funext k
    change ((Function.update s.buf i b) k).readable = _
    by_cases hk : k = i
    · subst hk
      rw [Function.update_self, Function.update_self]
    · rw [Function.update_of_ne hk, Function.update_of_ne hk]
      rfl
  exact congrArg (ByteQueues.mk · s.returned) hqueue

/-- A property of every buffer survives the replacement of one by a buffer that has it. -/
theorem forall_set {s : Buffers ι} {i : ι} {b : Buffer} {P : Buffer → Prop}
    (h : ∀ k, P (s.buf k)) (hb : P b) (k : ι) : P ((s.set i b).buf k) := by
  change P (Function.update s.buf i b k)
  by_cases hk : k = i
  · subst hk
    rwa [Function.update_self]
  · rw [Function.update_of_ne hk]
    exact h k

/-- A step that replaces one buffer by a well-formed one which spares the storage keeps the
buffers sound, and the headers too if it spares them. -/
theorem Sound.set {s : Buffers ι} (h : s.Sound) {i : ι} {b : Buffer} (hwf : b.Wf)
    (hsize : (s.buf i).buffer.length ≤ b.buffer.length) : (s.set i b).Sound :=
  forall_set (P := fun b => b.Wf ∧ Buffer.kCheapPrepend ≤ b.buffer.length) h
    ⟨hwf, Nat.le_trans (h i).2 hsize⟩

/-- A replacement that spares the header keeps all headers. -/
theorem Headed.set {s : Buffers ι} (h : s.Headed) {i : ι} {b : Buffer}
    (hspares : (s.buf i).Spares b) : (s.set i b).Headed :=
  forall_set (P := fun b => Buffer.kCheapPrepend ≤ b.prependableBytes) h (hspares.header (h i))

/-- An operation on one buffer that succeeds, keeps it well formed and spares its storage keeps
the buffers sound, and changes the queue of that buffer alone. -/
theorem Sound.replace {s : Buffers ι} (h : s.Sound) {i : ι} {x : Except Failure Buffer}
    {b : Buffer} {q : List Byte} (hok : x = .ok b) (hwf : b.Wf) (hspares : (s.buf i).Spares b)
    (hreadable : b.readable = q) :
    ∃ t, x.map (s.set i) = .ok t ∧ t.Sound ∧
      t.toByteQueues = ⟨Function.update s.toByteQueues.queue i q, s.returned⟩ ∧
      (s.Headed → t.Headed) := by
  refine ⟨s.set i b, by rw [hok]; rfl, h.set hwf hspares.size_le, ?_, fun hheaded =>
    hheaded.set hspares⟩
  rw [toByteQueues_set, hreadable]

/-- What a call does: it succeeds, keeps the buffers sound, acts on the queues as it should,
and spares the headers unless it prepends. -/
theorem Sound.exec {s : Buffers ι} (h : s.Sound) {a : BufferCall ι} (henabled : s.enabled a) :
    ∃ t, s.exec a = .ok t ∧ t.Sound ∧ t.toByteQueues = s.toByteQueues.step a ∧
      (¬a.Prepends → s.Headed → t.Headed) := by
  cases a with
  | append i data =>
    obtain ⟨b, hok, hwf, hreadable⟩ := (h i).1.append data
    obtain ⟨t, ht, hsound, hqueues, hheaded⟩ :=
      h.replace hok hwf ((h i).1.spares_append hok) hreadable
    exact ⟨t, ht, hsound, hqueues, fun _ => hheaded⟩
  | prepend i data =>
    obtain ⟨b, hok, hwf, hreadable, hsize⟩ := (h i).1.prepend henabled
    refine ⟨s.set i b, ?_, h.set hwf (Nat.le_of_eq hsize.symm), ?_, fun hno => absurd trivial hno⟩
    · simp only [Buffers.exec, hok, Except.map]
    · rw [toByteQueues_set, hreadable]
      rfl
  | retrieve i len =>
    obtain ⟨b, hok, hwf, hreadable⟩ := (h i).1.retrieve henabled
    obtain ⟨t, ht, hsound, hqueues, hheaded⟩ :=
      h.replace hok hwf (Buffer.spares_retrieve hok) hreadable
    exact ⟨t, ht, hsound, hqueues, fun _ => hheaded⟩
  | retrieveUntil i distance =>
    obtain ⟨b, hok, hwf, hreadable⟩ := (h i).1.retrieveUntil (Nat.le_add_right _ _) henabled
    rw [Nat.add_sub_cancel_left] at hreadable
    obtain ⟨t, ht, hsound, hqueues, hheaded⟩ :=
      h.replace hok hwf (Buffer.spares_retrieveUntil hok) hreadable
    exact ⟨t, ht, hsound, hqueues, fun _ => hheaded⟩
  | retrieveAll i =>
    obtain ⟨t, ht, hsound, hqueues, hheaded⟩ := h.replace (i := i) rfl ⟨Nat.le_refl _, (h i).2⟩
      (Buffer.spares_retrieveAll (s.buf i)) (Buffer.readable_retrieveAll _)
    exact ⟨t, ht, hsound, hqueues, fun _ => hheaded⟩
  | retrieveAsString i =>
    have hspares := Buffer.spares_retrieveAll (s.buf i)
    have hsound : (s.set i (s.buf i).retrieveAll).Sound :=
      h.set ⟨Nat.le_refl _, (h i).2⟩ hspares.size_le
    have hqueues := toByteQueues_set s i (s.buf i).retrieveAll
    rw [Buffer.readable_retrieveAll] at hqueues
    refine ⟨{ s.set i (s.buf i).retrieveAll with
      returned := s.returned ++ [(s.buf i).readable] }, ?_, hsound, ?_,
      fun _ hheaded => Headed.set hheaded hspares⟩
    · simp only [Buffers.exec, (h i).1.retrieveAsString]
    · exact congrArg (fun q => { q with returned := s.returned ++ [(s.buf i).readable] }) hqueues
  | ensureWritableBytes i len =>
    obtain ⟨b, hok, hwf, hreadable, _⟩ := (h i).1.ensureWritableBytes len
    obtain ⟨t, ht, hsound, hqueues, hheaded⟩ :=
      h.replace hok hwf ((h i).1.spares_ensureWritableBytes hok) hreadable
    refine ⟨t, ht, hsound, ?_, fun _ => hheaded⟩
    rw [hqueues]
    exact congrArg (ByteQueues.mk · s.returned) (Function.update_eq_self i _)
  | swap i j =>
    refine ⟨(s.set i (s.buf j)).set j (s.buf i), rfl, ?_, ?_, fun _ hheaded => ?_⟩
    · exact forall_set (P := fun b => b.Wf ∧ Buffer.kCheapPrepend ≤ b.buffer.length)
        (forall_set (P := fun b => b.Wf ∧ Buffer.kCheapPrepend ≤ b.buffer.length) h (h j)) (h i)
    · rw [toByteQueues_set, toByteQueues_set]
      rfl
    · exact forall_set (P := fun b => Buffer.kCheapPrepend ≤ b.prependableBytes)
        (forall_set (P := fun b => Buffer.kCheapPrepend ≤ b.prependableBytes) hheaded (hheaded j))
        (hheaded i)

/-- **Buffers are byte queues.** -/
theorem refine_byteQueues {as : List (BufferCall ι)} {t : Buffers ι}
    (hrun : (bufferSystem ι).Run new as t) :
    t.toByteQueues = as.foldl ByteQueues.step .empty ∧ (∀ i, (t.buf i).Wf) ∧
      (bufferSystem ι).Safe t ∧
      (∀ i len, ∃ b, (t.buf i).ensureWritableBytes len = .ok b ∧ b.Wf ∧
        b.readable = (t.buf i).readable ∧ len ≤ b.writableBytes) ∧
      (∀ i len, (t.buf i).writableBytes < len → ∃ b, (t.buf i).makeSpace len = .ok b ∧ b.Wf ∧
        b.readable = (t.buf i).readable ∧ len ≤ b.writableBytes) ∧
      ((∀ a ∈ as, ¬a.Prepends) →
        ∀ i, Buffer.kCheapPrepend ≤ (t.buf i).prependableBytes) := by
  have hstep : ∀ {t u : Buffers ι} {a : BufferCall ι}, t.Sound → t.enabled a →
      t.exec a = .ok u → u.Sound ∧ u.toByteQueues = t.toByteQueues.step a ∧
        (¬a.Prepends → t.Headed → u.Headed) := by
    intro t u a hsound henabled hexec
    obtain ⟨v, hv, hrest⟩ := hsound.exec henabled
    rw [hexec] at hv
    exact Except.ok.inj hv ▸ hrest
  have hrefines : t.Sound ∧ t.toByteQueues = as.foldl ByteQueues.step (toByteQueues new) :=
    hrun.refines new_sound fun hsound henabled hexec =>
      ⟨(hstep hsound henabled hexec).1, (hstep hsound henabled hexec).2.1⟩
  obtain ⟨hsound, hqueues⟩ := hrefines
  refine ⟨by rw [hqueues, toByteQueues_new], fun i => (hsound i).1, fun a henabled => ?_,
    fun i len => (hsound i).1.ensureWritableBytes len,
    fun i len hlen => (hsound i).1.makeSpace hlen, fun hno => ?_⟩
  · obtain ⟨u, hu, _⟩ := hsound.exec henabled
    exact ⟨u, hu⟩
  · have hheaded := hrun.history
      (I := fun as s => s.Sound ∧ ((∀ a ∈ as, ¬a.Prepends) → s.Headed))
      ⟨new_sound, fun _ _ => Nat.le_refl _⟩
      (fun hI henabled hexec => by
        obtain ⟨hkept, _, hspared⟩ := hstep hI.1 henabled hexec
        refine ⟨hkept, fun hno => hspared (hno _ (by simp)) (hI.2 fun a ha => hno a ?_)⟩
        exact List.mem_append_left _ ha)
    exact hheaded.2 hno

/-- Two buffers; the first is prepended to the full, filled past its storage, partly read and
exchanged with the other one. -/
def mixedCalls : List (BufferCall Bool) :=
  [.append false [1, 2, 3], .prepend false (List.replicate 8 0), .retrieve false 8,
    .retrieveUntil false 1, .append false (List.replicate 1021 4), .ensureWritableBytes false 5,
    .retrieve false 1020, .append false [5, 6, 7, 8, 9, 10], .swap false true,
    .retrieveAsString true, .retrieveAll false]

/-- The buffers after `mixedCalls` stand for the queues after `mixedCalls`. -/
theorem refine_byteQueues_mixedCalls : ∃ t : Buffers Bool,
    (bufferSystem Bool).Run new mixedCalls t ∧
    t.toByteQueues = mixedCalls.foldl ByteQueues.step .empty ∧
    t.returned = [[4, 4, 4, 5, 6, 7, 8, 9, 10]] := by
  have hcheck : ((bufferSystem Bool).replay new mixedCalls).any (fun t =>
      t.returned == [[4, 4, 4, 5, 6, 7, 8, 9, 10]]) = true := by
    decide +kernel
  obtain ⟨t, hrun, ht⟩ := System.exists_run_of_replay hcheck
  exact ⟨t, hrun, (refine_byteQueues hrun).1, by simpa using ht⟩

end Buffers

end Dalin.Net
