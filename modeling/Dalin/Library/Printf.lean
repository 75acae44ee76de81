import Mathlib.Algebra.Group.Nat.Defs
import Mathlib.Data.Int.Notation
import Mathlib.Data.List.Basic
import Mathlib.Data.List.Induction

/-!
# Numbers in printed text

Programs print numbers with `printf` into buffers, between separators that are no
digits. This file embeds the conversions for integers and the reading of a number
from the beginning of a text, and proves that the one undoes the other whatever
follows, and how long the text of a number is at most.
-/

set_option autoImplicit false

namespace Printf

/-- `%u`. -/
def unsigned (n : ℕ) : List Char := Nat.toDigits 10 n

/-- `%.ku`: at least `k` digits. -/
def padded (k n : ℕ) : List Char :=
  List.replicate (k - (unsigned n).length) '0' ++ unsigned n

/-- `%.kd`; `%d` is `%.1d`. -/
def signed (k : ℕ) (z : ℤ) : List Char :=
  if z < 0 then '-' :: padded k z.natAbs else padded k z.natAbs

/-- What `snprintf` leaves of a text in a buffer of this size, which ends with a null. -/
def snprintf (size : ℕ) (text : List Char) : List Char := text.take (size - 1)

/-- The number at the beginning of a text, and what follows it. -/
def readUnsigned (text : List Char) : ℕ × List Char :=
  (Nat.ofDigitChars 10 (text.takeWhile Char.isDigit) 0, text.dropWhile Char.isDigit)

/-- The same with a sign. -/
def readSigned : List Char → ℤ × List Char
  | '-' :: text => (-(readUnsigned text).1, (readUnsigned text).2)
  | text => ((readUnsigned text).1, (readUnsigned text).2)

/-- A text up to a separator, and what follows it. -/
def readField (separator : Char) (text : List Char) : List Char × List Char :=
  (text.takeWhile (· ≠ separator), (text.dropWhile (· ≠ separator)).tail)

/-- No digit comes first. -/
def Ends (rest : List Char) : Prop := ∀ c ∈ rest.head?, c.isDigit = false

/-- The end of a text. -/
theorem Ends.nil : Ends [] := by
  intro c hc
  cases hc

/-- A separator. -/
theorem Ends.cons {c : Char} (h : c.isDigit = false) (rest : List Char) : Ends (c :: rest) := by
  intro c' hc'
  cases hc'
  exact h

/-- A number is printed in digits. -/
theorem isDigit_of_mem_padded {k n : ℕ} {c : Char} (h : c ∈ padded k n) : c.isDigit = true := by
  rcases List.mem_append.mp h with hzero | hdigit
  · rw [List.eq_of_mem_replicate hzero]
    rfl
  · exact Nat.isDigit_of_mem_toDigits (by omega) (by omega) hdigit

/-- There is at least one. -/
theorem padded_ne_nil (k n : ℕ) : padded k n ≠ [] := by
  intro h
  exact Nat.toDigits_ne_nil (List.append_eq_nil_iff.mp h).2

/-- Zeros in front do not matter. -/
theorem ofDigitChars_padded (k n : ℕ) : Nat.ofDigitChars 10 (padded k n) 0 = n := by
  unfold padded unsigned
  rw [Nat.ofDigitChars_append, Nat.ofDigitChars_replicate_zero, Nat.mul_zero]
  exact Nat.ofDigitChars_ten_toDigits

/-- **A printed number is read back.** -/
theorem readUnsigned_padded (k n : ℕ) {rest : List Char} (hrest : Ends rest) :
    readUnsigned (padded k n ++ rest) = (n, rest) := by
  have hdigits : ∀ c ∈ padded k n, c.isDigit = true := fun c hc => isDigit_of_mem_padded hc
  have htake : rest.takeWhile Char.isDigit = [] := by
    cases rest with
    | nil => rfl
    | cons c rest => rw [List.takeWhile_cons_of_neg (by simp [hrest c rfl])]
  have hdrop : rest.dropWhile Char.isDigit = rest := by
    cases rest with
    | nil => rfl
    | cons c rest => rw [List.dropWhile_cons_of_neg (by simp [hrest c rfl])]
  unfold readUnsigned
  rw [List.takeWhile_append_of_pos hdigits, List.dropWhile_append_of_pos hdigits, htake, hdrop,
    List.append_nil, ofDigitChars_padded]

/-- Without zeros in front. -/
theorem readUnsigned_unsigned (n : ℕ) {rest : List Char} (hrest : Ends rest) :
    readUnsigned (unsigned n ++ rest) = (n, rest) := by
  have hpadded := readUnsigned_padded 0 n hrest
  unfold padded at hpadded
  rwa [Nat.zero_sub, List.replicate_zero, List.nil_append] at hpadded

/-- A minus sign. -/
theorem readSigned_minus (text : List Char) :
    readSigned ('-' :: text) = (-((readUnsigned text).1 : ℤ), (readUnsigned text).2) := rfl

/-- No minus sign. -/
theorem readSigned_of_ne {c : Char} (hc : c ≠ '-') (text : List Char) :
    readSigned (c :: text) =
      (((readUnsigned (c :: text)).1 : ℤ), (readUnsigned (c :: text)).2) := by
  unfold readSigned
  split
  · rename_i heq
    exact absurd (List.cons.inj heq).1 hc
  · rfl

/-- **A printed number with a sign is read back.** -/
theorem readSigned_signed (k : ℕ) (z : ℤ) {rest : List Char} (hrest : Ends rest) :
    readSigned (signed k z ++ rest) = (z, rest) := by
  have hread := readUnsigned_padded k z.natAbs hrest
  unfold signed
  by_cases hneg : z < 0
  · rw [if_pos hneg, List.cons_append, readSigned_minus, hread]
    refine Prod.ext ?_ rfl
    change -(z.natAbs : ℤ) = z
    omega
  · rw [if_neg hneg]
    obtain ⟨c, text, htext⟩ := List.exists_cons_of_ne_nil (padded_ne_nil k z.natAbs)
    have hdigit : c.isDigit = true := isDigit_of_mem_padded (htext ▸ List.mem_cons_self)
    have hc : c ≠ '-' := by
      rintro rfl
      cases hdigit
    rw [htext, List.cons_append] at hread ⊢
    rw [readSigned_of_ne hc, hread]
    refine Prod.ext ?_ rfl
    change (z.natAbs : ℤ) = z
    omega

/-- `%d` prints a number as Lean does. -/
theorem toList_toString (z : ℤ) : (toString z).toList = signed 1 z := by
  have hone (n : ℕ) : padded 1 n = unsigned n := by
    have hpos : 0 < (unsigned n).length := List.length_pos_iff.mpr Nat.toDigits_ne_nil
    unfold padded
    rw [Nat.sub_eq_zero_of_le hpos, List.replicate_zero, List.nil_append]
  unfold signed
  rw [hone]
  cases z with
  | ofNat n =>
    have hnonneg : ¬Int.ofNat n < 0 := Int.not_lt.mpr (Int.natCast_nonneg n)
    rw [if_neg hnonneg]
    exact Nat.toList_repr
  | negSucc n =>
    rw [if_pos (Int.negSucc_lt_zero n)]
    change ("-" ++ (n + 1).repr).toList = _
    rw [String.toList_append, Nat.toList_repr]
    rfl

/-- A text up to a separator is read back. -/
theorem readField_append {separator : Char} {field : List Char} (h : separator ∉ field)
    (rest : List Char) : readField separator (field ++ separator :: rest) = (field, rest) := by
  have hfield : ∀ c ∈ field, decide (c ≠ separator) = true := by
    intro c hc
    refine decide_eq_true ?_
    rintro rfl
    exact h hc
  unfold readField
  rw [List.takeWhile_append_of_pos hfield, List.dropWhile_append_of_pos hfield,
    List.takeWhile_cons_of_neg (by simp), List.dropWhile_cons_of_neg (by simp), List.append_nil,
    List.tail_cons]

/-- A separator that is no digit is not in a number. -/
theorem not_mem_unsigned {c : Char} (hc : c.isDigit = false) (n : ℕ) : c ∉ unsigned n := by
  intro h
  have hdigit : c.isDigit = true := Nat.isDigit_of_mem_toDigits (by omega) (by omega) h
  cases hc.symm.trans hdigit

/-- The length of a number below a power of ten. -/
theorem length_padded_le {k m n : ℕ} (hm : 0 < m) (hk : k ≤ m) (hn : n < 10 ^ m) :
    (padded k n).length ≤ m := by
  have hlength : (unsigned n).length ≤ m := (Nat.length_toDigits_le_iff (by omega) hm).mpr hn
  unfold padded
  rw [List.length_append, List.length_replicate]
  omega

/-- The length of a number without zeros in front. -/
theorem length_unsigned_le {m n : ℕ} (hm : 0 < m) (hn : n < 10 ^ m) : (unsigned n).length ≤ m :=
  (Nat.length_toDigits_le_iff (by omega) hm).mpr hn

/-- The length with a sign. -/
theorem length_signed_le {k m : ℕ} {z : ℤ} (hm : 0 < m) (hk : k ≤ m) (hz : z.natAbs < 10 ^ m) :
    (signed k z).length ≤ m + 1 := by
  have hlength := length_padded_le hm hk hz
  unfold signed
  split
  · rw [List.length_cons]
    omega
  · omega

/-- A text that fits the buffer is not cut. -/
theorem snprintf_of_length_lt {size : ℕ} {text : List Char} (h : text.length < size) :
    snprintf size text = text := List.take_of_length_le (by omega)

/-! ### Numerals -/

/-- A number in digits, without a zero in front. -/
def Numeral (text : List Char) : Prop :=
  text ≠ [] ∧ text.all Char.isDigit = true ∧ (text.head? = some '0' → text.length = 1)

instance (text : List Char) : Decidable (Numeral text) :=
  inferInstanceAs (Decidable (_ ∧ _ ∧ (_ → _)))

/-- A digit is the text of a number below ten. -/
theorem exists_digitChar {c : Char} (h : c.isDigit = true) : ∃ d < 10, c = Nat.digitChar d := by
  have hrange : 48 ≤ c.toNat ∧ c.toNat ≤ 57 := by
    unfold Char.isDigit at h
    obtain ⟨hlow, hhigh⟩ := Bool.and_eq_true_iff.mp h
    exact ⟨UInt32.le_iff_toNat_le.mp (of_decide_eq_true hlow),
      UInt32.le_iff_toNat_le.mp (of_decide_eq_true hhigh)⟩
  refine ⟨c.toNat - 48, by omega, Char.toNat_inj.mp ?_⟩
  rw [Nat.toNat_digitChar_of_lt_ten (by omega)]
  omega

/-- Only zero is printed with a zero in front. -/
theorem eq_zero_of_head? {n : ℕ} (h : (unsigned n).head? = some '0') : n = 0 := by
  unfold unsigned at h
  induction n using Nat.strongRecOn with
  | ind n ih =>
    by_cases hn : n < 10
    · rw [Nat.toDigits_of_lt_base hn] at h
      exact Nat.digitChar_eq_zero.mp (Option.some.inj h)
    · rw [Nat.toDigits_of_base_le (by omega) (by omega),
        List.head?_append_of_ne_nil _ Nat.toDigits_ne_nil] at h
      have hzero := ih (n / 10) (by omega) h
      omega

/-- A printed number is a numeral. -/
theorem numeral_unsigned (n : ℕ) : Numeral (unsigned n) := by
  refine ⟨Nat.toDigits_ne_nil, ?_, fun hhead => ?_⟩
  · rw [List.all_eq_true]
    exact fun c hc => Nat.isDigit_of_mem_toDigits (by omega) (by omega) hc
  · rw [eq_zero_of_head? hhead]
    rfl

/-- **A numeral is the text of its number.** -/
theorem unsigned_ofDigitChars {text : List Char} (h : Numeral text) :
    unsigned (Nat.ofDigitChars 10 text 0) = text := by
  induction text using List.reverseRecOn with
  | nil => exact absurd rfl h.1
  | append_singleton text c ih =>
    obtain ⟨-, hdigits, hhead⟩ := h
    rw [List.all_append, Bool.and_eq_true_iff] at hdigits
    obtain ⟨d, hd, rfl⟩ := exists_digitChar (c := c) (by simpa using hdigits.2)
    rw [Nat.ofDigitChars_append, Nat.ofDigitChars_cons_digitChar_of_lt_ten hd,
      Nat.ofDigitChars_nil]
    by_cases hnil : text = []
    · subst hnil
      rw [Nat.ofDigitChars_nil, Nat.mul_zero, Nat.zero_add]
      exact Nat.toDigits_of_lt_base hd
    have hnot : text.head? ≠ some '0' := by
      intro hzero
      have hone := hhead (by rw [List.head?_append_of_ne_nil _ hnil, hzero])
      rw [List.length_append, List.length_singleton] at hone
      exact hnil (List.length_eq_zero_iff.mp (by omega))
    have htext := ih ⟨hnil, hdigits.1, fun hzero => absurd hzero hnot⟩
    have hpos : 0 < Nat.ofDigitChars 10 text 0 := by
      refine Nat.pos_of_ne_zero fun hzero => hnot ?_
      rw [← htext, hzero]
      rfl
    unfold unsigned at htext ⊢
    rw [← Nat.toDigits_append_toDigits (by omega) hpos hd, htext, Nat.toDigits_of_lt_base hd]

end Printf
