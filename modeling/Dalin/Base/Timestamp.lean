import Dalin.Library.Printf

/-!
# Timestamps in text

`toString` prints a `Timestamp` as seconds and microseconds. Both are rounded
towards zero, so before the epoch each has a sign of its own, and the second
number fills up to six digits. No timestamp is cut by the buffer, and none has the
text of another one.
-/

set_option autoImplicit false

namespace Dalin

open Printf

/-- `INT64_MAX`. -/
def INT64_MAX : ℤ := 9223372036854775807

/-- `Timestamp`. -/
structure Timestamp where
  /-- `microSecondsSinceEpoch_`. -/
  microSecondsSinceEpoch : ℤ
  deriving DecidableEq

namespace Timestamp

/-- `Timestamp::kMicroSecondsPerSecond`. -/
def kMicroSecondsPerSecond : ℤ := 1000 * 1000

/-- `snprintf(buf, sizeof(buf) - 1, "%ld %.06ld", seconds, microseconds)`, without the end. -/
def text (t : Timestamp) : List Char :=
  let seconds := t.microSecondsSinceEpoch.tdiv kMicroSecondsPerSecond
  let microseconds := t.microSecondsSinceEpoch.tmod kMicroSecondsPerSecond
  signed 1 seconds ++ ' ' :: signed 6 microseconds

/-- `Timestamp::toString`. -/
def toString (t : Timestamp) : List Char := snprintf 31 t.text

/-- The timestamp of a text. -/
def ofString (text : List Char) : Timestamp :=
  let seconds := readSigned text
  ⟨seconds.1 * kMicroSecondsPerSecond + (readSigned seconds.2.tail).1⟩

/-- The longest text is that of the first representable timestamp. -/
theorem length_text_le {t : Timestamp}
    (h : t.microSecondsSinceEpoch.natAbs ≤ INT64_MAX.natAbs + 1) : t.text.length ≤ 22 := by
  have hmax : INT64_MAX.natAbs = 9223372036854775807 := rfl
  have hseconds : (t.microSecondsSinceEpoch.tdiv kMicroSecondsPerSecond).natAbs < 10 ^ 13 := by
    rw [Int.natAbs_tdiv]
    change t.microSecondsSinceEpoch.natAbs / 1000000 < 10000000000000
    omega
  have hmicroseconds : (t.microSecondsSinceEpoch.tmod kMicroSecondsPerSecond).natAbs < 10 ^ 6 := by
    rw [Int.natAbs_tmod]
    exact Nat.mod_lt _ (by decide)
  have hfirst := length_signed_le (k := 1) (by omega) (by omega) hseconds
  have hsecond := length_signed_le (k := 6) (by omega) (Nat.le_refl 6) hmicroseconds
  unfold text
  rw [List.length_append, List.length_cons]
  omega

/-- **Timestamps are read back.** The text of every representable timestamp fits the buffer and
determines the timestamp. -/
theorem ofString_toString (t : Timestamp) (hmin : -INT64_MAX - 1 ≤ t.microSecondsSinceEpoch)
    (hmax : t.microSecondsSinceEpoch ≤ INT64_MAX) :
    t.toString = t.text ∧ ofString t.toString = t := by
  have hvalue : INT64_MAX = 9223372036854775807 := rfl
  have hlength : t.text.length ≤ 22 := by
    refine length_text_le ?_
    rw [hvalue] at hmin hmax ⊢
    omega
  have hwhole : t.toString = t.text := snprintf_of_length_lt (by omega)
  refine ⟨hwhole, ?_⟩
  rw [hwhole]
  unfold ofString text
  have hmicroseconds := readSigned_signed 6
    (t.microSecondsSinceEpoch.tmod kMicroSecondsPerSecond) Ends.nil
  rw [List.append_nil] at hmicroseconds
  rw [readSigned_signed _ _ (Ends.cons rfl _)]
  change Timestamp.mk (_ * kMicroSecondsPerSecond + (readSigned (signed 6 _)).1) = t
  rw [hmicroseconds, Int.mul_comm, Int.mul_tdiv_add_tmod]

/-- Half a second before the epoch, only the second number has a sign. -/
theorem ofString_toString_beforeEpoch :
    (Timestamp.mk (-500000)).toString = "0 -500000".toList ∧
      ofString (Timestamp.mk (-500000)).toString = ⟨-500000⟩ :=
  ⟨by decide, (ofString_toString ⟨-500000⟩ (by decide) (by decide)).2⟩

end Timestamp

end Dalin
