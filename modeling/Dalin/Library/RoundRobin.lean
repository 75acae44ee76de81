import Mathlib.Data.Int.CardIntervalMod

/-!
# Taking turns

A pointer that goes through the slots `0, …, n - 1` and starts again after the
last one serves the slots in turn. After any number of turns every slot has been
served equally often, up to one turn.
-/

set_option autoImplicit false

namespace RoundRobin

variable {n i : ℕ}

/-- The slot after `i`. -/
def advance (n i : ℕ) : ℕ := if n ≤ i + 1 then 0 else i + 1

/-- The pointer counts the turns modulo the number of slots. -/
theorem advance_mod (hn : 0 < n) (k : ℕ) : advance n (k % n) = (k + 1) % n := by
  have hlt := Nat.mod_lt k hn
  rw [← Nat.mod_add_mod k n 1]
  unfold advance
  split
  · have hwrap : k % n + 1 = n := by omega
    rw [hwrap, Nat.mod_self]
  · exact (Nat.mod_eq_of_lt (by omega)).symm

/-- The slots of the first turns. -/
def turns (n m : ℕ) : List ℕ := (List.range m).map (· % n)

/-- There are as many turns as calls. -/
@[simp] theorem length_turns (n m : ℕ) : (turns n m).length = m := by simp [turns]

/-- How often a slot has been served. -/
theorem count_turns (hn : 0 < n) (hi : i < n) (m : ℕ) :
    (turns n m).count i = m / n + if i < m % n then 1 else 0 := by
  have hcount := Nat.count_modEq_card m hn i
  rw [Nat.mod_eq_of_lt hi] at hcount
  rw [← hcount, Nat.count_eq_card_filter_range, turns, List.count_eq_countP, List.countP_map]
  have hcard : (Finset.range m).filter (· ≡ i [MOD n]) =
      ((List.range m).filter fun k => k % n == i).toFinset := by
    ext k
    simp [Nat.ModEq, Nat.mod_eq_of_lt hi]
  rw [hcard, List.toFinset_card_of_nodup (List.nodup_range.filter _),
    ← List.countP_eq_length_filter]
  rfl

/-- No slot is served twice more than another. -/
theorem count_turns_le (hn : 0 < n) (hi : i < n) {j : ℕ} (hj : j < n) (m : ℕ) :
    (turns n m).count i ≤ (turns n m).count j + 1 := by
  rw [count_turns hn hi, count_turns hn hj]
  split <;> split <;> omega

end RoundRobin
