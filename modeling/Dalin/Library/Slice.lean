import Mathlib.Data.List.Basic
import Mathlib.Data.List.Perm.Basic

/-!
# Slices of a growable array

A growable array is modelled by the list of its cells. This file defines the
operations programs perform on such an array (resize, overwrite a range from
outside, copy a range forward inside the array, remove a cell by swapping it
with the last one) and states what each one does to the cells.
-/

set_option autoImplicit false

namespace Slice

variable {α : Type*}

/-- The cells with index at least `i` and below `j`. -/
def slice (l : List α) (i j : ℕ) : List α := (l.take j).drop i

/-- Change the size to `n`: surplus cells are dropped, new cells hold `x`. -/
def resize (l : List α) (n : ℕ) (x : α) : List α := l.take n ++ List.replicate (n - l.length) x

/-- Write the cells of `d` over those of `l`, beginning at index `i`. -/
def overwrite (l : List α) (i : ℕ) (d : List α) : List α :=
  l.take i ++ d ++ l.drop (i + d.length)

/-- Copy `n` cells beginning at `src` to `dst`, one cell at a time and in
increasing order, so the two ranges may overlap. -/
def copyForward (l : List α) (src dst : ℕ) : ℕ → List α
  | 0 => l
  | n + 1 =>
    match l[src]? with
    | some x => copyForward (l.set dst x) (src + 1) (dst + 1) n
    | none => l

/-- Swap the cell at `i` with the last one, then drop the last cell. -/
def swapPop (l : List α) (i : ℕ) : List α :=
  match l[i]?, l[l.length - 1]? with
  | some x, some back => ((l.set i back).set (l.length - 1) x).dropLast
  | _, _ => l

/-- A cell of a slice is a cell of the array within the bounds. -/
theorem getElem?_slice (l : List α) (i j k : ℕ) :
    (slice l i j)[k]? = if i + k < j then l[i + k]? else none := by
  simp only [slice, List.getElem?_drop, List.getElem?_take]

/-- A slice within the array has as many cells as its bounds say. -/
theorem length_slice {l : List α} {i j : ℕ} (hj : j ≤ l.length) : (slice l i j).length = j - i := by
  simp [slice, Nat.min_eq_left hj]

/-- The slice between equal bounds is empty. -/
@[simp] theorem slice_self (l : List α) (i : ℕ) : slice l i i = [] := by
  simp [slice]

/-- Raising the lower bound drops cells from the front. -/
theorem drop_slice (l : List α) (i j k : ℕ) : (slice l i j).drop k = slice l (i + k) j := by
  simp only [slice, List.drop_drop]

/-- Two adjacent slices make one. -/
theorem slice_append_slice {l : List α} {i j k : ℕ} (hij : i ≤ j) (hjk : j ≤ k)
    (hk : k ≤ l.length) : slice l i j ++ slice l j k = slice l i k := by
  apply List.ext_getElem?
  intro m
  rw [List.getElem?_append, length_slice (by omega), getElem?_slice, getElem?_slice, getElem?_slice]
  grind

/-- The first cells of a slice are a slice. -/
theorem take_slice (l : List α) {i j n : ℕ} (h : i + n ≤ j) :
    (slice l i j).take n = slice l i (i + n) := by
  apply List.ext_getElem?
  intro m
  rw [List.getElem?_take, getElem?_slice, getElem?_slice]
  by_cases hm : m < n
  · rw [if_pos hm, if_pos (by omega), if_pos (by omega)]
  · rw [if_neg hm, if_neg (by omega)]

/-- A slice of equal cells. -/
theorem slice_replicate {i j n : ℕ} (x : α) (h : j ≤ n) :
    slice (List.replicate n x) i j = List.replicate (j - i) x := by
  rw [slice, List.take_replicate, List.drop_replicate, Nat.min_eq_left h]

/-- Cells that do not change when they are shifted behind cells that hold `x` all hold `x`. -/
theorem take_replicate_append_eq_self_iff {d : List α} {x : α} {n : ℕ} (hn : 0 < n) :
    (List.replicate n x ++ d).take d.length = d ↔ ∀ y ∈ d, y = x := by
  constructor
  · intro hshift
    have hcell : ∀ (k : ℕ) (y : α), d[k]? = some y → y = x := by
      intro k
      induction k using Nat.strongRecOn with
      | ind k ih =>
        intro y hy
        have hk := (List.getElem?_eq_some_iff.mp hy).1
        have hshifted := congrArg (fun l : List α => l[k]?) hshift
        simp only [List.getElem?_take, if_pos hk, List.getElem?_append, List.length_replicate,
          List.getElem?_replicate] at hshifted
        by_cases hfront : k < n
        · rw [if_pos hfront, if_pos hfront, hy] at hshifted
          exact (Option.some.inj hshifted).symm
        · rw [if_neg hfront, hy] at hshifted
          exact ih (k - n) (by omega) y hshifted
    intro y hy
    obtain ⟨k, hk⟩ := List.mem_iff_getElem?.mp hy
    exact hcell k y hk
  · intro hall
    rw [List.eq_replicate_iff.mpr ⟨rfl, hall⟩, List.replicate_append_replicate,
      List.take_replicate, List.length_replicate, Nat.min_eq_left (Nat.le_add_left _ _)]

/-- The new length is the one asked for. -/
@[simp] theorem length_resize (l : List α) (n : ℕ) (x : α) : (resize l n x).length = n := by
  simp only [resize, List.length_append, List.length_take, List.length_replicate]
  omega

/-- Resizing changes no cell that lies in both the old and the new array. -/
theorem slice_resize {l : List α} {i j n : ℕ} (x : α) (hl : j ≤ l.length) (hn : j ≤ n) :
    slice (resize l n x) i j = slice l i j := by
  apply List.ext_getElem?
  intro m
  rw [getElem?_slice, getElem?_slice]
  split
  · rw [resize, List.getElem?_append_left (by simp only [List.length_take]; omega),
      List.getElem?_take_of_lt (by omega)]
  · rfl

/-- Overwriting nothing changes nothing. -/
@[simp] theorem overwrite_nil (l : List α) (i : ℕ) : overwrite l i [] = l := by
  simp [overwrite]

/-- Overwriting inside the array keeps its size. -/
theorem length_overwrite {l : List α} {i : ℕ} {d : List α} (h : i + d.length ≤ l.length) :
    (overwrite l i d).length = l.length := by
  simp only [overwrite, List.length_append, List.length_take, List.length_drop]
  omega

/-- Overwriting leaves the cells before the written range alone. -/
theorem slice_overwrite_left {l : List α} {i j k : ℕ} {d : List α} (hj : j ≤ k)
    (hk : k ≤ l.length) : slice (overwrite l k d) i j = slice l i j := by
  apply List.ext_getElem?
  intro m
  rw [getElem?_slice, getElem?_slice]
  split
  · rw [overwrite, List.append_assoc,
      List.getElem?_append_left (by simp only [List.length_take]; omega),
      List.getElem?_take_of_lt (by omega)]
  · rfl

/-- The written range of an overwrite holds the written cells. -/
theorem slice_overwrite_self {l : List α} {k : ℕ} {d : List α} (hk : k ≤ l.length) :
    slice (overwrite l k d) k (k + d.length) = d := by
  have htake : (l.take k).length = k := by simp [Nat.min_eq_left hk]
  rw [slice, overwrite, List.take_append_of_le_length (by simp [htake]),
    List.take_of_length_le (by simp [htake]), List.drop_append_of_le_length (by omega),
    List.drop_eq_nil_of_le (by omega), List.nil_append]

/-- Writing right behind a slice appends to it. -/
theorem slice_overwrite_append {l : List α} {i k : ℕ} {d : List α} (hi : i ≤ k)
    (hk : k + d.length ≤ l.length) :
    slice (overwrite l k d) i (k + d.length) = slice l i k ++ d := by
  rw [← slice_append_slice hi (Nat.le_add_right k d.length) (by rwa [length_overwrite hk]),
    slice_overwrite_left (Nat.le_refl k) (by omega), slice_overwrite_self (by omega)]

/-- A slice that begins in front of the cells written into an array of equal cells. -/
theorem slice_overwrite_replicate {x : α} {i k n : ℕ} {d : List α} (hi : i ≤ k)
    (hn : k + d.length ≤ n) :
    slice (overwrite (List.replicate n x) k d) i (i + d.length) =
      (List.replicate (k - i) x ++ d).take d.length := by
  have hfits : k + d.length ≤ (List.replicate n x).length := by rwa [List.length_replicate]
  rw [← take_slice _ (show i + d.length ≤ k + d.length by omega),
    slice_overwrite_append hi hfits, slice_replicate x (by omega)]

/-- Overwriting leaves the cells behind the written range alone. -/
theorem slice_overwrite_right {l : List α} {i j k : ℕ} {d : List α} (hi : k + d.length ≤ i)
    (hk : k + d.length ≤ l.length) : slice (overwrite l k d) i j = slice l i j := by
  apply List.ext_getElem?
  intro m
  rw [getElem?_slice, getElem?_slice]
  split
  · have htake : (l.take k).length = k := by simp [show k ≤ l.length by omega]
    rw [overwrite, List.getElem?_append_right (by simp only [List.length_append, htake]; omega),
      List.getElem?_drop]
    congr 1
    rw [List.length_append, htake]
    omega
  · rfl

/-- Writing right in front of a slice prepends to it. -/
theorem slice_overwrite_prepend {l : List α} {j k : ℕ} {d : List α} (hj : k + d.length ≤ j)
    (hl : j ≤ l.length) :
    slice (overwrite l k d) k j = d ++ slice l (k + d.length) j := by
  have hk : k + d.length ≤ l.length := Nat.le_trans hj hl
  rw [← slice_append_slice (Nat.le_add_right k d.length) hj (by rwa [length_overwrite hk]),
    slice_overwrite_self (by omega), slice_overwrite_right (Nat.le_refl _) hk]

/-- A copy does not change the length. -/
@[simp] theorem length_copyForward (l : List α) (src dst n : ℕ) :
    (copyForward l src dst n).length = l.length := by
  induction n generalizing l src dst with
  | zero => rfl
  | succ n ih =>
    cases hx : l[src]? with
    | none => simp [copyForward, hx]
    | some x => simp [copyForward, hx, ih]

/-- The copy touches only cells from `dst` on. -/
theorem getElem?_copyForward_of_lt {l : List α} {src dst n k : ℕ} (h : k < dst) :
    (copyForward l src dst n)[k]? = l[k]? := by
  induction n generalizing l src dst with
  | zero => rfl
  | succ n ih =>
    cases hx : l[src]? with
    | none => simp [copyForward, hx]
    | some x =>
      simp only [copyForward, hx]
      rw [ih (by omega), List.getElem?_set_ne (by omega)]

/-- Copying towards the front is exact even when the ranges overlap: no cell is
overwritten before it has been read. -/
theorem getElem?_copyForward {l : List α} {src dst n k : ℕ} (hle : dst ≤ src)
    (hsrc : src + n ≤ l.length) (hk : k < n) :
    (copyForward l src dst n)[dst + k]? = l[src + k]? := by
  induction n generalizing l src dst k with
  | zero => omega
  | succ n ih =>
    have hlt : src < l.length := by omega
    have hx : l[src]? = some l[src] := List.getElem?_eq_getElem hlt
    simp only [copyForward, hx]
    cases k with
    | zero =>
      rw [getElem?_copyForward_of_lt (by omega), Nat.add_zero, Nat.add_zero,
        List.getElem?_set_self (by omega), hx]
    | succ k =>
      have hlength : src + 1 + n ≤ (l.set dst l[src]).length := by
        rw [List.length_set]
        omega
      have h := ih (Nat.succ_le_succ hle) hlength (Nat.lt_of_succ_lt_succ hk)
      rw [show dst + (k + 1) = dst + 1 + k by omega, h, List.getElem?_set_ne (by omega),
        show src + (k + 1) = src + 1 + k by omega]

/-- A forward copy towards the front moves the whole slice. -/
theorem slice_copyForward {l : List α} {src dst n : ℕ} (hle : dst ≤ src)
    (hsrc : src + n ≤ l.length) :
    slice (copyForward l src dst n) dst (dst + n) = slice l src (src + n) := by
  apply List.ext_getElem?
  intro m
  rw [getElem?_slice, getElem?_slice]
  by_cases hm : m < n
  · rw [if_pos (by omega), if_pos (by omega), getElem?_copyForward hle hsrc hm]
  · rw [if_neg (by omega), if_neg (by omega)]

/-- Removing a cell of the array makes it one cell shorter. -/
theorem length_swapPop {l : List α} {i : ℕ} (h : i < l.length) :
    (swapPop l i).length = l.length - 1 := by
  have hi : l[i]? = some l[i] := List.getElem?_eq_getElem h
  have hlast : l.length - 1 < l.length := by omega
  have hback : l[l.length - 1]? = some l[l.length - 1] := List.getElem?_eq_getElem hlast
  simp only [swapPop, hi, hback, List.length_dropLast, List.length_set]

/-- After a removal at `i`, the former last cell is at `i` and every other
remaining cell is where it was. -/
theorem getElem?_swapPop {l : List α} {i k : ℕ} (h : i < l.length) (hk : k < l.length - 1) :
    (swapPop l i)[k]? = if k = i then l[l.length - 1]? else l[k]? := by
  have hi : l[i]? = some l[i] := List.getElem?_eq_getElem h
  have hlast : l.length - 1 < l.length := by omega
  have hback : l[l.length - 1]? = some l[l.length - 1] := List.getElem?_eq_getElem hlast
  simp only [swapPop, hi, hback, List.getElem?_dropLast, List.length_set]
  rw [if_pos hk, List.getElem?_set_ne (by omega)]
  by_cases hki : k = i
  · rw [if_pos hki, hki, List.getElem?_set_self h]
  · rw [if_neg hki, List.getElem?_set_ne (Ne.symm hki)]

/-- A removal at `i` writes the last cell over the removed one. -/
theorem swapPop_eq {l : List α} {i : ℕ} {back : α} (h : i < l.length)
    (hback : l[l.length - 1]? = some back) : swapPop l i = l.dropLast.set i back := by
  refine List.ext_getElem? fun k => ?_
  by_cases hk : k < l.length - 1
  · rw [getElem?_swapPop h hk, hback]
    by_cases hki : k = i
    · rw [if_pos hki, hki, List.getElem?_set_self (by rw [List.length_dropLast]; omega)]
    · rw [if_neg hki, List.getElem?_set_ne (Ne.symm hki), List.getElem?_dropLast, if_pos hk]
  · rw [List.getElem?_eq_none (by rw [length_swapPop h]; omega),
      List.getElem?_eq_none (by rw [List.length_set, List.length_dropLast]; omega)]

/-- A removal of the last cell drops it. -/
theorem swapPop_last {l : List α} {i : ℕ} (h : i < l.length) (hi : i = l.length - 1) :
    swapPop l i = l.dropLast := by
  rw [swapPop_eq h (List.getElem?_eq_getElem (by omega)),
    List.set_eq_of_length_le (by rw [List.length_dropLast]; omega)]

/-- A removal at `i` takes out the cell at `i` and no other. -/
theorem perm_swapPop {l : List α} {i : ℕ} {x : α} (h : l[i]? = some x) :
    l.Perm (x :: swapPop l i) := by
  obtain ⟨hi, hx⟩ := List.getElem?_eq_some_iff.mp h
  have hlast : l.length - 1 < l.length := by omega
  have hback : l[l.length - 1]? = some l[l.length - 1] := List.getElem?_eq_getElem hlast
  have hne : l ≠ [] := List.ne_nil_of_length_pos (by omega)
  have hsplit : l = l.dropLast ++ [l[l.length - 1]] := by
    rw [← List.getLast_eq_getElem hne, List.dropLast_append_getLast hne]
  have hfront := (List.Perm.of_eq hsplit).trans (List.perm_append_singleton _ _)
  by_cases hend : i = l.length - 1
  · rw [swapPop_last hi hend]
    subst hend
    rw [← hx]
    exact hfront
  · rw [swapPop_eq hi hback]
    have hlt : i < l.dropLast.length := by
      rw [List.length_dropLast]
      omega
    have hget : l.dropLast[i] = x := by rw [List.getElem_dropLast, hx]
    have herase := List.getElem_cons_eraseIdx_perm hlt
    rw [hget] at herase
    have hset := List.set_perm_cons_eraseIdx hlt l[l.length - 1]
    refine hfront.trans ((herase.symm.cons _).trans ?_)
    exact (List.Perm.swap _ _ _).trans (hset.symm.cons _)

end Slice
