import Dalin.Library.Slice
import Mathlib.Algebra.Group.Nat.Defs

/-!
# Vectors indexed by machine words

A vector of a standard library counts its cells in machine words and has a
maximum size. An allocation beyond that size does not succeed, and a copy to or
from cells that are not there has no meaning. This file defines the operations
of such a vector, which have no result in these cases, and states what they do
in the others.
-/

set_option autoImplicit false

open Slice

/-- A vector of at most `m` cells. -/
structure WordVector (α : Type*) (m : ℕ) where
  /-- The cells. -/
  cells : List α
  length_le : cells.length ≤ m
  deriving DecidableEq

namespace WordVector

variable {α : Type*} {m : ℕ}

/-- The number of cells, as a machine word. -/
def size (v : WordVector α m) : UInt64 := .ofNat v.cells.length

/-- A new vector of `n` cells that hold `x`, if it may be that large. -/
def sized (m : ℕ) (n : UInt64) (x : α) : Option (WordVector α m) :=
  if h : n.toNat ≤ m then
    some ⟨List.replicate n.toNat x, by rw [List.length_replicate]; exact h⟩
  else none

/-- The vector with its size changed to `n`, if it may be that large; new cells hold `x`. -/
def resize (v : WordVector α m) (n : UInt64) (x : α) : Option (WordVector α m) :=
  if h : n.toNat ≤ m then
    some ⟨Slice.resize v.cells n.toNat x, by rw [length_resize]; exact h⟩
  else none

/-- Copy `xs` to the cells from `i` on, if these are there. -/
def write (v : WordVector α m) (i : UInt64) (xs : List α) : Option (WordVector α m) :=
  if xs = [] then some v
  else if h : i.toNat + xs.length ≤ v.cells.length then
    some ⟨overwrite v.cells i.toNat xs, by rw [length_overwrite h]; exact v.length_le⟩
  else none

/-- What the cells from `first` to `last` hold, if these are there. -/
def read (v : WordVector α m) (first last : UInt64) : Option (List α) :=
  if first = last then some []
  else if first ≤ last ∧ last.toNat ≤ v.cells.length then
    some (slice v.cells first.toNat last.toNat)
  else none

/-- Copy the cells from `first` to `last` to those from `dst` on, one at a time and in increasing
order, if all of them are there. -/
def slide (v : WordVector α m) (first last dst : UInt64) : Option (WordVector α m) :=
  if first = last then some v
  else if first ≤ last ∧ last.toNat ≤ v.cells.length ∧
      dst.toNat + (last - first).toNat ≤ v.cells.length then
    some ⟨copyForward v.cells first.toNat dst.toNat (last - first).toNat, by
      rw [length_copyForward]; exact v.length_le⟩
  else none

/-- The size is a machine word if the maximum is one. -/
theorem toNat_size (v : WordVector α m) (hm : m < 2 ^ 64) : v.size.toNat = v.cells.length := by
  have hle := v.length_le
  exact UInt64.toNat_ofNat_of_lt' (by unfold UInt64.size; omega)

/-- A vector of a size that fits. -/
theorem sized_of_le {n : UInt64} (x : α) (h : n.toNat ≤ m) :
    ∃ v, sized m n x = some v ∧ v.cells = List.replicate n.toNat x :=
  ⟨_, dif_pos h, rfl⟩

/-- A vector cannot be had exactly if its size does not fit. -/
theorem sized_eq_none_iff {n : UInt64} {x : α} : sized m n x = none ↔ m < n.toNat := by
  unfold sized
  split
  · rename_i hle
    simp only [reduceCtorEq, false_iff]
    omega
  · rename_i hlt
    simp only [true_iff]
    omega

/-- A vector that can be had is of the size asked for. -/
theorem sized_cases {v : WordVector α m} {n : UInt64} {x : α} (h : sized m n x = some v) :
    n.toNat ≤ m ∧ v.cells = List.replicate n.toNat x := by
  unfold sized at h
  split at h
  · cases h
    exact ⟨‹_›, rfl⟩
  · cases h

/-- A vector takes on a size that fits. -/
theorem resize_of_le {v : WordVector α m} {n : UInt64} (x : α) (h : n.toNat ≤ m) :
    ∃ v', v.resize n x = some v' ∧ v'.cells = Slice.resize v.cells n.toNat x :=
  ⟨_, dif_pos h, rfl⟩

/-- A vector does not take on a size exactly if it does not fit. -/
theorem resize_eq_none_iff {v : WordVector α m} {n : UInt64} {x : α} :
    v.resize n x = none ↔ m < n.toNat := by
  unfold resize
  split
  · rename_i hle
    simp only [reduceCtorEq, false_iff]
    omega
  · rename_i hlt
    simp only [true_iff]
    omega

/-- A resized vector has the size asked for. -/
theorem length_resize {v v' : WordVector α m} {n : UInt64} {x : α}
    (h : v.resize n x = some v') :
    v'.cells.length = n.toNat := by
  unfold resize at h
  split at h
  · cases h
    exact Slice.length_resize _ _ _
  · cases h

/-- A copy from elsewhere to cells that are there. -/
theorem write_of_le {v : WordVector α m} {i : UInt64} {xs : List α}
    (h : i.toNat + xs.length ≤ v.cells.length) :
    ∃ v', v.write i xs = some v' ∧ v'.cells = overwrite v.cells i.toNat xs := by
  by_cases hnil : xs = []
  · refine ⟨v, if_pos hnil, ?_⟩
    rw [hnil, overwrite_nil]
  · exact ⟨_, (if_neg hnil).trans (dif_pos h), rfl⟩

/-- What a copy from elsewhere does: it keeps the size, and what it copies has cells to go to. -/
theorem write_cases {v v' : WordVector α m} {i : UInt64} {xs : List α}
    (h : v.write i xs = some v') :
    v'.cells.length = v.cells.length ∧
      (xs = [] ∨ i.toNat + xs.length ≤ v.cells.length) := by
  unfold write at h
  split at h
  · rename_i hnil
    cases h
    exact ⟨rfl, .inl hnil⟩
  · split at h
    · rename_i hle
      cases h
      exact ⟨length_overwrite hle, .inr hle⟩
    · cases h

/-- A read of cells that are there. -/
theorem read_of_le {v : WordVector α m} {first last : UInt64} (h : first.toNat ≤ last.toNat)
    (hlast : last.toNat ≤ v.cells.length) :
    v.read first last = some (slice v.cells first.toNat last.toNat) := by
  unfold read
  split
  · rename_i heq
    rw [heq, slice_self]
  · rw [if_pos ⟨UInt64.le_iff_toNat_le.mpr h, hlast⟩]

/-- A copy of cells that are there down to cells in front of them. -/
theorem slide_of_le {v : WordVector α m} {first last dst : UInt64} (h : first.toNat ≤ last.toNat)
    (hlast : last.toNat ≤ v.cells.length) (hdst : dst.toNat ≤ first.toNat) :
    ∃ v', v.slide first last dst = some v' ∧
      v'.cells = copyForward v.cells first.toNat dst.toNat (last.toNat - first.toNat) := by
  have hdiff := UInt64.toNat_sub_of_le last first (UInt64.le_iff_toNat_le.mpr h)
  unfold slide
  split
  · rename_i heq
    refine ⟨v, rfl, ?_⟩
    rw [heq, Nat.sub_self]
    rfl
  · exact ⟨_, dif_pos ⟨UInt64.le_iff_toNat_le.mpr h, hlast, by omega⟩,
      congrArg (copyForward v.cells first.toNat dst.toNat) hdiff⟩

/-- What a copy inside the vector does: it keeps the size, and what it copies is there. -/
theorem slide_cases {v v' : WordVector α m} {first last dst : UInt64}
    (h : v.slide first last dst = some v') :
    v'.cells.length = v.cells.length ∧
      (first = last ∨ first ≤ last ∧ last.toNat ≤ v.cells.length) := by
  unfold slide at h
  split at h
  · rename_i heq
    cases h
    exact ⟨rfl, .inl heq⟩
  · split at h
    · rename_i hle
      cases h
      exact ⟨length_copyForward _ _ _ _, .inr ⟨hle.1, hle.2.1⟩⟩
    · cases h

end WordVector
