import Mathlib.Data.List.Basic

/-!
# Streams from several sources

Items of several sources that are merged into one list stay in order source by
source, although the merged list may differ from the order in which they were
given. Two lists are equivalent here if every source has the same items in the
same order in both.
-/

set_option autoImplicit false

namespace SameOrder

variable {α κ : Type*} [DecidableEq κ] {source : α → κ} {l l' l₁ l₂ l₃ : List α} {a : α} {k : κ}

/-- The items of one source. -/
def of (source : α → κ) (k : κ) (l : List α) : List α := l.filter fun a => source a = k

/-- Nothing comes from any source. -/
@[simp] theorem of_nil (k : κ) : of source k [] = [] := rfl

/-- The items of a source keep their order. -/
@[simp] theorem of_append (k : κ) (l l' : List α) :
    of source k (l ++ l') = of source k l ++ of source k l' := List.filter_append ..

/-- An item of another source. -/
theorem of_singleton_of_ne (h : source a ≠ k) : of source k [a] = [] := by simp [of, h]

/-- Every source has the same items in the same order. -/
def Merged (source : α → κ) (l l' : List α) : Prop := ∀ k, of source k l = of source k l'

/-- A list is merged from its own items. -/
theorem Merged.refl (l : List α) : Merged source l l := fun _ => rfl

/-- One more item at the end of both lists. -/
theorem Merged.append (h : Merged source l l') (l₁ : List α) :
    Merged source (l ++ l₁) (l' ++ l₁) := fun k => by rw [of_append, of_append, h k]

/-- A new item overtakes the waiting items of other sources. -/
theorem Merged.overtake (h : Merged source (l₁ ++ l₂) l') (hother : ∀ b ∈ l₂, source b ≠ source a) :
    Merged source (l₁ ++ [a] ++ l₂) (l' ++ [a]) := by
  intro k
  rw [of_append, of_append, of_append, ← h k, of_append]
  by_cases hk : source a = k
  · have hnone : of source k l₂ = [] := by
      refine List.filter_eq_nil_iff.mpr fun b hb => ?_
      simpa [← hk] using hother b hb
    rw [hnone, List.append_nil, List.append_nil]
  · rw [of_singleton_of_ne hk, List.append_nil, List.append_nil]

end SameOrder
