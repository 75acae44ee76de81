import Mathlib.Data.List.Sort
import Mathlib.Data.List.TakeWhile
import Mathlib.Data.Prod.Lex

/-!
# Ordered sets

A finite set over a linear order, kept as the list of its elements in increasing
order: what an ordered set of a standard library is to a program. Insertion,
removal, the least element, and the cut below a bound are enough for a queue
that is sorted by its keys.
-/

set_option autoImplicit false

/-- A finite set, listed in increasing order. -/
structure OrderedSet (α : Type*) [LinearOrder α] where
  /-- The elements. -/
  toList : List α
  /-- They are increasing. -/
  sorted : toList.Pairwise (· < ·)

namespace OrderedSet

variable {α : Type*} [LinearOrder α] {s : OrderedSet α} {x y : α}

instance : Membership α (OrderedSet α) := ⟨fun s x => x ∈ s.toList⟩

instance (s : OrderedSet α) (x : α) : Decidable (x ∈ s) :=
  inferInstanceAs (Decidable (x ∈ s.toList))

/-- The set without elements. -/
def empty : OrderedSet α := ⟨[], .nil⟩

/-- The number of elements. -/
def size (s : OrderedSet α) : ℕ := s.toList.length

/-- The empty set has no elements. -/
theorem not_mem_empty : x ∉ (empty : OrderedSet α) := List.not_mem_nil

/-- An element occurs once. -/
theorem nodup (s : OrderedSet α) : s.toList.Nodup := s.sorted.imp ne_of_lt

/-! ### Insertion and removal -/

/-- A list that gets a new element at its place stays increasing. -/
theorem sorted_orderedInsert {l : List α} (hl : l.Pairwise (· < ·)) (hx : x ∉ l) :
    (l.orderedInsert (· ≤ ·) x).Pairwise (· < ·) := by
  induction l with
  | nil => exact List.pairwise_singleton ..
  | cons y l ih =>
    obtain ⟨hy, hl⟩ := List.pairwise_cons.mp hl
    obtain ⟨hne, hx⟩ := not_or.mp (mt List.mem_cons.mpr hx)
    rw [List.orderedInsert_cons]
    split
    · rename_i hle
      have hlt := lt_of_le_of_ne hle hne
      refine List.pairwise_cons.mpr ⟨fun z hz => ?_, List.pairwise_cons.mpr ⟨hy, hl⟩⟩
      rcases List.mem_cons.mp hz with rfl | hz
      · exact hlt
      · exact hlt.trans (hy z hz)
    · rename_i hnot
      refine List.pairwise_cons.mpr ⟨fun z hz => ?_, ih hl hx⟩
      rcases (List.mem_orderedInsert _).mp hz with rfl | hz
      · exact not_le.mp hnot
      · exact hy z hz

/-- The set with another element. -/
def insert (s : OrderedSet α) (x : α) : OrderedSet α :=
  if h : x ∈ s.toList then s else ⟨_, sorted_orderedInsert s.sorted h⟩

/-- The set without an element. -/
def erase (s : OrderedSet α) (x : α) : OrderedSet α :=
  ⟨s.toList.erase x, s.sorted.sublist List.erase_sublist⟩

/-- An insertion adds one element. -/
@[simp] theorem mem_insert : y ∈ s.insert x ↔ y = x ∨ y ∈ s := by
  unfold insert
  split
  · rename_i h
    constructor
    · exact Or.inr
    · rintro (rfl | hy)
      · exact h
      · exact hy
  · exact List.mem_orderedInsert _

/-- A removal takes one element out. -/
@[simp] theorem mem_erase : y ∈ s.erase x ↔ y ≠ x ∧ y ∈ s := s.nodup.mem_erase_iff

/-- A removal keeps the others in their order. -/
theorem erase_sublist (s : OrderedSet α) (x : α) : (s.erase x).toList.Sublist s.toList :=
  List.erase_sublist

/-- A new element lengthens the list. -/
theorem perm_insert (h : x ∉ s) : (s.insert x).toList.Perm (x :: s.toList) := by
  unfold insert
  rw [dif_neg (show x ∉ s.toList from h)]
  exact List.perm_orderedInsert ..

/-- A new element makes the set larger by one. -/
theorem size_insert (h : x ∉ s) : (s.insert x).size = s.size + 1 := (perm_insert h).length_eq

/-- The removal of an element makes it smaller by one. -/
theorem size_erase (h : x ∈ s) : (s.erase x).size + 1 = s.size := by
  have hpos : 0 < s.toList.length := List.length_pos_of_mem h
  change (s.toList.erase x).length + 1 = s.toList.length
  rw [List.length_erase_of_mem h]
  omega

/-! ### The least element -/

/-- The least element, if there is one. -/
def first? (s : OrderedSet α) : Option α := s.toList.head?

/-- An element that is listed first is the least one. -/
theorem le_of_first? (h : s.first? = some x) : x ∈ s ∧ ∀ y ∈ s, x ≤ y := by
  obtain ⟨l, hl⟩ := List.head?_eq_some_iff.mp h
  have hsorted := s.sorted
  refine ⟨?_, fun y hy => ?_⟩
  · change x ∈ s.toList
    rw [hl]
    exact List.mem_cons_self
  · change y ∈ s.toList at hy
    rw [hl] at hy hsorted
    rcases List.mem_cons.mp hy with rfl | hy
    · exact le_rfl
    · exact ((List.pairwise_cons.mp hsorted).1 y hy).le

/-- A set without a first element is empty. -/
theorem not_mem_of_first? (h : s.first? = none) : x ∉ s := by
  have hnil := List.head?_eq_none_iff.mp h
  change x ∉ s.toList
  rw [hnil]
  exact List.not_mem_nil

/-- An element below all others comes first when it is inserted. -/
theorem first?_insert_of_lt (h : ∀ y ∈ s, x < y) : (s.insert x).first? = some x := by
  cases hfirst : (s.insert x).first? with
  | none => exact absurd (mem_insert.mpr (Or.inl rfl)) (not_mem_of_first? hfirst)
  | some y =>
    obtain ⟨hmem, hle⟩ := le_of_first? hfirst
    rcases mem_insert.mp hmem with rfl | hy
    · rfl
    · exact absurd (h y hy) (not_lt.mpr (hle x (mem_insert.mpr (Or.inl rfl))))

/-! ### The cut below a bound -/

/-- The elements below a bound, in increasing order. -/
def below (s : OrderedSet α) (x : α) : List α := s.toList.takeWhile (· < x)

/-- The elements that are not below a bound. -/
def above (s : OrderedSet α) (x : α) : OrderedSet α :=
  ⟨s.toList.dropWhile (· < x), s.sorted.sublist (List.dropWhile_sublist _)⟩

/-- The cut keeps all elements in their order. -/
theorem below_append_above (s : OrderedSet α) (x : α) :
    s.below x ++ (s.above x).toList = s.toList := List.takeWhile_append_dropWhile

/-- An element is below a bound or not below it. -/
theorem mem_iff_below_or_above : y ∈ s ↔ y ∈ s.below x ∨ y ∈ s.above x := by
  change y ∈ s.toList ↔ y ∈ s.below x ∨ y ∈ (s.above x).toList
  rw [← List.mem_append, below_append_above]

/-- A bound divides the elements. -/
theorem size_below_add_above (s : OrderedSet α) (x : α) :
    (s.below x).length + (s.above x).size = s.size := by
  change _ + (s.above x).toList.length = s.toList.length
  rw [← List.length_append, below_append_above]

/-- What is below the bound is less. -/
theorem lt_of_mem_below (h : y ∈ s.below x) : y < x := by
  simpa using List.mem_takeWhile_imp h

/-- What is left after the cut is at or above the bound. -/
theorem le_of_mem_above (h : y ∈ s.above x) : x ≤ y := by
  have hsorted := (s.above x).sorted
  change y ∈ s.toList.dropWhile (· < x) at h
  cases hl : s.toList.dropWhile (· < x) with
  | nil =>
    rw [hl] at h
    exact absurd h List.not_mem_nil
  | cons z l =>
    have hz : ¬ z < x := by
      have := List.head?_dropWhile_not (fun b => decide (b < x)) s.toList
      rw [hl] at this
      simpa using this
    change (s.toList.dropWhile (· < x)).Pairwise (· < ·) at hsorted
    rw [hl] at h hsorted
    rcases List.mem_cons.mp h with rfl | hy
    · exact not_lt.mp hz
    · exact (not_lt.mp hz).trans ((List.pairwise_cons.mp hsorted).1 y hy).le

end OrderedSet
