/-
The upper median of a list of numbers: of the two in the middle of an even
number of them, the greater one. At most half of the list is less, and more than
half of it is not greater (`upperMedian_spec`).
-/
import Mathlib.Data.List.Sort
import Mathlib.Order.Basic

set_option linter.all false

namespace RetailVision.Lib

variable {α : Type*} [LinearOrder α]

/-- What is in the middle. -/
structure IsUpperMedian (l : List α) (m : α) : Prop where
  mem : m ∈ l
  less : l.countP (· < m) ≤ l.length / 2
  not_greater : l.length / 2 < l.countP (· ≤ m)

def sorted (l : List α) : List α := l.insertionSort (· ≤ ·)

theorem sorted_perm (l : List α) : (sorted l).Perm l := List.perm_insertionSort _ l

theorem sorted_pairwise (l : List α) : (sorted l).Pairwise (· ≤ ·) := List.pairwise_insertionSort _ l

/-- What stands at a place of a sorted list. -/
theorem rank_of_sorted {l : List α} (h : l.Pairwise (· ≤ ·)) {i : Nat} {m : α} (hm : l[i]? = some m) :
    l.countP (· < m) ≤ i ∧ i < l.countP (· ≤ m) := by
  obtain ⟨hi, rfl⟩ := List.getElem?_eq_some_iff.mp hm
  have hsplit : l.take i ++ l[i] :: l.drop (i + 1) = l := by
    rw [List.getElem_cons_drop, List.take_append_drop]
  have hpair := h
  rw [← hsplit, List.pairwise_append, List.pairwise_cons] at hpair
  obtain ⟨-, ⟨hafter, -⟩, hbefore⟩ := hpair
  have hlength : (l.take i).length = i := by
    rw [List.length_take]
    omega
  have hsum : ∀ p : α → Bool, l.countP p = (l.take i).countP p + (l[i] :: l.drop (i + 1)).countP p := fun p =>
    (congrArg (List.countP p) hsplit).symm.trans List.countP_append
  constructor
  · have hnone : (l[i] :: l.drop (i + 1)).countP (· < l[i]) = 0 := by
      rw [List.countP_eq_zero]
      intro x hx
      obtain rfl | hx := List.mem_cons.mp hx
      · simp
      · simpa using hafter x hx
    rw [hsum, hnone, Nat.add_zero]
    exact List.countP_le_length.trans hlength.le
  · have hall : (l.take i).countP (· ≤ l[i]) = i := by
      rw [List.countP_eq_length.mpr fun x hx => by simpa using hbefore x hx l[i] List.mem_cons_self, hlength]
    rw [hsum, hall, List.countP_cons_of_pos (by simp)]
    omega

/-- **The middle of the sorted list** is the upper median. -/
theorem upperMedian_spec {l : List α} {m : α} (hm : (sorted l)[l.length / 2]? = some m) : IsUpperMedian l m := by
  obtain ⟨hless, hnot⟩ := rank_of_sorted (sorted_pairwise l) hm
  refine ⟨(sorted_perm l).mem_iff.mp (List.mem_of_getElem? hm), ?_, ?_⟩
  · rwa [(sorted_perm l).countP_eq] at hless
  · rwa [(sorted_perm l).countP_eq] at hnot

end RetailVision.Lib
