/-
A sequence cut at the first or the last of a separator, and into the fields
between all of them.
-/
import Mathlib.Data.List.DropRight

set_option linter.all false

namespace RetailVision.Lib

variable {α : Type*} [DecidableEq α] {sep a : α} {xs ys : List α}

/-! ## Cuts -/

theorem takeWhile_ne_append (h : sep ∉ xs) : (xs ++ sep :: ys).takeWhile (· ≠ sep) = xs := by
  have hne : ∀ x ∈ xs, x ≠ sep := fun x hx he => h (he ▸ hx)
  rw [List.takeWhile_append_of_pos (by simpa using hne), List.takeWhile_cons_of_neg (by simp), List.append_nil]

theorem dropWhile_ne_append (h : sep ∉ xs) : (xs ++ sep :: ys).dropWhile (· ≠ sep) = sep :: ys := by
  have hne : ∀ x ∈ xs, x ≠ sep := fun x hx he => h (he ▸ hx)
  rw [List.dropWhile_append_of_pos (by simpa using hne), List.dropWhile_cons_of_neg (by simp)]

theorem dropWhile_ne_of_not_mem (h : sep ∉ xs) : xs.dropWhile (· ≠ sep) = [] := by
  have hne : ∀ x ∈ xs, x ≠ sep := fun x hx he => h (he ▸ hx)
  rw [List.dropWhile_eq_nil_iff]
  simpa using hne

theorem rtakeWhile_ne_append (h : sep ∉ ys) : (xs ++ sep :: ys).rtakeWhile (· ≠ sep) = ys := by
  have hrev : sep ∉ ys.reverse := by simpa using h
  rw [List.rtakeWhile, List.reverse_append, List.reverse_cons, List.append_assoc, List.singleton_append,
    takeWhile_ne_append hrev, List.reverse_reverse]

omit [DecidableEq α] in
theorem exists_last (h : sep ∈ xs) : ∃ as bs, xs = as ++ sep :: bs ∧ sep ∉ bs := by
  obtain ⟨as, bs, heq, has⟩ := List.eq_append_cons_of_mem (List.mem_reverse.mpr h)
  refine ⟨bs.reverse, as.reverse, ?_, by simpa using has⟩
  rw [← List.reverse_reverse xs, heq]
  simp

/-! ## Fields -/

omit [DecidableEq α] in
theorem mem_intercalate {xss : List (List α)} (h : a ∈ [sep].intercalate xss) : a = sep ∨ ∃ xs ∈ xss, a ∈ xs := by
  induction xss with
  | nil => simp at h
  | cons xs xss ih =>
    cases xss with
    | nil => exact .inr ⟨xs, by simp, by simpa using h⟩
    | cons ys xss =>
      rw [List.intercalate_cons_cons, List.append_assoc, List.mem_append, List.singleton_append, List.mem_cons] at h
      rcases h with h | h | h
      · exact .inr ⟨xs, by simp, h⟩
      · exact .inl h
      · rcases ih h with h | ⟨zs, hzs, h⟩
        · exact .inl h
        · exact .inr ⟨zs, List.mem_cons_of_mem _ hzs, h⟩

/-- A field does not hold the separator, and holds only what the whole does. -/
theorem mem_splitOn (h : ys ∈ xs.splitOn sep) : sep ∉ ys ∧ ys ⊆ xs := by
  induction xs generalizing ys with
  | nil =>
    rw [List.splitOn_nil, List.mem_singleton] at h
    simp [h]
  | cons x xs ih =>
    rw [List.splitOn_cons_eq_if_modifyHead] at h
    split at h
    · rcases List.mem_cons.mp h with rfl | h
      · simp
      · exact ⟨(ih h).1, fun y hy => List.mem_cons_of_mem _ ((ih h).2 hy)⟩
    · next hne =>
      -- `x` is put before the first field of what follows
      obtain ⟨zs, zss, heq⟩ := List.exists_cons_of_ne_nil (List.splitOn_ne_nil sep xs)
      rw [heq] at h ih
      rcases List.mem_cons.mp h with rfl | h
      · obtain ⟨hsep, hsub⟩ := ih List.mem_cons_self
        refine ⟨?_, List.cons_subset_cons x hsub⟩
        simpa [hsep] using fun he => hne (by simp [he])
      · obtain ⟨hsep, hsub⟩ := ih (List.mem_cons_of_mem _ h)
        exact ⟨hsep, fun y hy => List.mem_cons_of_mem _ (hsub hy)⟩

theorem splitOn_eq_nil_singleton : xs.splitOn sep = [[]] ↔ xs = [] := by
  constructor
  · intro h
    have hjoin : [sep].intercalate (xs.splitOn sep) = xs := List.intercalate_splitOn sep
    rw [h] at hjoin
    simpa using hjoin.symm
  · rintro rfl
    exact List.splitOn_nil sep

end RetailVision.Lib
