/-
Greedy selection: the elements are visited one after the other, and one is kept
unless one that was kept before clashes with it. What is kept does not clash,
and what is dropped clashes with something kept before it; so a selection from
what was selected selects all of it (`select_select`). To drop, with each that is
kept, what it clashes with of the rest comes to the same (`sieve_eq_select`).
-/
import Mathlib.Data.List.Induction

set_option linter.all false

namespace RetailVision.Lib.Greedy

variable {α β : Type*} (clash : α → α → Prop) [DecidableRel clash]

def visit (kept : List α) (a : α) : List α := if ∃ k ∈ kept, clash k a then kept else kept ++ [a]

def select (l : List α) : List α := l.foldl (visit clash) []

variable {clash} {r : α → α → Prop} {a : α} {l : List α}

@[simp] theorem select_nil : select clash [] = [] := rfl

theorem select_concat : select clash (l ++ [a]) = visit clash (select clash l) a := by simp [select, List.foldl_append]

theorem visit_of_clash {kept : List α} (h : ∃ k ∈ kept, clash k a) : visit clash kept a = kept := if_pos h

theorem visit_of_not {kept : List α} (h : ¬ ∃ k ∈ kept, clash k a) : visit clash kept a = kept ++ [a] := if_neg h

theorem select_sublist (l : List α) : List.Sublist (select clash l) l := by
  induction l using List.reverseRecOn with
  | nil => simp
  | append_singleton l a ih =>
    rw [select_concat]
    by_cases h : ∃ k ∈ select clash l, clash k a
    · rw [visit_of_clash h]
      exact ih.trans (List.sublist_append_left l [a])
    · rw [visit_of_not h]
      exact ih.append_right [a]

theorem select_pairwise (l : List α) : (select clash l).Pairwise fun a b => ¬ clash a b := by
  induction l using List.reverseRecOn with
  | nil => simp
  | append_singleton l a ih =>
    rw [select_concat]
    by_cases h : ∃ k ∈ select clash l, clash k a
    · rwa [visit_of_clash h]
    · rw [visit_of_not h, List.pairwise_append]
      refine ⟨ih, List.pairwise_singleton _ _, fun k hk b hb hc => h ⟨k, hk, ?_⟩⟩
      rwa [← List.mem_singleton.mp hb]

/-- What is dropped clashes with something kept that came before it. -/
theorem exists_kept (hr : l.Pairwise r) (ha : a ∈ l) (hd : a ∉ select clash l) :
    ∃ k ∈ select clash l, clash k a ∧ r k a := by
  induction l using List.reverseRecOn with
  | nil => simp at ha
  | append_singleton l b ih =>
    obtain ⟨hl, -, hb⟩ := List.pairwise_append.mp hr
    rw [select_concat] at hd ⊢
    by_cases h : ∃ k ∈ select clash l, clash k b
    · rw [visit_of_clash h] at hd ⊢
      rcases List.mem_append.mp ha with hal | hab
      · exact ih hl hal hd
      · obtain rfl := List.mem_singleton.mp hab
        obtain ⟨k, hk, hc⟩ := h
        exact ⟨k, hk, hc, hb k ((select_sublist l).subset hk) a hab⟩
    · rw [visit_of_not h, List.mem_append, not_or] at hd
      rw [visit_of_not h]
      rcases List.mem_append.mp ha with hal | hab
      · obtain ⟨k, hk, hc⟩ := ih hl hal hd.1
        exact ⟨k, List.mem_append_left _ hk, hc⟩
      · exact absurd hab hd.2

theorem select_of_pairwise (h : l.Pairwise fun a b => ¬ clash a b) : select clash l = l := by
  induction l using List.reverseRecOn with
  | nil => rfl
  | append_singleton l a ih =>
    obtain ⟨hl, -, ha⟩ := List.pairwise_append.mp h
    rw [select_concat, ih hl]
    refine visit_of_not ?_
    rintro ⟨k, hk, hc⟩
    exact ha k hk a List.mem_cons_self hc

theorem select_select (l : List α) : select clash (select clash l) = select clash l :=
  select_of_pairwise (select_pairwise l)

/-- The first is kept, and what it clashes with of the rest is dropped; then the first
of what is left, so many times at most. -/
def sieve (clash : α → α → Prop) [DecidableRel clash] : Nat → List α → List α
  | _, [] => []
  | 0, _ => []
  | n + 1, a :: l => a :: sieve clash n (l.filter fun b => ¬ clash a b)

/-- What is kept first decides alone on what it clashes with. -/
theorem foldl_visit_cons (a : α) (kept l : List α) : l.foldl (visit clash) (a :: kept) = a :: (l.filter fun b => ¬ clash a b).foldl (visit clash) kept := by
  induction l generalizing kept with
  | nil => rfl
  | cons b l ih =>
    by_cases hab : clash a b
    · rw [List.foldl_cons, visit_of_clash ⟨a, List.mem_cons_self, hab⟩, ih, List.filter_cons_of_neg (by simpa using hab)]
    · rw [List.foldl_cons, List.filter_cons_of_pos (by simpa using hab), List.foldl_cons]
      by_cases hb : ∃ k ∈ kept, clash k b
      · rw [visit_of_clash hb, visit_of_clash (by simpa using .inr hb), ih]
      · rw [visit_of_not hb, visit_of_not (by simpa [hab] using hb), List.cons_append, ih]

theorem sieve_eq_select {n : Nat} (h : l.length ≤ n) : sieve clash n l = select clash l := by
  induction n generalizing l with
  | zero =>
    rw [List.length_eq_zero_iff.mp (Nat.le_zero.mp h)]
    rfl
  | succ n ih =>
    cases l with
    | nil => rfl
    | cons a l =>
      have hrest := List.length_filter_le (fun b => decide (¬ clash a b)) l
      rw [sieve, ih (Nat.le_trans hrest (Nat.le_of_succ_le_succ h)), select, select, List.foldl_cons, visit_of_not (by simp), List.nil_append, foldl_visit_cons]

end RetailVision.Lib.Greedy
