/-
The best of a list that is sorted: its first elements, so many at most, and no more
once one of them fails. Where what comes before one that passes passes too, nothing
that passes is left out but for the number (`before_of_not_mem`).
-/
import Mathlib.Data.List.TakeWhile

set_option linter.all false

namespace RetailVision.Lib.Best

variable {α : Type*} {r : α → α → Prop} {p : α → Prop} [DecidablePred p] {k : Nat} {l : List α} {a : α}

def best (p : α → Prop) [DecidablePred p] (k : Nat) (l : List α) : List α := (l.take k).takeWhile fun a => p a

theorem best_sublist (k : Nat) (l : List α) : List.Sublist (best p k l) l :=
  (List.takeWhile_prefix _).sublist.trans (List.take_sublist k l)

theorem length_best_le (k : Nat) (l : List α) : (best p k l).length ≤ k :=
  (List.takeWhile_prefix _).sublist.length_le.trans (List.length_take_le k l)

theorem mem_best (h : a ∈ best p k l) : a ∈ l ∧ p a :=
  ⟨(best_sublist k l).subset h, by simpa using List.mem_takeWhile_imp h⟩

theorem mem_takeWhile_of_pairwise (hl : l.Pairwise r) (hr : ∀ b, r b a → p b) (ha : a ∈ l) (hp : p a) :
    a ∈ l.takeWhile fun a => p a := by
  induction l with
  | nil => simp at ha
  | cons b l ih =>
    obtain ⟨hb, hl⟩ := List.pairwise_cons.mp hl
    rcases List.mem_cons.mp ha with rfl | hal
    · rw [List.takeWhile_cons_of_pos (by simpa using hp)]
      exact List.mem_cons_self
    · rw [List.takeWhile_cons_of_pos (by simpa using hr b (hb a hal))]
      exact List.mem_cons_of_mem _ (ih hl hal)

/-- What passes and is left out comes after as many as there may be. -/
theorem before_of_not_mem (hl : l.Pairwise r) (hr : ∀ b, r b a → p b) (ha : a ∈ l) (hp : p a) (hout : a ∉ best p k l) :
    (best p k l).length = k ∧ ∀ b ∈ best p k l, r b a := by
  rw [← List.take_append_drop k l] at hl ha
  obtain ⟨htake, -, hbefore⟩ := List.pairwise_append.mp hl
  have hdrop : a ∈ l.drop k :=
    (List.mem_append.mp ha).resolve_left fun h => hout (mem_takeWhile_of_pairwise htake hr h hp)
  have hall : best p k l = l.take k :=
    List.takeWhile_eq_self_iff.mpr fun b hb => by simpa using hr b (hbefore b hb a hdrop)
  have hlen : k < l.length := by
    by_contra hle
    rw [List.drop_eq_nil_of_le (Nat.not_lt.mp hle)] at hdrop
    simp at hdrop
  rw [hall]
  exact ⟨List.length_take_of_le (Nat.le_of_lt hlen), fun b hb => hbefore b hb a hdrop⟩

end RetailVision.Lib.Best
