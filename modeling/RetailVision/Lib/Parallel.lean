/-
Two lists that go in parallel, element by element: to each element of the one
there is one of the other, and what is done to the one at an index is done to
the other at the same index.
-/
import Mathlib.Data.List.Forall2

set_option linter.all false

namespace RetailVision.Lib

open List

variable {α β : Type*} {R S : α → β → Prop} {as : List α} {bs : List β}

theorem forall₂_left (h : Forall₂ R as bs) : ∀ a ∈ as, ∃ b ∈ bs, R a b := by
  induction h with
  | nil => simp
  | cons hab _ ih =>
    intro a ha
    obtain rfl | ha := mem_cons.mp ha
    · exact ⟨_, mem_cons_self, hab⟩
    · obtain ⟨b, hb, hr⟩ := ih a ha
      exact ⟨b, mem_cons_of_mem _ hb, hr⟩

theorem forall₂_right (h : Forall₂ R as bs) : ∀ b ∈ bs, ∃ a ∈ as, R a b := forall₂_left h.flip

theorem forall₂_imp_mem (himp : ∀ a b, b ∈ bs → R a b → S a b) (h : Forall₂ R as bs) : Forall₂ S as bs := by
  induction h with
  | nil => exact .nil
  | cons hab _ ih => exact .cons (himp _ _ mem_cons_self hab) (ih fun a b hb => himp a b (mem_cons_of_mem _ hb))

theorem forall₂_getElem? (h : Forall₂ R as bs) {k : Nat} {a : α} (ha : as[k]? = some a) : ∃ b, bs[k]? = some b ∧ R a b := by
  induction h generalizing k with
  | nil => cases ha
  | cons hab _ ih =>
    cases k with
    | zero => cases ha; exact ⟨_, rfl, hab⟩
    | succ k => exact ih ha

theorem forall₂_eraseIdx (h : Forall₂ R as bs) (k : Nat) : Forall₂ R (as.eraseIdx k) (bs.eraseIdx k) := by
  rw [eraseIdx_eq_take_drop_succ, eraseIdx_eq_take_drop_succ]
  exact rel_append (forall₂_take k h) (forall₂_drop (k + 1) h)

theorem forall₂_pairwise {P : α → α → Prop} {Q : β → β → Prop} (h : Forall₂ R as bs) (hP : as.Pairwise P)
    (himp : ∀ {a a' b b'}, R a b → R a' b' → P a a' → Q b b') : bs.Pairwise Q := by
  induction h with
  | nil => exact .nil
  | @cons a b as bs hab hrest ih =>
    obtain ⟨ha, has⟩ := pairwise_cons.mp hP
    refine pairwise_cons.mpr ⟨fun b' hb' => ?_, ih has⟩
    obtain ⟨a', ha', hab'⟩ := forall₂_right hrest b' hb'
    exact himp hab hab' (ha a' ha')

end RetailVision.Lib
