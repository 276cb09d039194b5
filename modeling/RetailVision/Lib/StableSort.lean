/-
Insertion sort, which is stable: of two elements neither of which goes before
the other, the one that came first stays first. So an order that breaks ties by
the order in which the elements come sorts like one that has the ties
(`insertionSort_congr`).
-/
import Mathlib.Data.List.Sort
import Mathlib.Order.Lattice

set_option linter.all false

namespace RetailVision.Lib

variable {α : Type*} {r r' : α → α → Prop} [DecidableRel r] [DecidableRel r'] {a : α} {l : List α}

theorem orderedInsert_congr (h : ∀ b ∈ l, r a b ↔ r' a b) : l.orderedInsert r a = l.orderedInsert r' a := by
  induction l with
  | nil => rfl
  | cons b l ih =>
    have hb := h b List.mem_cons_self
    have hl := ih fun c hc => h c (List.mem_cons_of_mem _ hc)
    simp only [List.orderedInsert_cons, hb, hl]

/-- The orders need to agree only on the pairs as they come. -/
theorem insertionSort_congr (h : l.Pairwise fun a b => r a b ↔ r' a b) : l.insertionSort r = l.insertionSort r' := by
  induction l with
  | nil => rfl
  | cons a l ih =>
    obtain ⟨ha, hl⟩ := List.pairwise_cons.mp h
    rw [List.insertionSort_cons, List.insertionSort_cons, ih hl]
    exact orderedInsert_congr fun b hb => ha b ((List.mem_insertionSort r').mp hb)

/-- What goes before none goes to the end. -/
theorem orderedInsert_last (h : ∀ b ∈ l, ¬ r a b) : l.orderedInsert r a = l ++ [a] := by
  induction l with
  | nil => rfl
  | cons b l ih =>
    rw [List.orderedInsert_of_not_le _ _ (h b List.mem_cons_self), ih fun c hc => h c (List.mem_cons_of_mem _ hc)]
    rfl

/-- Sorted descending by a strict weak order, the elements of which none is above
the other are in the order of their indices. -/
theorem pairwise_insertionSort_weak {lt : α → α → Prop} [DecidableRel lt] (hasymm : ∀ a b, lt a b → ¬ lt b a)
    (hbetween : ∀ a b c, lt a c → lt a b ∨ lt b c) (l : List α) :
    (l.zipIdx.insertionSort fun a b => ¬ lt a.1 b.1).Pairwise fun a b => lt b.1 a.1 ∨ ¬ lt a.1 b.1 ∧ a.2 < b.2 := by
  let lex : α × Nat → α × Nat → Prop := fun a b => lt b.1 a.1 ∨ ¬ lt a.1 b.1 ∧ a.2 ≤ b.2
  have htotal : Std.Total lex := ⟨fun a b => by
    by_cases hab : lt a.1 b.1
    · exact .inr (.inl hab)
    · by_cases hba : lt b.1 a.1
      · exact .inl (.inl hba)
      · exact (Nat.le_total a.2 b.2).imp (fun hi => .inr ⟨hab, hi⟩) fun hi => .inr ⟨hba, hi⟩⟩
  have htrans : IsTrans (α × Nat) lex := ⟨fun a b c hab hbc => by
    rcases hab with hab | ⟨hab, hi⟩ <;> rcases hbc with hbc | ⟨hbc, hj⟩
    · exact .inl ((hbetween _ c.1 _ hab).resolve_left (hasymm _ _ hbc))
    · exact .inl ((hbetween _ c.1 _ hab).resolve_left hbc)
    · exact .inl ((hbetween _ a.1 _ hbc).resolve_right hab)
    · exact .inr ⟨fun hac => (hbetween _ b.1 _ hac).elim hab hbc, hi.trans hj⟩⟩
  have hindex : (l.zipIdx.map (·.2)).Pairwise (· < ·) := by
    rw [List.zipIdx_map_snd]
    exact List.pairwise_lt_range'
  have hcongr : l.zipIdx.Pairwise fun a b => ¬ lt a.1 b.1 ↔ lex a b :=
    (List.pairwise_map.mp hindex).imp fun {a b} hi =>
      ⟨fun hab => .inr ⟨hab, Nat.le_of_lt hi⟩, fun hlex => hlex.elim (hasymm _ _) And.left⟩
  have hnodup : ((l.zipIdx.insertionSort fun a b => ¬ lt a.1 b.1).map (·.2)).Nodup :=
    (((List.perm_insertionSort _ _).map _).nodup_iff).mpr (hindex.imp Nat.ne_of_lt)
  have hlex : (l.zipIdx.insertionSort fun a b => ¬ lt a.1 b.1).Pairwise lex := by
    classical
    rw [insertionSort_congr hcongr]
    exact List.pairwise_insertionSort lex _
  refine hlex.imp₂ ?_ (List.pairwise_map.mp hnodup)
  rintro a b (h | ⟨h, hi⟩) hne
  · exact .inl h
  · exact .inr ⟨h, Nat.lt_of_le_of_ne hi hne⟩

/-- Sorted by descending keys, the elements with one key are in the order of
their indices. -/
theorem pairwise_insertionSort_zipIdx {K : Type*} [LinearOrder K] (key : α → K) (l : List α) :
    (l.zipIdx.insertionSort fun a b => key b.1 ≤ key a.1).Pairwise fun a b =>
      key b.1 < key a.1 ∨ key a.1 = key b.1 ∧ a.2 < b.2 := by
  have hweak := pairwise_insertionSort_weak (fun a b : α => lt_asymm (a := key a) (b := key b))
    (fun a b c hac => (lt_or_ge (key a) (key b)).imp_right fun hba => lt_of_le_of_lt hba hac) l
  have hsame : l.zipIdx.insertionSort (fun a b => ¬ key a.1 < key b.1) = l.zipIdx.insertionSort fun a b => key b.1 ≤ key a.1 :=
    insertionSort_congr (List.pairwise_of_forall fun a b => not_lt)
  rw [← hsame]
  refine hweak.imp fun {a b} h => ?_
  rcases lt_trichotomy (key a.1) (key b.1) with hlt | heq | hgt
  · exact h.elim (fun hba => absurd hba (lt_asymm hlt)) fun hba => absurd hlt hba.1
  · exact h.elim (fun hba => absurd hba heq.not_gt) fun hba => .inr ⟨heq, hba.2⟩
  · exact .inl hgt

end RetailVision.Lib
