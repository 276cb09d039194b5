/-
A window over what has been recorded, in the order of its times: a queue from
whose front what is older than a cutoff is dropped. As long as the cutoff never
goes back, the queue holds what a look through all that was ever recorded finds
(`Window.prune`).
-/
import Mathlib.Order.Lattice
import Mathlib.Data.List.Basic
import Mathlib.Data.List.Induction
import Mathlib.Data.List.TakeWhile

set_option linter.all false

namespace RetailVision.Lib

variable {α K : Type*} [LinearOrder K] {key : α → K} {cutoff : K} {all queue : List α}

/-- In order, dropping from the front what is older leaves what is not. -/
theorem dropWhile_eq_filter (h : queue.Pairwise (key · ≤ key ·)) :
    queue.dropWhile (key · < cutoff) = queue.filter (cutoff ≤ key ·) := by
  induction queue with
  | nil => rfl
  | cons a queue ih =>
    obtain ⟨hfirst, hrest⟩ := List.pairwise_cons.mp h
    by_cases ha : key a < cutoff
    · rw [List.dropWhile_cons_of_pos (by simpa using ha), List.filter_cons_of_neg (by simpa using ha), ih hrest]
    · have hall : ∀ b ∈ queue, cutoff ≤ key b := fun b hb => (not_lt.mp ha).trans (hfirst b hb)
      rw [List.dropWhile_cons_of_neg (by simpa using ha), List.filter_cons_of_pos (by simpa using ha),
        List.filter_eq_self.mpr (by simpa using hall)]

/-- A queue holds the end of what has been recorded, in the order of its times;
what it does not hold is older than the cutoff. -/
structure Window (key : α → K) (cutoff : K) (all queue : List α) : Prop where
  ordered : all.Pairwise (key · ≤ key ·)
  dropped : ∃ gone, all = gone ++ queue ∧ ∀ a ∈ gone, key a < cutoff

theorem Window.nil : Window key cutoff [] [] := ⟨List.Pairwise.nil, [], rfl, by simp⟩

/-- Something is recorded, not before what there is. -/
theorem Window.record (h : Window key cutoff all queue) {a : α} (ha : ∀ b ∈ all, key b ≤ key a) :
    Window key cutoff (all ++ [a]) (queue ++ [a]) := by
  obtain ⟨gone, rfl, hgone⟩ := h.dropped
  refine ⟨List.pairwise_append.mpr ⟨h.ordered, List.pairwise_singleton _ _, fun b hb c hc => ?_⟩, gone, by simp, hgone⟩
  rw [List.mem_singleton.mp hc]
  exact ha b hb

theorem Window.later (h : Window key cutoff all queue) {later : K} (hle : cutoff ≤ later) : Window key later all queue := by
  obtain ⟨gone, heq, hgone⟩ := h.dropped
  exact ⟨h.ordered, gone, heq, fun a ha => (hgone a ha).trans_le hle⟩

/-- **After the front has been dropped** the queue is what is not older. -/
theorem Window.prune (h : Window key cutoff all queue) : queue.dropWhile (key · < cutoff) = all.filter (cutoff ≤ key ·) ∧
    Window key cutoff all (queue.dropWhile (key · < cutoff)) := by
  obtain ⟨gone, rfl, hgone⟩ := h.dropped
  have hnone : gone.filter (cutoff ≤ key ·) = [] := by
    rw [List.filter_eq_nil_iff]
    intro a ha
    simpa using hgone a ha
  refine ⟨?_, h.ordered, gone ++ queue.takeWhile (key · < cutoff), ?_, fun a ha => ?_⟩
  · rw [List.filter_append, hnone, List.nil_append, dropWhile_eq_filter (List.pairwise_append.mp h.ordered).2.1]
  · rw [List.append_assoc, List.takeWhile_append_dropWhile]
  · obtain ha | ha := List.mem_append.mp ha
    · exact hgone a ha
    · simpa using List.mem_takeWhile_imp ha

/-- To drop by a cutoff that is not the latest does no harm. -/
theorem Window.pruneEarlier (h : Window key cutoff all queue) {earlier : K} (hle : earlier ≤ cutoff) :
    Window key cutoff all (queue.dropWhile (key · < earlier)) := by
  obtain ⟨gone, rfl, hgone⟩ := h.dropped
  refine ⟨h.ordered, gone ++ queue.takeWhile (key · < earlier), ?_, fun a ha => ?_⟩
  · rw [List.append_assoc, List.takeWhile_append_dropWhile]
  · obtain ha | ha := List.mem_append.mp ha
    · exact hgone a ha
    · have hearlier : key a < earlier := by simpa using List.mem_takeWhile_imp ha
      exact hearlier.trans_le hle

/-! ## Where only the age is compared -/

section

variable {τ : Type*} (sample : τ → α) (old : τ → α → Bool)

/-- The queue after each of these has been recorded, and what is old by then
dropped from the front. -/
def slide (xs : List τ) : List α := xs.foldl (fun queue x => (queue ++ [sample x]).dropWhile (old x)) []

variable {sample old} {R : τ → τ → Prop} {xs : List τ} {x : τ}

theorem slide_snoc : slide sample old (xs ++ [x]) = (slide sample old xs ++ [sample x]).dropWhile (old x) := by
  rw [slide, List.foldl_append]
  rfl

theorem slide_sublist (xs : List τ) : (slide sample old xs).Sublist (xs.map sample) := by
  induction xs using List.reverseRecOn with
  | nil => exact .slnil
  | append_singleton xs x ih =>
    rw [slide_snoc, List.map_append]
    exact (List.dropWhile_sublist _).trans (ih.append (.refl _))

/-- Dropping from the front leaves what is not old, where what comes before
something old is old. -/
theorem dropWhile_eq_filter_not {p : α → Bool} (h : queue.Pairwise fun a b => p b = true → p a = true) :
    queue.dropWhile p = queue.filter (!p ·) := by
  induction queue with
  | nil => rfl
  | cons a queue ih =>
    obtain ⟨hfirst, hrest⟩ := List.pairwise_cons.mp h
    cases ha : p a with
    | true => rw [List.dropWhile_cons_of_pos ha, List.filter_cons_of_neg (by simp [ha]), ih hrest]
    | false =>
      have hall : ∀ b ∈ queue, (!p b) = true := by
        intro b hb
        cases hpb : p b with
        | false => rfl
        | true => exact absurd (hfirst b hb hpb) (by simp [ha])
      rw [List.dropWhile_cons_of_neg (by simp [ha]), List.filter_cons_of_pos (by simp [ha]), List.filter_eq_self.mpr hall]

/-- **The queue is what is not old** of all that has been recorded, where what is
older than something old is old, and what is old stays so. -/
theorem slide_eq (hback : ∀ x a b, R a b → old x (sample b) = true → old x (sample a) = true)
    (hstays : ∀ x y a, R x y → old x a = true → old y a = true) (hxs : (xs ++ [x]).Pairwise R) :
    slide sample old (xs ++ [x]) = ((xs ++ [x]).map sample).filter (!old x ·) := by
  induction xs using List.reverseRecOn generalizing x with
  | nil =>
    rw [slide_snoc]
    exact dropWhile_eq_filter_not (List.pairwise_singleton _ _)
  | append_singleton xs last ih =>
    obtain ⟨hbefore, -, hx⟩ := List.pairwise_append.mp hxs
    have hqueue : (slide sample old (xs ++ [last]) ++ [sample x]).Pairwise fun a b => old x b = true → old x a = true := by
      have hall : ((xs ++ [last] ++ [x]).map sample).Pairwise fun a b => old x b = true → old x a = true :=
        List.pairwise_map.mpr (hxs.imp fun hab => hback x _ _ hab)
      rw [List.map_append] at hall
      exact hall.sublist ((slide_sublist _).append (.refl _))
    have hlast : R last x := hx last (by simp) x (by simp)
    have hsnoc : ((xs ++ [last]) ++ [x]).map sample = (xs ++ [last]).map sample ++ [sample x] := List.map_append
    rw [slide_snoc, dropWhile_eq_filter_not hqueue, ih hbefore, List.filter_append, List.filter_filter, hsnoc, List.filter_append]
    congr 1
    refine List.filter_congr fun a _ => ?_
    cases hold : old x a with
    | true => rfl
    | false =>
      cases hwas : old last a with
      | false => rfl
      | true => exact absurd (hstays last x a hlast hwas) (by simp [hold])

end

end RetailVision.Lib
