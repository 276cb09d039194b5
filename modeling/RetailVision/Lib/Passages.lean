/-
Walks between two sides. Of the samples of a walk each is on a side, or on
neither. Steps from side to side add up, but a walk may also pass by way of
samples that are on neither side; with those passages counted, what a walk adds
up to is told by its ends (`passages_add_throughs`).
-/
import Mathlib.Data.Sign.Defs
import Mathlib.Algebra.Order.Ring.Int
import Mathlib.Data.List.Basic

set_option linter.all false

namespace RetailVision.Lib

/-- One from the positive side to the negative, and minus one back; nothing
where an end is on neither. -/
def passage : SignType → SignType → Int
  | .pos, .neg => 1
  | .neg, .pos => -1
  | _, _ => 0

/-- The steps of a walk. -/
def stepsOf {α : Type*} : List α → List (α × α)
  | p :: q :: rest => (p, q) :: stepsOf (q :: rest)
  | _ => []

/-- What the steps from side to side add up to. -/
def passages (sides : List SignType) : Int := ((stepsOf sides).map fun step => passage step.1 step.2).sum

/-- What the passages add up to that go by way of samples on neither side. The
walk was last on the side `s`, and has been on neither since where `off`. -/
def throughs : SignType → Bool → List SignType → Int
  | _, _, [] => 0
  | s, off, t :: rest => if t = 0 then throughs s true rest else (if off then passage s t else 0) + throughs t false rest

/-- The side a walk is on last. -/
def lastSide : SignType → List SignType → SignType
  | s, [] => s
  | s, t :: rest => if t = 0 then lastSide s rest else lastSide t rest

theorem stepsOf_map {α β : Type*} (f : α → β) (walk : List α) : stepsOf (walk.map f) = (stepsOf walk).map (Prod.map f f) := by
  induction walk with
  | nil => rfl
  | cons p walk ih =>
    cases walk with
    | nil => rfl
    | cons q walk =>
      simp only [List.map_cons] at ih ⊢
      rw [stepsOf, ih]
      rfl

theorem stepsOf_concat {α : Type*} (walk : List α) (p q : α) : stepsOf (walk ++ [p] ++ [q]) = stepsOf (walk ++ [p]) ++ [(p, q)] := by
  induction walk with
  | nil => simp [stepsOf]
  | cons r walk ih =>
    cases walk with
    | nil => simp [stepsOf]
    | cons s walk =>
      simp only [List.cons_append] at ih ⊢
      rw [stepsOf, stepsOf, ih]
      rfl

/-- A walk there and back adds up to nothing, where each step back takes back
what the step there has added. -/
theorem return_sum {α : Type*} {f : α → α → Int} (hself : ∀ p, f p p = 0) {walk : List α}
    (hback : ∀ step ∈ stepsOf walk, f step.2 step.1 = - f step.1 step.2) :
    ((stepsOf (walk ++ walk.reverse)).map fun step => f step.1 step.2).sum = 0 := by
  induction walk with
  | nil => rfl
  | cons p walk ih =>
    cases walk with
    | nil => simp [stepsOf, hself]
    | cons q walk =>
      rw [stepsOf, List.forall_mem_cons] at hback
      obtain ⟨hfirst, hrest⟩ := hback
      have hsum := ih hrest
      have heq : p :: q :: walk ++ (p :: q :: walk).reverse = p :: q :: (walk ++ walk.reverse) ++ [q] ++ [p] := by simp
      have hinner : q :: walk ++ (q :: walk).reverse = q :: (walk ++ walk.reverse) ++ [q] := by simp
      rw [hinner] at hsum
      rw [heq, stepsOf_concat]
      simp only [List.cons_append] at hsum ⊢
      rw [stepsOf]
      simp only [List.map_append, List.map_cons, List.sum_append, List.sum_cons, List.map_nil, List.sum_nil, List.cons_append] at hsum hfirst ⊢
      omega

theorem passage_self (s : SignType) : passage s s = 0 := by
  cases s <;> rfl

theorem passage_trans {s t u : SignType} (hs : s ≠ 0) (ht : t ≠ 0) (hu : u ≠ 0) : passage s t + passage t u = passage s u := by
  revert s t u
  decide

theorem passage_zero (s : SignType) : passage s 0 = 0 ∧ passage 0 s = 0 := by
  cases s <;> exact ⟨rfl, rfl⟩

theorem lastSide_ne {s : SignType} (hs : s ≠ 0) (sides : List SignType) : lastSide s sides ≠ 0 := by
  induction sides generalizing s with
  | nil => exact hs
  | cons t rest ih =>
    rw [lastSide]
    split
    next => exact ih hs
    next ht => exact ih ht

theorem lastSide_getLast {s t : SignType} {sides : List SignType} (hlast : (s :: sides).getLast? = some t) (ht : t ≠ 0) :
    lastSide s sides = t := by
  induction sides generalizing s with
  | nil =>
    cases hlast
    rfl
  | cons u rest ih =>
    rw [List.getLast?_cons_cons] at hlast
    rw [lastSide]
    split
    next hu =>
      subst hu
      cases rest with
      | nil =>
        cases hlast
        exact absurd rfl ht
      | cons v rest => exact ih (by rw [List.getLast?_cons_cons] at hlast ⊢; exact hlast)
    next => exact ih hlast

theorem passages_cons (s t : SignType) (rest : List SignType) : passages (s :: t :: rest) = passage s t + passages (t :: rest) := by
  simp [passages, stepsOf]

/-- From where a walk is, the side it was last on or neither. -/
theorem passages_add {s : SignType} (hs : s ≠ 0) (off : Bool) (sides : List SignType) :
    passages ((if off then 0 else s) :: sides) + throughs s off sides = passage s (lastSide s sides) := by
  induction sides generalizing s off with
  | nil =>
    rw [lastSide, passage_self]
    rfl
  | cons t rest ih =>
    rw [passages_cons, throughs, lastSide]
    by_cases ht : t = 0
    · subst ht
      have hrest := ih hs true
      rw [if_pos rfl] at hrest
      rw [(passage_zero _).1, if_pos rfl, if_pos rfl, zero_add]
      exact hrest
    · have hrest := ih ht false
      rw [if_neg Bool.false_ne_true] at hrest
      rw [if_neg ht, if_neg ht, ← passage_trans hs ht (lastSide_ne ht rest), ← hrest]
      cases off with
      | false =>
        rw [if_neg Bool.false_ne_true, if_neg Bool.false_ne_true]
        omega
      | true =>
        rw [if_pos rfl, if_pos rfl, (passage_zero t).2]
        omega

/-- **A walk adds up to what its ends tell**, with the passages by way of
samples on neither side. -/
theorem passages_add_throughs {s t : SignType} {sides : List SignType} (hs : s ≠ 0) (ht : t ≠ 0)
    (hlast : (s :: sides).getLast? = some t) : passages (s :: sides) + throughs s false sides = passage s t := by
  have hadd := passages_add hs false sides
  rw [lastSide_getLast hlast ht] at hadd
  exact hadd

/-- Where all samples are on a side, there are no others. -/
theorem throughs_eq_zero {sides : List SignType} (h : ∀ t ∈ sides, t ≠ 0) (s : SignType) : throughs s false sides = 0 := by
  induction sides generalizing s with
  | nil => rfl
  | cons t rest ih =>
    rw [throughs, if_neg (h t List.mem_cons_self), ih (fun u hu => h u (List.mem_cons_of_mem _ hu))]
    rfl

end RetailVision.Lib
