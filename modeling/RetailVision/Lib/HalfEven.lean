/-
Rounding to the nearest integer, halves to the even one.
-/
import RetailVision.Lib.Ordered
import Mathlib.Algebra.Order.Round
import Mathlib.Tactic.Linarith
import Mathlib.Tactic.Ring

set_option linter.all false

namespace RetailVision.Lib

open scoped RetailVision.Lib.Ordered

variable {K : Type*} [Field K] [LinearOrder K] [IsStrictOrderedRing K] [FloorRing K] {x : K} {n : Int}

def roundEven (x : K) : Int := if Int.fract x + Int.fract x = 1 then ⌊x⌋ + ⌊x⌋ % 2 else round x

theorem roundEven_intCast (n : Int) : roundEven (n : K) = n := by simp [roundEven]

/-- Below the half it is the integer below, above the half the one above, at the
half the even one of them. -/
theorem roundEven_eq (x : K) :
    roundEven x =
      if x - ⌊x⌋ > 1 / 2 then ⌊x⌋ + 1 else if x - ⌊x⌋ < 1 / 2 then ⌊x⌋ else if ⌊x⌋ % 2 = 0 then ⌊x⌋ else ⌊x⌋ + 1 := by
  have hfract : Int.fract x = x - ⌊x⌋ := rfl
  have hnonneg := Int.fract_nonneg x
  have hone := Int.fract_lt_one x
  unfold roundEven
  rw [hfract] at *
  rcases lt_trichotomy (x - ⌊x⌋) (1 / 2) with hr | hr | hr
  · have hround : round x = ⌊x⌋ := by
      rw [round_eq_iff, Set.mem_Ico]
      exact ⟨by linarith, by linarith⟩
    rw [if_neg (by intro; linarith), if_neg hr.not_gt, if_pos hr, hround]
  · rw [if_pos (by linarith), if_neg hr.not_gt, if_neg hr.not_lt]
    split_ifs with heven
    · omega
    · omega
  · have hround : round x = ⌊x⌋ + 1 := by
      rw [round_eq_iff, Set.mem_Ico]
      push_cast
      exact ⟨by linarith, by linarith⟩
    rw [if_neg (by intro; linarith), if_pos hr, hround]

theorem roundEven_le_floor_add (x : K) : roundEven x ≤ ⌊x⌋ + 1 := by
  rw [roundEven_eq]
  split_ifs <;> omega

/-- Rounding does not go beyond an integer. -/
theorem roundEven_le (h : x ≤ n) : roundEven x ≤ n := by
  rcases h.lt_or_eq with hlt | rfl
  · have := Int.floor_lt.mpr hlt
    have := roundEven_le_floor_add x
    omega
  · rw [roundEven_intCast]

theorem floor_le_roundEven (x : K) : ⌊x⌋ ≤ roundEven x := by
  rw [roundEven_eq]
  split_ifs <;> omega

theorem le_roundEven (h : n ≤ x) : n ≤ roundEven x := (Int.le_floor.mpr h).trans (floor_le_roundEven x)

theorem le_roundEven_add (x : K) : x ≤ roundEven x + 1 / 2 := by
  have hfloor := Int.floor_le x
  have hlt := Int.lt_floor_add_one x
  rw [roundEven_eq]
  split_ifs <;> push_cast <;> linarith

end RetailVision.Lib
