/-
Numbers up to whole turns: the distances from nought of all the numbers that
differ from `x` by whole turns `p`. Within half a turn of nought, `x` itself is
the closest one (`least_turns`).
-/
import RetailVision.Lib.Ordered
import Mathlib.Algebra.Order.Field.Basic
import Mathlib.Order.Bounds.Basic
import Mathlib.Tactic.Linarith
import Mathlib.Tactic.Ring

set_option linter.all false

namespace RetailVision.Lib

open scoped RetailVision.Lib.Ordered

variable {K : Type*} [Field K] [LinearOrder K]

/-- How far from nought the numbers are that are whole turns from `x`. -/
def turns (p x : K) : Set K := Set.range fun k : ℤ => |x + p * k|

theorem abs_mem_turns (p x : K) : |x| ∈ turns p x := ⟨0, by simp⟩

/-- They are those of any of these numbers. -/
theorem turns_add (p x : K) (m : ℤ) : turns p (x + p * m) = turns p x := by
  ext d
  constructor
  · intro hd
    obtain ⟨k, rfl⟩ := hd
    refine ⟨m + k, ?_⟩
    simp only [Int.cast_add]
    ring_nf
  · intro hd
    obtain ⟨k, rfl⟩ := hd
    refine ⟨k - m, ?_⟩
    simp only [Int.cast_sub]
    ring_nf

variable [IsStrictOrderedRing K] {p x d : K}

/-- **Within half a turn** nothing is closer. -/
theorem least_turns (h : |x| ≤ p / 2) : IsLeast (turns p x) |x| := by
  refine ⟨abs_mem_turns p x, fun d hd => ?_⟩
  obtain ⟨k, rfl⟩ := hd
  obtain ⟨hlow, hhigh⟩ := abs_le.mp h
  have hp : 0 ≤ p := by linarith [abs_nonneg x]
  rcases lt_trichotomy k 0 with hneg | rfl | hpos
  · have hk : (k : K) ≤ -1 := by exact_mod_cast Int.le_sub_one_of_lt hneg
    have hturn : p * k ≤ -p := (mul_le_mul_of_nonneg_left hk hp).trans_eq (mul_neg_one p)
    calc |x| ≤ p / 2 := h
      _ ≤ -(x + p * k) := by linarith
      _ ≤ |x + p * k| := neg_le_abs _
  · simp
  · have hk : (1 : K) ≤ k := by exact_mod_cast hpos
    have hturn : p ≤ p * k := le_mul_of_one_le_right hp hk
    calc |x| ≤ p / 2 := h
      _ ≤ x + p * k := by linarith
      _ ≤ |x + p * k| := le_abs_self _

/-- Within a whole turn, but not within half a turn, the closest one is on the other side. -/
theorem least_turns_beyond (hhalf : p / 2 < |x|) (h : |x| ≤ p) : IsLeast (turns p x) (p - |x|) := by
  have hp : 0 ≤ p := (abs_nonneg x).trans h
  rcases le_total 0 x with hx | hx
  · rw [abs_of_nonneg hx] at hhalf h ⊢
    have hother : |x + p * (-1 : ℤ)| = p - x := by
      rw [abs_of_nonpos (by push_cast; linarith)]
      push_cast
      ring
    rw [← turns_add p x (-1), ← hother]
    exact least_turns (by rw [hother]; linarith)
  · rw [abs_of_nonpos hx] at hhalf h ⊢
    have hother : |x + p * (1 : ℤ)| = p - -x := by
      rw [abs_of_nonneg (by push_cast; linarith)]
      push_cast
      ring
    rw [← turns_add p x 1, ← hother]
    exact least_turns (by rw [hother]; linarith)

end RetailVision.Lib
