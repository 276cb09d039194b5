/-
The value between the elements of a sorted list: at a whole number it is the element
there, and from one to the next it goes straight. So it rises from the first to the
last (`interpolate_mono`).
-/
import RetailVision.Lib.Ordered
import Mathlib.Algebra.Order.Field.Basic
import Mathlib.Algebra.Order.Floor.Semiring
import Mathlib.Data.List.GetD
import Mathlib.Tactic.Linarith

set_option linter.all false

namespace RetailVision.Lib

open scoped RetailVision.Lib.Ordered

variable {K : Type*} [Field K] [LinearOrder K] [IsStrictOrderedRing K] {s : List K} {x y : K} {i j : Nat}

def interpolate [FloorSemiring K] (s : List K) (x : K) : K :=
  let lo := ⌊x⌋₊
  let hi := min (lo + 1) (s.length - 1)
  s.getD lo 0 + (s.getD hi 0 - s.getD lo 0) * (x - lo)

omit [IsStrictOrderedRing K] in
theorem getD_le_getD (hs : s.Pairwise (· ≤ ·)) (hij : i ≤ j) (hj : j < s.length) : s.getD i 0 ≤ s.getD j 0 := by
  rw [List.getD_eq_getElem _ _ (Nat.lt_of_le_of_lt hij hj), List.getD_eq_getElem _ _ hj]
  rcases Nat.eq_or_lt_of_le hij with rfl | hlt
  · exact le_refl _
  · exact List.pairwise_iff_getElem.mp hs i j _ hj hlt

variable [FloorSemiring K]

omit [IsStrictOrderedRing K] in
theorem floor_lt_length (hx : 0 ≤ x) (hlen : x < s.length) : ⌊x⌋₊ < s.length := (Nat.floor_lt hx).mpr hlen

/-- Between two elements the value is between them. -/
theorem interpolate_between (hs : s.Pairwise (· ≤ ·)) (hx : 0 ≤ x) (hlen : x < s.length) :
    s.getD ⌊x⌋₊ 0 ≤ interpolate s x ∧ interpolate s x ≤ s.getD (min (⌊x⌋₊ + 1) (s.length - 1)) 0 := by
  have hfloor := floor_lt_length hx hlen
  have hstep : s.getD ⌊x⌋₊ 0 ≤ s.getD (min (⌊x⌋₊ + 1) (s.length - 1)) 0 := getD_le_getD hs (by omega) (by omega)
  have hfrac : 0 ≤ x - ⌊x⌋₊ := sub_nonneg.mpr (Nat.floor_le hx)
  have hfrac' : x - ⌊x⌋₊ ≤ 1 := by linarith [Nat.lt_floor_add_one x]
  have hnonneg := mul_nonneg (sub_nonneg.mpr hstep) hfrac
  have hle := mul_le_of_le_one_right (sub_nonneg.mpr hstep) hfrac'
  unfold interpolate
  constructor <;> linarith

theorem interpolate_mono (hs : s.Pairwise (· ≤ ·)) (hx : 0 ≤ x) (hxy : x ≤ y) (hlen : y < s.length) :
    interpolate s x ≤ interpolate s y := by
  have hy := hx.trans hxy
  rcases Nat.eq_or_lt_of_le (Nat.floor_le_floor hxy) with hsame | hnext
  · have hfloor := floor_lt_length hy hlen
    have hstep : s.getD ⌊y⌋₊ 0 ≤ s.getD (min (⌊y⌋₊ + 1) (s.length - 1)) 0 := getD_le_getD hs (by omega) (by omega)
    have hrise := mul_le_mul_of_nonneg_left (sub_le_sub_right hxy (⌊y⌋₊ : K)) (sub_nonneg.mpr hstep)
    simp only [interpolate, hsame]
    linarith
  · have hfloor := floor_lt_length hy hlen
    calc
      interpolate s x ≤ s.getD (min (⌊x⌋₊ + 1) (s.length - 1)) 0 := (interpolate_between hs hx (hxy.trans_lt hlen)).2
      _ ≤ s.getD ⌊y⌋₊ 0 := getD_le_getD hs (by omega) hfloor
      _ ≤ interpolate s y := (interpolate_between hs hy hlen).1

end RetailVision.Lib
