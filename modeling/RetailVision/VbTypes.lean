/-
The types that the native core shares (`vb/types.h`), and its numbers. `F`
stands for `float` and `D` for `double`: of their arithmetic nothing is
assumed, so that what is proved of them holds of rounded numbers, infinities
and NaN as well; where a result needs exact numbers, it says so.
-/
import Mathlib.Algebra.Order.Ring.Rat

set_option linter.all false

namespace RetailVision.Vb

/-- Numbers, as far as the code computes with them. -/
class Num (K : Type) extends Add K, Sub K, Mul K, Div K, Neg K, LT K, LE K, OfScientific K, IntCast K where
  /-- `std::hypot` -/
  hypot : K → K → K
  decLt : DecidableLT K
  decLe : DecidableLE K

attribute [reducible, instance] Num.decLt Num.decLe

/-- The conversions between the two. -/
class Casts (F D : Type) where
  toFloat : D → F
  toDouble : F → D

/-- Exact numbers. Of a leg of length zero the hypotenuse is the other leg; of
two others it is not a rational number in general. -/
instance : Num ℚ where
  hypot x y := max |x| |y|
  decLt := inferInstance
  decLe := inferInstance

instance : Casts ℚ ℚ where
  toFloat := id
  toDouble := id

/-- Numbers whose order and differences are those of numbers. All exact ones
are such, and so are doubles but NaN and the infinities. -/
structure Num.Ordered (K : Type) [Num K] : Prop where
  refl : ∀ x : K, x ≤ x
  sub_nonneg : ∀ x y : K, x ≤ y → 0.0 ≤ y - x

theorem Num.ordered_rat : Num.Ordered ℚ where
  refl := fun x => le_refl x
  sub_nonneg := fun x y h => by
    have hzero : (0.0 : ℚ) = 0 := by decide +kernel
    rw [hzero]
    exact sub_nonneg.mpr h

inductive Align
  | center
  | topLeft
  deriving DecidableEq

structure LetterboxGeom (F : Type) where
  srcW : Int
  srcH : Int
  modelW : Int
  modelH : Int
  scale : F
  padX : F
  padY : F
  align : Align

structure Keypoint (F : Type) where
  x : F
  y : F
  conf : F

structure Detection (F : Type) where
  cx : F
  cy : F
  w : F
  h : F
  score : F
  classId : Int32
  trackId : UInt32
  kptOffset : UInt32
  kptCount : UInt32

/-- `to_source_norm` (`letterbox.cpp`) -/
def LetterboxGeom.toSourceNorm {F : Type} [Num F] (g : LetterboxGeom F) (mx my : F) : F × F :=
  let px := mx * (g.modelW : F)
  let py := my * (g.modelH : F)
  (((px - g.padX) / g.scale) / (g.srcW : F), ((py - g.padY) / g.scale) / (g.srcH : F))

end RetailVision.Vb
