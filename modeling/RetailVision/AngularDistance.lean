/-
The wrong-way test of the direction analyzer with exact numbers. `ang_diff` was
written for angles of one turn, and `wrap_deg` is there to bring an angle into
one; the movement's angle goes through it, the expected angle does not, and
`parse_cfg` takes any number for it (`takes_any_angle`). So the difference is
the angular distance exactly where the two are at most a turn apart
(`byDistance_iff`).
-/
import RetailVision.DirectionAnalyzer
import RetailVision.Lib.Turns
import RetailVision.Lib.Ordered

set_option linter.all false

namespace RetailVision.Vb

open scoped RetailVision.Lib.Ordered

/-- The numbers of an ordered field. -/
@[reducible] def Num.ofField {K : Type} [Field K] [LinearOrder K] (hypot : K → K → K) : Num K where
  hypot := hypot
  decLt := inferInstance
  decLe := inferInstance

@[reducible] def Casts.exact (K : Type) : Casts K K where
  toFloat := id
  toDouble := id

namespace DirectionAnalyzer

open Lib (turns least_turns least_turns_beyond)
open RetailVision.Analyzers (directionCfg DirectionCfg)

variable {K : Type} [Field K] [LinearOrder K] (hypot : K → K → K)

/-- `judge`, with exact numbers. -/
def judgeExactly (cfg : Cfg K K) (ang : K) : K × Way := @judge K K (Num.ofField hypot) (Casts.exact K) cfg ang

/-- The difference is the angular distance, and decides. -/
def ByDistance (cfg : Cfg K K) (ang : K) : Prop :=
  ∃ dist, IsLeast (turns 360 (ang - cfg.expectedDeg)) dist ∧ (judgeExactly hypot cfg ang).1 = dist ∧ 0 ≤ dist ∧ dist ≤ 180 ∧
    ((judgeExactly hypot cfg ang).2 = .wrong ↔ cfg.toleranceDeg < dist)

variable [IsStrictOrderedRing K] {hypot}

theorem fabs_exact (x : K) : @fabs K (Num.ofField hypot) x = |x| := by
  have hfabs : @fabs K (Num.ofField hypot) x = if x < (0.0 : K) then -x else x := rfl
  have hzero : (0.0 : K) = 0 := by norm_num
  rw [hfabs, hzero]
  split
  · next h => rw [abs_of_neg h]
  · next h => rw [abs_of_nonneg (not_lt.mp h)]

theorem angDiff_exact (a b : K) : @angDiff K (Num.ofField hypot) a b = if 180 < |a - b| then 360 - |a - b| else |a - b| := by
  have hdiff : @angDiff K (Num.ofField hypot) a b =
      if (180.0 : K) < @fabs K (Num.ofField hypot) (a - b) then (360.0 : K) - @fabs K (Num.ofField hypot) (a - b)
      else @fabs K (Num.ofField hypot) (a - b) := rfl
  have hhalf : (180.0 : K) = 180 := by norm_num
  have hturn : (360.0 : K) = 360 := by norm_num
  rw [hdiff, fabs_exact, hhalf, hturn]

omit [IsStrictOrderedRing K] in
/-- The raw value goes by the difference. -/
theorem judged_wrong (cfg : Cfg K K) (ang : K) :
    (judgeExactly hypot cfg ang).2 = .wrong ↔ cfg.toleranceDeg < (judgeExactly hypot cfg ang).1 := by
  have hraw : (judgeExactly hypot cfg ang).2 =
      if cfg.toleranceDeg < (judgeExactly hypot cfg ang).1 then .wrong else .ok := rfl
  rw [hraw]
  split <;> simp [*]

/-- **The wrong-way test** is one of angular distance exactly for a movement
and an expected angle that are at most a turn apart. -/
theorem byDistance_iff (cfg : Cfg K K) (ang : K) : ByDistance hypot cfg ang ↔ |ang - cfg.expectedDeg| ≤ 360 := by
  have hdiff : (judgeExactly hypot cfg ang).1 =
      if 180 < |ang - cfg.expectedDeg| then 360 - |ang - cfg.expectedDeg| else |ang - cfg.expectedDeg| := angDiff_exact _ _
  by_cases hhalf : 180 < |ang - cfg.expectedDeg|
  · rw [if_pos hhalf] at hdiff
    constructor
    · intro h
      obtain ⟨dist, -, heq, hpos, -, -⟩ := h
      linarith
    · intro h
      have hleast := least_turns_beyond (by linarith : (360 : K) / 2 < |ang - cfg.expectedDeg|) h
      exact ⟨_, hleast, hdiff, by linarith, by linarith, hdiff ▸ judged_wrong cfg ang⟩
  · rw [if_neg hhalf] at hdiff
    have hle : |ang - cfg.expectedDeg| ≤ 180 := not_lt.mp hhalf
    have hleast := least_turns (by linarith : |ang - cfg.expectedDeg| ≤ (360 : K) / 2)
    exact iff_of_true ⟨_, hleast, hdiff, abs_nonneg _, hle, hdiff ▸ judged_wrong cfg ang⟩ (by linarith)

/-- Any number is taken for the expected angle. -/
theorem takes_any_angle {F : Type} (ar : Arith F) (v : Json) {x : F64} {f : F} (h : v.number ar = some (x, f)) :
    ∃ c : DirectionCfg F, directionCfg ar (.obj [("expected_deg", v)]) = .ok c ∧ c.expectedDeg = f := by
  have hnumber : Analyzers.optNumber ar "direction" "expected_deg" "expected_deg must be a number" (fun _ => false)
      (.obj [("expected_deg", v)]) = .ok (some (x, f)) := by
    have hfind : (Json.obj [("expected_deg", v)]).find "expected_deg" = some v := rfl
    cases v with
    | int i => simp only [Analyzers.optNumber, hfind, h, Bool.false_eq_true, if_false]
    | float y => simp only [Analyzers.optNumber, hfind, h, Bool.false_eq_true, if_false]
    | _ => cases h
  refine ⟨{
    expectedDeg := f
    toleranceDeg := ar.lit 60
    minTravel := ar.lit (5 / 100)
    windowS := .fin (3 / 2)
    holdS := .fin (1 / 2)
    zones := []
    anchor := "bottom_center"
    classes := [] }, ?_, rfl⟩
  rw [directionCfg, hnumber]
  rfl

/-- Upwards, as `-90`. -/
def upwards : Cfg ℚ ℚ where
  expectedDeg := -90
  toleranceDeg := 20
  minTravel := 1 / 20
  windowS := 3 / 2
  holdS := 1 / 2
  zones := []
  anchor := "bottom_center"
  classes := []

theorem byDistance_upwards : ByDistance (fun x y => max |x| |y|) upwards 200 :=
  (byDistance_iff upwards 200).mpr (by decide +kernel)

/-- A movement of 300 degrees is 30 degrees off, which is more than 20. -/
theorem not_byDistance : ¬ ByDistance (fun x y => max |x| |y|) upwards 300 ∧
    judgeExactly (fun x y => max |x| |y|) upwards 300 = (-30, .ok) := by
  refine ⟨fun h => ?_, by decide +kernel⟩
  obtain ⟨dist, -, heq, hpos, -⟩ := h
  have hdiff : (judgeExactly (fun x y => max |x| |y|) upwards 300).1 = -30 := by decide +kernel
  linarith

end DirectionAnalyzer

end RetailVision.Vb
