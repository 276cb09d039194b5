/-
People who walk back the way they have come, and the entry line of the Python
tracker. Its `segment_crossing` asks whether the ends of the line are on
different sides of the movement, and an end that the movement goes through
counts as on the right. So what goes through an end is a crossing one way and
none the other way, and nothing else is (`back_iff`).
-/
import RetailVision.EntryLine
import RetailVision.Lib.Ordered

set_option linter.all false

namespace RetailVision.PersonTracker

open Lib (stepsOf return_sum)
open scoped RetailVision.Lib.Ordered

variable {K : Type} [Field K] [LinearOrder K]

/-- A movement from side to side of the line. -/
def Straddles (a b p q : Point K) : Prop :=
  0 < Py.cross a b p ∧ Py.cross a b q < 0 ∨ Py.cross a b p < 0 ∧ 0 < Py.cross a b q

/-- It goes exactly through an end of the segment. -/
def ThroughEnd (a b p q : Point K) : Prop := Straddles a b p q ∧ (Py.cross p q a = 0 ∨ Py.cross p q b = 0)

variable {hypot : K → K → K} {cfg : TrackerConfig K} {a b p q : Point K} {points : List (Point K)}

omit [LinearOrder K] in
theorem cross_back (a p q : Point K) : Py.cross q p a = - Py.cross p q a := by
  unfold Py.cross
  ring

variable [IsStrictOrderedRing K]

omit [IsStrictOrderedRing K] in
/-- Only what goes from side to side is a crossing. -/
theorem crossing_straddles (a b p q : Point K) : (Straddles a b p q ∧ Py.segmentCrossing a b p q =
      if 0 < Py.cross p q a ↔ 0 < Py.cross p q b then 0 else if 0 < Py.cross a b p then -1 else 1) ∨
    (¬ Straddles a b p q ∧ Py.segmentCrossing a b p q = 0) := by
  unfold Py.segmentCrossing Straddles
  dsimp only
  obtain hp | hp | hp := lt_trichotomy (Py.cross a b p) 0
  · obtain hq | hq | hq := lt_trichotomy (Py.cross a b q) 0
    · simp [hp.not_gt, hq.not_gt]
    · simp [hp.not_gt, hq]
    · simp [hp.not_gt, hp.ne, hp, hq, hq.ne']
  · simp [hp]
  · obtain hq | hq | hq := lt_trichotomy (Py.cross a b q) 0
    · simp [hq.not_gt, hp, hq, hp.ne', hq.ne]
    · simp [hp.not_gt, hq]
    · simp [hp, hq, hp.not_gt, hq.not_gt]

omit [IsStrictOrderedRing K] in
theorem straddles_back : Straddles a b q p ↔ Straddles a b p q := by
  unfold Straddles
  tauto

omit [Field K] [IsStrictOrderedRing K] in
/-- The test of the ends is the same for the negative numbers where none is zero. -/
theorem test_back_iff [Zero K] {x y : K} (hboth : ¬ (x = 0 ∧ y = 0)) :
    ((x < 0 ↔ y < 0) ↔ (0 < x ↔ 0 < y)) ↔ ¬ (x = 0 ∨ y = 0) := by
  obtain hx | hx | hx := lt_trichotomy x 0
  · obtain hy | hy | hy := lt_trichotomy y 0
    · simp [hx, hy, hx.not_gt, hy.not_gt, hx.ne, hy.ne]
    · simp [hx, hy, hx.not_gt]
    · simp [hx, hy, hx.not_gt, hy.not_gt, hx.ne, hy.ne']
  · obtain hy | hy | hy := lt_trichotomy y 0
    · simp [hx, hy, hy.not_gt]
    · exact absurd ⟨hx, hy⟩ hboth
    · simp [hx, hy, hy.not_gt]
  · obtain hy | hy | hy := lt_trichotomy y 0
    · simp [hx, hy, hx.not_gt, hy.not_gt, hx.ne', hy.ne]
    · simp [hx, hy, hx.not_gt]
    · simp [hx, hy, hx.not_gt, hy.not_gt, hx.ne', hy.ne']

/-- **A movement back takes back the movement** unless it goes through an end. -/
theorem crossing_back_iff : Py.segmentCrossing a b q p = - Py.segmentCrossing a b p q ↔ ¬ ThroughEnd a b p q := by
  have hends : Py.cross p q b - Py.cross p q a = Py.cross a b p - Py.cross a b q := lineSide_swap a b p q
  obtain ⟨hs, heq⟩ | ⟨hs, heq⟩ := crossing_straddles a b p q
  · obtain ⟨-, hback⟩ | ⟨hs', -⟩ := crossing_straddles a b q p
    · rw [heq, hback, cross_back a p q, cross_back b p q, ThroughEnd, and_iff_right hs]
      simp only [Left.neg_pos_iff]
      -- The ends are not both on the way, since the movement goes from side to side.
      have hboth : ¬ (Py.cross p q a = 0 ∧ Py.cross p q b = 0) := by
        rintro ⟨ha, hb⟩
        obtain ⟨hp, hq⟩ | ⟨hp, hq⟩ := hs <;> linarith
      have hsides : (0 < Py.cross a b q ↔ ¬ 0 < Py.cross a b p) := by
        obtain ⟨hp, hq⟩ | ⟨hp, hq⟩ := hs
        · exact iff_of_false hq.not_gt (not_not.mpr hp)
        · exact iff_of_true hq hp.not_gt
      rw [← test_back_iff hboth]
      simp only [hsides, ite_not]
      by_cases hp : 0 < Py.cross a b p <;> by_cases hthere : 0 < Py.cross p q a ↔ 0 < Py.cross p q b <;>
        by_cases hback : Py.cross p q a < 0 ↔ Py.cross p q b < 0 <;> simp [hp, hthere, hback]
    · exact absurd (straddles_back.mpr hs) hs'
  · obtain ⟨hs', -⟩ | ⟨-, hback⟩ := crossing_straddles a b q p
    · exact absurd (straddles_back.mp hs') hs
    · rw [heq, hback]
      exact ⟨fun _ hthrough => hs hthrough.1, fun _ => rfl⟩

omit [IsStrictOrderedRing K] in
theorem crossing_self (a b p : Point K) : Py.segmentCrossing a b p p = 0 := by
  simp [Py.segmentCrossing]

/-- **A walk there and back** takes itself back, in every step and in what is
counted of it, exactly where it does not go through an end of the line. -/
theorem back_iff (hypot : K → K → K) (cfg : TrackerConfig K) (setup : Setup K) {a b : Point K} {abIn : Bool}
    (hline : setup.line = some (a, b, abIn)) (points : List (Point K)) :
    ((∀ m ∈ stepsOf points, Py.segmentCrossing a b m.2 m.1 = - Py.segmentCrossing a b m.1 m.2) ∧
      ∀ (before frames : List (Frame K)) (others : List (Point K × Point K)),
        let s := Py.run hypot cfg (Py.start setup) before
        (Py.movements hypot cfg s frames).Perm (stepsOf (points ++ points.reverse) ++ others) →
          (Py.run hypot cfg s frames).net - s.net = netOf (Py.segmentCrossing a b) abIn others) ↔
    ∀ m ∈ stepsOf points, ¬ ThroughEnd a b m.1 m.2 := by
  constructor
  · intro h m hm
    exact crossing_back_iff.mp (h.1 m hm)
  · intro hends
    have hback : ∀ m ∈ stepsOf points, Py.segmentCrossing a b m.2 m.1 = - Py.segmentCrossing a b m.1 m.2 :=
      fun m hm => crossing_back_iff.mpr (hends m hm)
    refine ⟨hback, ?_⟩
    intro before frames others s hmoves
    obtain ⟨hordered, hl, hA, hB, hin⟩ := py_line hypot cfg setup hline before
    have hnet : (Py.run hypot cfg s frames).net = s.net + _ := py_net frames hordered hl
    rw [hA, hB, hin, netOf_perm hmoves, netOf_append, netOf_eq (py_crossing_cases a b) abIn (stepsOf _),
      return_sum (crossing_self a b) hback] at hnet
    omega

/-! ## A person who walks past an end of the line -/

/-- A line from the left to where the person is. -/
def shortSetup : Setup ℚ := ⟨none, some ((0, 0.55), (0.5, 0.55), true)⟩

/-- Off the end of the line, walking back takes back what walking has added. -/
theorem back_iff_off_end :
    (Py.run axisHypot (.default ℚ) (Py.run axisHypot (.default ℚ) (Py.start lineSetup) [feetFrame 0.5 1])
        [feetFrame 0.6 2, feetFrame 0.6 3, feetFrame 0.5 4]).net -
      (Py.run axisHypot (.default ℚ) (Py.start lineSetup) [feetFrame 0.5 1]).net = netOf (Py.segmentCrossing lineA lineB) true [] :=
  ((back_iff axisHypot (.default ℚ) lineSetup rfl [(0.5, 0.5), (0.5, 0.6)]).mpr (by unfold ThroughEnd Straddles; decide +kernel)).2
    [feetFrame 0.5 1] [feetFrame 0.6 2, feetFrame 0.6 3, feetFrame 0.5 4] [] (List.Perm.of_eq (by decide +kernel))

/-- Through the end, walking is counted and walking back is not. -/
theorem not_back : Py.segmentCrossing (0, 0.55) (0.5, 0.55) ((0.5, 0.5) : Point ℚ) (0.5, 0.6) = 1 ∧
    Py.segmentCrossing (0, 0.55) (0.5, 0.55) ((0.5, 0.6) : Point ℚ) (0.5, 0.5) = 0 ∧
    Py.movements axisHypot (.default ℚ) (Py.run axisHypot (.default ℚ) (Py.start shortSetup) [feetFrame 0.5 1])
        [feetFrame 0.6 2, feetFrame 0.6 3, feetFrame 0.5 4] =
      stepsOf ([(0.5, 0.5), (0.5, 0.6)] ++ [(0.5, 0.5), (0.5, 0.6)].reverse) ∧
    (Py.run axisHypot (.default ℚ) (Py.start shortSetup)
      [feetFrame 0.5 1, feetFrame 0.6 2, feetFrame 0.6 3, feetFrame 0.5 4]).entryCount = 1 ∧
    (Py.run axisHypot (.default ℚ) (Py.start shortSetup)
      [feetFrame 0.5 1, feetFrame 0.6 2, feetFrame 0.6 3, feetFrame 0.5 4]).exitCount = 0 := by
  decide +kernel

end RetailVision.PersonTracker
