/-
People who walk over the entry line of a person tracker. Each movement of a
frame is judged by itself, and one that begins or ends exactly on the line is no
crossing. So a walk over the line is counted exactly where the passages that go
by way of points on the line make up for each other, as they do where there are
no such points (`walk_counted_iff`).
-/
import RetailVision.TrackStories
import RetailVision.Lib.Passages
import RetailVision.Lib.Ordered
import Mathlib.Tactic.LinearCombination
import Mathlib.Tactic.Linarith
import Mathlib.Tactic.FieldSimp

set_option linter.all false

namespace RetailVision.PersonTracker

open Lib (passage passages stepsOf throughs passages_add_throughs)
open scoped RetailVision.Lib.Ordered

variable {K : Type} [Field K] [LinearOrder K]

/-- Positive on the left of the line. -/
def sideOf (a b p : Point K) : SignType := SignType.sign (Cpp.lineSide a b p)

/-- A point on the way from `p` to `q`. -/
def between (p q : Point K) (t : K) : Point K := (p.1 + t * (q.1 - p.1), p.2 + t * (q.2 - p.2))

/-- A walk meets the line through `a` and `b` strictly inside the segment only. -/
def MeetsInside (a b : Point K) (points : List (Point K)) : Prop :=
  ∀ step ∈ stepsOf points, ∀ t, 0 ≤ t → t ≤ 1 → Cpp.lineSide a b (between step.1 step.2 t) = 0 →
    ∃ u, 0 < u ∧ u < 1 ∧ between step.1 step.2 t = between a b u

/-- Entries less exits. -/
def Tracker.net (s : Tracker K) : Int := s.entryCount - s.exitCount

/-- What movements add to it. -/
def netOf (crossing : Point K → Point K → Int) (abIn : Bool) (moves : List (Point K × Point K)) : Int :=
  counted crossing abIn moves - counted crossing (!abIn) moves

/-- A crossing from the left is an entry where `abIn`. -/
def direction (abIn : Bool) : Int := if abIn then 1 else -1

/-- The movements of the persons that are matched in some frames. -/
def Cpp.movements (hypot : K → K → K) (cfg : TrackerConfig K) (s : Tracker K) : List (ClassedFrame K) → List (Point K × Point K)
  | [] => []
  | f :: frames => moves s.tracks f.persons.1 (matchDetections hypot cfg s.tracks f.persons.1) ++
      movements hypot cfg (update hypot cfg s f.1 f.2) frames

def Py.movements (hypot : K → K → K) (cfg : TrackerConfig K) (s : Tracker K) : List (Frame K) → List (Point K × Point K)
  | [] => []
  | f :: frames => moves s.tracks f.1 (matchDetections hypot cfg s.tracks f.1) ++
      movements hypot cfg (update hypot cfg s f.1 f.2) frames

variable {hypot : K → K → K} {cfg : TrackerConfig K} {s : Tracker K} {a b p q : Point K} {points : List (Point K)}

/-! ## A movement -/

omit [LinearOrder K] in
theorem lineSide_between (a b p q : Point K) (t : K) :
    Cpp.lineSide a b (between p q t) = (1 - t) * Cpp.lineSide a b p + t * Cpp.lineSide a b q := by
  unfold Cpp.lineSide between
  ring

omit [LinearOrder K] in
/-- The ends of the segment, seen from the movement. -/
theorem lineSide_swap (a b p q : Point K) :
    Cpp.lineSide p q b - Cpp.lineSide p q a = Cpp.lineSide a b p - Cpp.lineSide a b q := by
  unfold Cpp.lineSide
  ring

/-- A movement that meets the line inside the segment passes between its ends. -/
theorem ends_apart {t : K} (hinside : ∃ u, 0 < u ∧ u < 1 ∧ between p q t = between a b u) :
    ∃ u, 0 < u ∧ u < 1 ∧ Cpp.lineSide p q a = -(u * (Cpp.lineSide a b p - Cpp.lineSide a b q)) ∧
      Cpp.lineSide p q b = (1 - u) * (Cpp.lineSide a b p - Cpp.lineSide a b q) := by
  obtain ⟨u, hu0, hu1, heq⟩ := hinside
  have hon : Cpp.lineSide p q (between p q t) = 0 := by
    unfold Cpp.lineSide between
    ring
  have hab := lineSide_between p q a b u
  rw [← heq, hon] at hab
  have hswap := lineSide_swap a b p q
  refine ⟨u, hu0, hu1, ?_, ?_⟩
  · linear_combination -hab - u * hswap
  · linear_combination -hab + (1 - u) * hswap

variable [IsStrictOrderedRing K]

/-- A movement from a side to the other meets the line. -/
theorem meets_line (h : 0 < Cpp.lineSide a b p ∧ Cpp.lineSide a b q < 0 ∨ Cpp.lineSide a b p < 0 ∧ 0 < Cpp.lineSide a b q) :
    ∃ t, 0 ≤ t ∧ t ≤ 1 ∧ Cpp.lineSide a b (between p q t) = 0 := by
  have hne : Cpp.lineSide a b p - Cpp.lineSide a b q ≠ 0 := by
    obtain ⟨hp, hq⟩ | ⟨hp, hq⟩ := h
    · exact (by linarith : (0 : K) < _).ne'
    · exact (by linarith : _ < (0 : K)).ne
  refine ⟨Cpp.lineSide a b p / (Cpp.lineSide a b p - Cpp.lineSide a b q), ?_, ?_, ?_⟩
  · obtain ⟨hp, hq⟩ | ⟨hp, hq⟩ := h
    · exact div_nonneg hp.le (by linarith)
    · exact div_nonneg_of_nonpos hp.le (by linarith)
  · obtain ⟨hp, hq⟩ | ⟨hp, hq⟩ := h
    · exact (div_le_one (by linarith)).mpr (by linarith)
    · exact (div_le_one_of_neg (by linarith)).mpr (by linarith)
  · rw [lineSide_between]
    field_simp
    ring

/-- **A movement** that meets the line inside the segment, if it does, is judged
by the sides of its ends. -/
theorem crossing_eq (h : MeetsInside a b [p, q]) :
    Cpp.segmentCrossing a b p q = passage (sideOf a b p) (sideOf a b q) ∧
      Py.segmentCrossing a b p q = - passage (sideOf a b p) (sideOf a b q) := by
  have hcross : ∀ a b p : Point K, Py.cross a b p = Cpp.lineSide a b p := fun _ _ _ => rfl
  -- Seen from a movement from side to side, the ends of the segment are on different sides.
  have hends : ∀ hopposite : 0 < Cpp.lineSide a b p ∧ Cpp.lineSide a b q < 0 ∨ Cpp.lineSide a b p < 0 ∧ 0 < Cpp.lineSide a b q,
      Cpp.lineSide p q a ≠ 0 ∧ Cpp.lineSide p q b ≠ 0 ∧ ¬ (0 < Cpp.lineSide p q a ↔ 0 < Cpp.lineSide p q b) := by
    intro hopposite
    obtain ⟨t, ht0, ht1, ht⟩ := meets_line hopposite
    obtain ⟨u, hu0, hu1, ha, hb⟩ := ends_apart (h (p, q) (by simp [stepsOf]) t ht0 ht1 ht)
    have hu1' : 0 < 1 - u := by linarith
    rw [ha, hb]
    obtain ⟨hp, hq⟩ | ⟨hp, hq⟩ := hopposite
    · have hd : 0 < Cpp.lineSide a b p - Cpp.lineSide a b q := by linarith
      have h1 := mul_pos hu0 hd
      have h2 := mul_pos hu1' hd
      exact ⟨by linarith, h2.ne', fun hiff => absurd (hiff.mpr h2) (by linarith)⟩
    · have hd : Cpp.lineSide a b p - Cpp.lineSide a b q < 0 := by linarith
      have h1 := mul_neg_of_pos_of_neg hu0 hd
      have h2 := mul_neg_of_pos_of_neg hu1' hd
      exact ⟨by linarith, h2.ne, fun hiff => absurd (hiff.mp (by linarith)) (by linarith)⟩
  unfold Cpp.segmentCrossing Py.segmentCrossing sideOf
  simp only [hcross]
  obtain hp | hp | hp := lt_trichotomy (Cpp.lineSide a b p) 0
  · obtain hq | hq | hq := lt_trichotomy (Cpp.lineSide a b q) 0
    · simp [hp.not_gt, hq.not_gt, hp, hq, passage]
    · simp [hq, passage]
    · obtain ⟨ha, hb, hnot⟩ := hends (.inr ⟨hp, hq⟩)
      simp [hp.not_gt, hp.ne, hp, hq, hq.ne', ha, hb, hnot, passage]
  · simp [hp, passage]
  · obtain hq | hq | hq := lt_trichotomy (Cpp.lineSide a b q) 0
    · obtain ⟨ha, hb, hnot⟩ := hends (.inl ⟨hp, hq⟩)
      simp [hq.not_gt, hp, hq, hp.ne', hq.ne, ha, hb, hnot, passage]
    · simp [hq, passage]
    · simp [hp, hq, passage]

/-! ## A walk -/

/-- **A walk** is judged by the sides of its points. -/
theorem walk_sum (h : MeetsInside a b points) :
    ((stepsOf points).map fun m => Cpp.segmentCrossing a b m.1 m.2).sum = passages (points.map (sideOf a b)) ∧
      ((stepsOf points).map fun m => Py.segmentCrossing a b m.1 m.2).sum = - passages (points.map (sideOf a b)) := by
  have hstep : ∀ m ∈ stepsOf points, MeetsInside a b [m.1, m.2] := by
    intro m hm step hs
    have hs : step = m := by simpa [stepsOf] using hs
    exact hs ▸ h m hm
  have hcpp : (stepsOf points).map (fun m => Cpp.segmentCrossing a b m.1 m.2) =
      (stepsOf points).map fun m => passage (sideOf a b m.1) (sideOf a b m.2) :=
    List.map_congr_left fun m hm => (crossing_eq (hstep m hm)).1
  have hpy : (stepsOf points).map (fun m => Py.segmentCrossing a b m.1 m.2) =
      (stepsOf points).map fun m => - passage (sideOf a b m.1) (sideOf a b m.2) :=
    List.map_congr_left fun m hm => (crossing_eq (hstep m hm)).2
  have hneg : ∀ moves : List (Point K × Point K), (moves.map fun m => - passage (sideOf a b m.1) (sideOf a b m.2)).sum =
      - (moves.map fun m => passage (sideOf a b m.1) (sideOf a b m.2)).sum := by
    intro moves
    induction moves with
    | nil => rfl
    | cons m moves ih =>
      rw [List.map_cons, List.sum_cons, ih, List.map_cons, List.sum_cons]
      omega
  rw [hcpp, hpy, hneg, passages, Lib.stepsOf_map, List.map_map]
  exact ⟨rfl, rfl⟩

/-! ## What is counted -/

omit [Field K] [LinearOrder K] [IsStrictOrderedRing K] in
theorem netOf_append (f : Point K → Point K → Int) (abIn : Bool) (xs ys : List (Point K × Point K)) :
    netOf f abIn (xs ++ ys) = netOf f abIn xs + netOf f abIn ys := by
  simp only [netOf, counted, List.countP_append]
  omega

omit [Field K] [LinearOrder K] [IsStrictOrderedRing K] in
theorem netOf_perm {f : Point K → Point K → Int} {abIn : Bool} {xs ys : List (Point K × Point K)} (h : xs.Perm ys) :
    netOf f abIn xs = netOf f abIn ys := by
  simp only [netOf, counted, h.countP_eq]

omit [Field K] [LinearOrder K] [IsStrictOrderedRing K] in
theorem netOf_eq {f : Point K → Point K → Int} (hf : ∀ p q, f p q = 0 ∨ f p q = 1 ∨ f p q = -1) (abIn : Bool)
    (moves : List (Point K × Point K)) : netOf f abIn moves = direction abIn * (moves.map fun m => f m.1 m.2).sum := by
  induction moves with
  | nil => simp [netOf, counted]
  | cons m moves ih =>
    rw [← List.singleton_append, netOf_append, ih, List.map_append, List.sum_append, Int.mul_add]
    congr 1
    obtain h | h | h := hf m.1 m.2 <;> cases abIn <;> simp [netOf, counted, direction, h]

theorem direction_inj (abIn : Bool) {x y : Int} : direction abIn * x = direction abIn * y ↔ x = y := by
  cases abIn <;> simp [direction]

omit [IsStrictOrderedRing K] in
theorem py_crossing_cases (a b p q : Point K) : Py.segmentCrossing a b p q = 0 ∨ Py.segmentCrossing a b p q = 1 ∨
    Py.segmentCrossing a b p q = -1 := by
  obtain h | ⟨-, h⟩ := py_crossing a b p q
  · obtain hc | hc | hc := cpp_crossing_cases a b p q <;> omega
  · exact .inr h

/-! ## Runs -/

omit [IsStrictOrderedRing K] in
/-- **A run with an entry line** counts the movements of its frames. -/
theorem cpp_net (frames : List (ClassedFrame K)) (hs : s.Ordered) (hl : s.lineEnabled = true) :
    (Cpp.updates hypot cfg s frames).net =
      s.net + netOf (Cpp.segmentCrossing s.lineA s.lineB) s.lineAbIn (Cpp.movements hypot cfg s frames) := by
  induction frames generalizing s with
  | nil => simp [Cpp.updates, Cpp.movements, netOf, counted]
  | cons f frames ih =>
    obtain ⟨hsetup, hs'⟩ := setup_update hypot cfg f.persons.1 f.2 hs
    obtain ⟨-, hentries, hexits⟩ := update_counts hypot cfg f.persons.1 f.2
      hs hl 0 0
    rw [← cpp_update_persons] at hsetup hs' hentries hexits
    simp only [Tracker.setup, Prod.mk.injEq] at hsetup
    obtain ⟨hl', hA, hB, hin, -⟩ := hsetup
    have hrun : Cpp.updates hypot cfg s (f :: frames) = Cpp.updates hypot cfg (Cpp.update hypot cfg s f.1 f.2) frames := rfl
    have hcross : s.crossing Cpp.segmentCrossing = Cpp.segmentCrossing s.lineA s.lineB := by
      funext p0 p1
      rw [Tracker.crossing, if_pos hl]
    have hnet : (Cpp.update hypot cfg s f.1 f.2).net = s.net +
        netOf (Cpp.segmentCrossing s.lineA s.lineB) s.lineAbIn (movesOf hypot cfg s f.persons.1) := by
      rw [Tracker.net, hentries, hexits, hcross, Tracker.net, netOf]
      omega
    rw [hrun, ih hs' (hl'.trans hl), hA, hB, hin, hnet, Cpp.movements, netOf_append]
    exact Int.add_assoc _ _ _

omit [IsStrictOrderedRing K] in
variable (hypot cfg) in
/-- A frame of the Python tracker leaves the line alone, and the tracks in order. -/
theorem py_setup (hs : s.Ordered) (f : Frame K) : (Py.update hypot cfg s f.1 f.2).setup = s.setup ∧
    (Py.update hypot cfg s f.1 f.2).Ordered := by
  have halike : Alike s s := ⟨⟨_, _, (Tracker.withCounts_self s).symm⟩, fun _ => rfl⟩
  obtain ⟨⟨e, x, heq⟩, -⟩ := halike.update hypot cfg hs f
  obtain ⟨hsetup, hs'⟩ := setup_update hypot cfg f.1 f.2 hs
  rw [heq]
  exact ⟨hsetup, ordered_of_ids hs' rfl rfl⟩

omit [IsStrictOrderedRing K] in
theorem py_net (frames : List (Frame K)) (hs : s.Ordered) (hl : s.lineEnabled = true) :
    (Py.run hypot cfg s frames).net =
      s.net + netOf (Py.segmentCrossing s.lineA s.lineB) s.lineAbIn (Py.movements hypot cfg s frames) := by
  induction frames generalizing s with
  | nil => simp [Py.run, Py.movements, netOf, counted]
  | cons f frames ih =>
    obtain ⟨hsetup, hs'⟩ := py_setup hypot cfg hs f
    have hcounts := (update_counts hypot cfg f.1 f.2
      hs hl s.entryCount s.exitCount).1
    rw [Tracker.withCounts_self] at hcounts
    simp only [Tracker.setup, Prod.mk.injEq] at hsetup
    obtain ⟨hl', hA, hB, hin, -⟩ := hsetup
    have hrun : Py.run hypot cfg s (f :: frames) = Py.run hypot cfg (Py.update hypot cfg s f.1 f.2) frames := rfl
    have hcross : s.crossing Py.segmentCrossing = Py.segmentCrossing s.lineA s.lineB := by
      funext p0 p1
      rw [Tracker.crossing, if_pos hl]
    have hnet : (Py.update hypot cfg s f.1 f.2).net = s.net +
        netOf (Py.segmentCrossing s.lineA s.lineB) s.lineAbIn (movesOf hypot cfg s f.1) := by
      rw [Tracker.net, hcounts, Tracker.entryCount_withCounts, Tracker.exitCount_withCounts, hcross, Tracker.net, netOf]
      omega
    rw [hrun, ih hs' (hl'.trans hl), hA, hB, hin, hnet, Py.movements, matchDetections_eq (ascending_of_ordered hs),
      netOf_append]
    exact Int.add_assoc _ _ _

omit [IsStrictOrderedRing K] in
variable (hypot cfg) in
/-- After any frames the line is as it was set. -/
theorem cpp_line (setup : Setup K) {abIn : Bool} (hline : setup.line = some (a, b, abIn)) (frames : List (ClassedFrame K)) :
    let s := Cpp.updates hypot cfg (Cpp.start setup) frames
    s.Ordered ∧ s.lineEnabled = true ∧ s.lineA = a ∧ s.lineB = b ∧ s.lineAbIn = abIn := by
  have hkeeps : ∀ frames : List (ClassedFrame K), ∀ s : Tracker K, s.Ordered →
      (Cpp.updates hypot cfg s frames).setup = s.setup ∧ (Cpp.updates hypot cfg s frames).Ordered := by
    intro frames
    induction frames with
    | nil => exact fun s hs => ⟨rfl, hs⟩
    | cons f frames ih =>
      intro s hs
      obtain ⟨hsetup, hs'⟩ := setup_update hypot cfg f.persons.1 f.2 hs
      rw [← cpp_update_persons] at hsetup hs'
      obtain ⟨hrest, hlast⟩ := ih _ hs'
      exact ⟨hrest.trans hsetup, hlast⟩
  obtain ⟨hsetup, hordered⟩ := hkeeps frames (Cpp.start setup) (start_facts setup).1
  obtain ⟨zone, line⟩ := setup
  cases hline
  simp only [Tracker.setup, Prod.mk.injEq] at hsetup
  obtain ⟨hl, hA, hB, hin, -⟩ := hsetup
  refine ⟨hordered, hl.trans ?_, hA.trans ?_, hB.trans ?_, hin.trans ?_⟩ <;> cases zone <;> rfl

omit [IsStrictOrderedRing K] in
variable (hypot cfg) in
theorem py_line (setup : Setup K) {abIn : Bool} (hline : setup.line = some (a, b, abIn)) (frames : List (Frame K)) :
    let s := Py.run hypot cfg (Py.start setup) frames
    s.Ordered ∧ s.lineEnabled = true ∧ s.lineA = a ∧ s.lineB = b ∧ s.lineAbIn = abIn := by
  have halike : Alike (Py.start setup) (Cpp.start setup) :=
    ⟨⟨_, _, (start_eq setup).trans (Tracker.withCounts_self _).symm⟩, fun _ => start_eq setup⟩
  obtain ⟨-, ⟨e, x, heq⟩, -⟩ := py_states hypot cfg frames halike (start_facts setup).1
  obtain ⟨hordered, hrest⟩ := cpp_line hypot cfg setup hline (frames.map Frame.classed)
  rw [heq]
  exact ⟨ordered_of_ids hordered rfl rfl, hrest⟩

/-- A walk of one matched track: it starts on a side, ends on the other, and
meets the line inside the segment only. -/
structure Crosses (a b : Point K) (points : List (Point K)) (p q : Point K) : Prop where
  first : points.head? = some p
  last : points.getLast? = some q
  starts : sideOf a b p ≠ 0
  ends : sideOf a b q = - sideOf a b p
  inside : MeetsInside a b points

/-- The passages of a walk by way of points on the line make up for each other. -/
def NoneMissed (a b : Point K) (points : List (Point K)) (p : Point K) : Prop :=
  throughs (sideOf a b p) false (points.tail.map (sideOf a b)) = 0

omit [IsStrictOrderedRing K] in
theorem Crosses.sum_iff (h : Crosses a b points p q) :
    passages (points.map (sideOf a b)) = passage (sideOf a b p) (sideOf a b q) ↔ NoneMissed a b points p := by
  obtain ⟨first, rest, rfl⟩ : ∃ first rest, points = first :: rest := by
    cases points with
    | nil => exact absurd h.first (by simp)
    | cons first rest => exact ⟨_, _, rfl⟩
  have hp : first = p := Option.some.inj h.first
  subst hp
  have hq : sideOf a b q ≠ 0 := by
    have hneg : ∀ s : SignType, s ≠ 0 → -s ≠ 0 := by decide
    exact h.ends ▸ hneg _ h.starts
  have hlast : (sideOf a b first :: rest.map (sideOf a b)).getLast? = some (sideOf a b q) := by
    rw [← List.map_cons, List.getLast?_map, h.last]
    rfl
  have hadd := passages_add_throughs h.starts hq hlast
  rw [NoneMissed, List.tail_cons, List.map_cons]
  omega

/-- **A walk over the entry line is counted** exactly where none of it is
missed, whatever else is counted in the frames. Python counts the other way
round. -/
theorem walk_counted_iff (hypot : K → K → K) (cfg : TrackerConfig K) (setup : Setup K) {a b : Point K} {abIn : Bool}
    (hline : setup.line = some (a, b, abIn)) {points : List (Point K)} {p q : Point K} (hwalk : Crosses a b points p q)
    (others : List (Point K × Point K)) :
    (∀ before frames : List (ClassedFrame K),
      let s := Cpp.updates hypot cfg (Cpp.start setup) before
      (Cpp.movements hypot cfg s frames).Perm (stepsOf points ++ others) →
        ((Cpp.updates hypot cfg s frames).net - s.net = netOf (Cpp.segmentCrossing a b) abIn others +
          direction abIn * passage (sideOf a b p) (sideOf a b q) ↔ NoneMissed a b points p)) ∧
    ∀ before frames : List (Frame K),
      let s := Py.run hypot cfg (Py.start setup) before
      (Py.movements hypot cfg s frames).Perm (stepsOf points ++ others) →
        ((Py.run hypot cfg s frames).net - s.net = netOf (Py.segmentCrossing a b) abIn others -
          direction abIn * passage (sideOf a b p) (sideOf a b q) ↔ NoneMissed a b points p) := by
  obtain ⟨hcpp, hpy⟩ := walk_sum hwalk.inside
  have hsum := hwalk.sum_iff
  refine ⟨?_, ?_⟩
  · intro before frames s hmoves
    obtain ⟨hordered, hl, hA, hB, hin⟩ := cpp_line hypot cfg setup hline before
    have hnet : (Cpp.updates hypot cfg s frames).net = s.net + _ := cpp_net frames hordered hl
    rw [hA, hB, hin, netOf_perm hmoves, netOf_append, netOf_eq (cpp_crossing_cases a b) abIn (stepsOf points), hcpp] at hnet
    rw [← hsum, ← direction_inj abIn (x := passages _), hnet]
    omega
  · intro before frames s hmoves
    obtain ⟨hordered, hl, hA, hB, hin⟩ := py_line hypot cfg setup hline before
    have hnet : (Py.run hypot cfg s frames).net = s.net + _ := py_net frames hordered hl
    rw [hA, hB, hin, netOf_perm hmoves, netOf_append, netOf_eq (py_crossing_cases a b) abIn (stepsOf points), hpy] at hnet
    rw [← hsum, ← direction_inj abIn (x := passages _), hnet, Int.mul_neg]
    omega

/-! ## A person who walks down the picture -/

/-- A line over the middle of the picture. -/
def lineA : Point ℚ := (0, 0.55)

def lineB : Point ℚ := (1, 0.55)

def lineSetup : Setup ℚ := ⟨none, some (lineA, lineB, true)⟩

/-- A person whose feet are here. -/
def feetAt (y : ℚ) : DetectionBox ℚ := { x := 0.5, y := y - 0.1, w := 0.2, h := 0.2, score := 0.9 }

def feetFrame (y t : ℚ) : Frame ℚ := ([feetAt y], t)

theorem meets_inside_down {ys : List ℚ} : MeetsInside lineA lineB (ys.map fun y => (0.5, y)) := by
  intro step hs t _ _ hon
  rw [Lib.stepsOf_map] at hs
  obtain ⟨⟨y₀, y₁⟩, -, rfl⟩ := List.mem_map.mp hs
  have hy : y₀ + t * (y₁ - y₀) = 0.55 := by
    simp only [Prod.map, Cpp.lineSide, between, lineA, lineB] at hon
    linarith
  refine ⟨1 / 2, by norm_num, by norm_num, ?_⟩
  simp only [Prod.map, between, lineA, lineB, hy]
  norm_num

theorem crosses_down {ys : List ℚ} {y₀ y₁ : ℚ} (h₀ : ys.head? = some y₀) (h₁ : ys.getLast? = some y₁) (hy₀ : y₀ < 0.55)
    (hy₁ : 0.55 < y₁) : Crosses lineA lineB (ys.map fun y => (0.5, y)) (0.5, y₀) (0.5, y₁) := by
  have hside : ∀ y : ℚ, Cpp.lineSide lineA lineB (0.5, y) = y - 0.55 := by
    intro y
    simp only [Cpp.lineSide, lineA, lineB]
    ring
  have hs₀ : sideOf lineA lineB (0.5, y₀) = -1 := by
    rw [sideOf, hside]
    exact sign_neg (by linarith)
  have hs₁ : sideOf lineA lineB (0.5, y₁) = 1 := by
    rw [sideOf, hside]
    exact sign_pos (by linarith)
  refine ⟨by rw [List.head?_map, h₀]; rfl, by rw [List.getLast?_map, h₁]; rfl, ?_, ?_, meets_inside_down⟩
  · rw [hs₀]
    decide
  · rw [hs₁, hs₀]
    decide

/-- In two frames on different sides of the line, the person leaves. -/
theorem walk_counted_iff_leaves :
    (Cpp.updates axisHypot (.default ℚ) (Cpp.start lineSetup) [(feetFrame 0.5 1).classed, (feetFrame 0.6 2).classed]).net -
        (Cpp.updates axisHypot (.default ℚ) (Cpp.start lineSetup) [(feetFrame 0.5 1).classed]).net =
      netOf (Cpp.segmentCrossing lineA lineB) true [] +
        direction true * passage (sideOf lineA lineB (0.5, 0.5)) (sideOf lineA lineB (0.5, 0.6)) :=
  ((walk_counted_iff axisHypot (.default ℚ) lineSetup rfl
    (@crosses_down [0.5, 0.6] 0.5 0.6 rfl rfl (by decide +kernel) (by decide +kernel)) []).1
      [(feetFrame 0.5 1).classed] [(feetFrame 0.6 2).classed]
      (List.Perm.of_eq (by decide +kernel))).mpr (by unfold NoneMissed; decide +kernel)

/-- With one more frame, in which the feet are exactly on the line, the person
is missed by both. -/
theorem not_counted : Crosses lineA lineB [(0.5, 0.5), (0.5, 0.55), (0.5, 0.6)] (0.5, 0.5) (0.5, 0.6) ∧
    (Cpp.movements axisHypot (.default ℚ) (Cpp.updates axisHypot (.default ℚ) (Cpp.start lineSetup) [(feetFrame 0.5 1).classed])
        [(feetFrame 0.55 2).classed, (feetFrame 0.6 3).classed] = stepsOf [(0.5, 0.5), (0.5, 0.55), (0.5, 0.6)] ∧
      (Cpp.updates axisHypot (.default ℚ) (Cpp.start lineSetup)
        [(feetFrame 0.5 1).classed, (feetFrame 0.55 2).classed, (feetFrame 0.6 3).classed]).net = 0) ∧
    Py.movements axisHypot (.default ℚ) (Py.run axisHypot (.default ℚ) (Py.start lineSetup) [feetFrame 0.5 1])
        [feetFrame 0.55 2, feetFrame 0.6 3] = stepsOf [(0.5, 0.5), (0.5, 0.55), (0.5, 0.6)] ∧
      (Py.run axisHypot (.default ℚ) (Py.start lineSetup) [feetFrame 0.5 1, feetFrame 0.55 2, feetFrame 0.6 3]).net = 0 := by
  refine ⟨@crosses_down [0.5, 0.55, 0.6] 0.5 0.6 rfl rfl (by decide +kernel) (by decide +kernel), ?_⟩
  decide +kernel

end RetailVision.PersonTracker
