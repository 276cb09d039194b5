/-
The two person trackers on the same frames. The Python `segment_crossing` has
the sign of the C++ one the other way round, and takes a movement through an
end of the line for a crossing, where the C++ one asks for both ends to be off
it (`py_crossing`). So the trackers agree after every frame exactly where there
is no entry line, or each frame has as many crossings one way as the other, and
none through an end of the line (`agree_iff`).
-/
import RetailVision.TrackerAgreement
import Mathlib.Analysis.Real.Sqrt

set_option linter.all false

namespace RetailVision.PersonTracker

/-- The optional zone and entry line of a tracker. -/
structure Setup (K : Type) where
  zone : Option (List (Point K))
  line : Option (Point K × Point K × Bool)

variable {K : Type} [Field K] [LinearOrder K]

def Cpp.start (setup : Setup K) : Tracker K :=
  let s := match setup.zone with | some zone => setCountZone init zone | none => init
  match setup.line with | some (a, b, abIn) => setEntryLine s a b abIn | none => s

def Py.start (setup : Setup K) : Tracker K :=
  let s := match setup.zone with | some zone => setCountZone init zone | none => init
  match setup.line with | some (a, b, abIn) => setEntryLine s a b abIn | none => s

/-- A frame: the detections, all of persons, and the time. -/
abbrev Frame (K : Type) := List (DetectionBox K) × K

def Cpp.run (hypot : K → K → K) (cfg : TrackerConfig K) (s : Tracker K) (frames : List (Frame K)) : Tracker K :=
  frames.foldl (fun s f => update hypot cfg s (persons f.1) f.2) s

def Py.run (hypot : K → K → K) (cfg : TrackerConfig K) (s : Tracker K) (frames : List (Frame K)) : Tracker K :=
  frames.foldl (fun s f => update hypot cfg s f.1 f.2) s

/-- **The trackers agree**: on the tracks, with all that is kept of them, on
what a frame returns, and on the counts and the removal records. -/
structure Agree (c p : Tracker K) : Prop where
  tracks : p.tracks = c.tracks
  visible : Py.visible p = Cpp.visible c
  states : Py.stateCounts p = Cpp.getStateCounts c
  removed : p.removed = c.removed
  entries : p.entryCount = c.entryCount
  exits : p.exitCount = c.exitCount

/-- As many movements cross the line from the left as from the right, and none
crosses it for Python alone. -/
def Balanced (a b : Point K) (moves : List (Point K × Point K)) : Prop :=
  (∀ m ∈ moves, Cpp.segmentCrossing a b m.1 m.2 = 0 → Py.segmentCrossing a b m.1 m.2 = 0) ∧
    (moves.countP fun m => Cpp.segmentCrossing a b m.1 m.2 = 1) =
      moves.countP fun m => Cpp.segmentCrossing a b m.1 m.2 = -1

variable {hypot : K → K → K} {cfg : TrackerConfig K} {s c p : Tracker K} {detections : List (DetectionBox K)} {now : K}
  {a b : Point K} {moves : List (Point K × Point K)}

/-! ## Crossings -/

theorem cpp_crossing_cases (a b p0 p1 : Point K) : Cpp.segmentCrossing a b p0 p1 = 0 ∨
    Cpp.segmentCrossing a b p0 p1 = 1 ∨ Cpp.segmentCrossing a b p0 p1 = -1 := by
  unfold Cpp.segmentCrossing
  dsimp only
  split
  · exact .inl rfl
  · split
    · exact .inl rfl
    · split
      · exact .inr (.inl rfl)
      · exact .inr (.inr rfl)

/-- **A crossing for both is one the other way round for Python**; what is one
for Python alone goes through an end of the line. -/
theorem py_crossing (a b p0 p1 : Point K) : Py.segmentCrossing a b p0 p1 = - Cpp.segmentCrossing a b p0 p1 ∨
    Cpp.segmentCrossing a b p0 p1 = 0 ∧ (Py.segmentCrossing a b p0 p1 = 1 ∨ Py.segmentCrossing a b p0 p1 = -1) := by
  have hside : ∀ a b p : Point K, Py.cross a b p = Cpp.lineSide a b p := fun _ _ _ => rfl
  unfold Py.segmentCrossing Cpp.segmentCrossing
  simp only [hside]
  by_cases h₁ : Cpp.lineSide a b p0 = 0 ∨ Cpp.lineSide a b p1 = 0 ∨ (0 < Cpp.lineSide a b p0 ↔ 0 < Cpp.lineSide a b p1)
  · have h₁' : (0 < Cpp.lineSide a b p0 ↔ 0 < Cpp.lineSide a b p1) ∨ Cpp.lineSide a b p0 = 0 ∨
        Cpp.lineSide a b p1 = 0 := or_rotate.mpr h₁
    rw [if_pos h₁, if_pos h₁']
    exact .inl rfl
  · have h₁' : ¬ ((0 < Cpp.lineSide a b p0 ↔ 0 < Cpp.lineSide a b p1) ∨ Cpp.lineSide a b p0 = 0 ∨
        Cpp.lineSide a b p1 = 0) := mt or_rotate.mp h₁
    rw [if_neg h₁, if_neg h₁']
    by_cases h₂ : 0 < Cpp.lineSide p0 p1 a ↔ 0 < Cpp.lineSide p0 p1 b
    · rw [if_pos h₂, if_pos (.inr (.inr h₂))]
      exact .inl rfl
    · rw [if_neg h₂]
      by_cases h₃ : Cpp.lineSide p0 p1 a = 0 ∨ Cpp.lineSide p0 p1 b = 0
      · have h₃' : Cpp.lineSide p0 p1 a = 0 ∨ Cpp.lineSide p0 p1 b = 0 ∨
            (0 < Cpp.lineSide p0 p1 a ↔ 0 < Cpp.lineSide p0 p1 b) := or_assoc.mp (.inl h₃)
        rw [if_pos h₃']
        refine .inr ⟨rfl, ?_⟩
        split
        · exact .inr rfl
        · exact .inl rfl
      · have h₃' : ¬ (Cpp.lineSide p0 p1 a = 0 ∨ Cpp.lineSide p0 p1 b = 0 ∨
            (0 < Cpp.lineSide p0 p1 a ↔ 0 < Cpp.lineSide p0 p1 b)) := fun h => (or_assoc.mpr h).elim h₃ h₂
        rw [if_neg h₃']
        split <;> exact .inl rfl

/-- Python counts the crossings of the other direction, and those through an
end of the line. -/
theorem counted_py (a b : Point K) (moves : List (Point K × Point K)) :
    counted (Py.segmentCrossing a b) true moves = (moves.countP fun m => Cpp.segmentCrossing a b m.1 m.2 = -1) +
        (moves.countP fun m => Cpp.segmentCrossing a b m.1 m.2 = 0 ∧ Py.segmentCrossing a b m.1 m.2 = 1) ∧
      counted (Py.segmentCrossing a b) false moves = (moves.countP fun m => Cpp.segmentCrossing a b m.1 m.2 = 1) +
        (moves.countP fun m => Cpp.segmentCrossing a b m.1 m.2 = 0 ∧ Py.segmentCrossing a b m.1 m.2 = -1) := by
  unfold counted
  induction moves with
  | nil => exact ⟨rfl, rfl⟩
  | cons m moves ih =>
    obtain ⟨iht, ihf⟩ := ih
    simp only [List.countP_cons, iht, ihf]
    obtain hp | ⟨hc, hp | hp⟩ := py_crossing a b m.1 m.2
    · obtain hc | hc | hc := cpp_crossing_cases a b m.1 m.2
      · simp [hp, hc]
      · simp [hp, hc]
        omega
      · simp [hp, hc]
        omega
    · simp [hp, hc]
      omega
    · simp [hp, hc]
      omega

theorem counted_cpp (a b : Point K) (moves : List (Point K × Point K)) :
    counted (Cpp.segmentCrossing a b) true moves = (moves.countP fun m => Cpp.segmentCrossing a b m.1 m.2 = 1) ∧
      counted (Cpp.segmentCrossing a b) false moves = moves.countP fun m => Cpp.segmentCrossing a b m.1 m.2 = -1 := by
  unfold counted
  refine ⟨List.countP_congr fun m _ => ?_, List.countP_congr fun m _ => ?_⟩
  · obtain hc | hc | hc := cpp_crossing_cases a b m.1 m.2 <;> simp [hc]
  · obtain hc | hc | hc := cpp_crossing_cases a b m.1 m.2 <;> simp [hc]

/-- **A frame is counted alike** exactly where it is balanced. -/
theorem counted_eq_iff (abIn : Bool) :
    counted (Py.segmentCrossing a b) abIn moves = counted (Cpp.segmentCrossing a b) abIn moves ∧
      counted (Py.segmentCrossing a b) (!abIn) moves = counted (Cpp.segmentCrossing a b) (!abIn) moves ↔
        Balanced a b moves := by
  obtain ⟨hpt, hpf⟩ := counted_py a b moves
  obtain ⟨hct, hcf⟩ := counted_cpp a b moves
  have hboth : (counted (Py.segmentCrossing a b) abIn moves = counted (Cpp.segmentCrossing a b) abIn moves ∧
      counted (Py.segmentCrossing a b) (!abIn) moves = counted (Cpp.segmentCrossing a b) (!abIn) moves) ↔
      counted (Py.segmentCrossing a b) true moves = counted (Cpp.segmentCrossing a b) true moves ∧
      counted (Py.segmentCrossing a b) false moves = counted (Cpp.segmentCrossing a b) false moves := by
    cases abIn with
    | true => exact Iff.rfl
    | false => exact and_comm
  have hends : (∀ m ∈ moves, Cpp.segmentCrossing a b m.1 m.2 = 0 → Py.segmentCrossing a b m.1 m.2 = 0) ↔
      (moves.countP fun m => Cpp.segmentCrossing a b m.1 m.2 = 0 ∧ Py.segmentCrossing a b m.1 m.2 = 1) = 0 ∧
      (moves.countP fun m => Cpp.segmentCrossing a b m.1 m.2 = 0 ∧ Py.segmentCrossing a b m.1 m.2 = -1) = 0 := by
    rw [List.countP_eq_zero, List.countP_eq_zero]
    simp only [decide_eq_true_eq, not_and]
    constructor
    · exact fun h => ⟨fun m hm hc => by rw [h m hm hc]; decide, fun m hm hc => by rw [h m hm hc]; decide⟩
    · intro ⟨h1, h2⟩ m hm hc
      obtain hp | ⟨-, hp | hp⟩ := py_crossing a b m.1 m.2
      · rw [hp, hc]
        rfl
      · exact absurd hp (h1 m hm hc)
      · exact absurd hp (h2 m hm hc)
  rw [hboth, hpt, hpf, hct, hcf, Balanced, hends]
  omega

/-! ## Frames -/

/-- What `setCountZone` and `setEntryLine` set. -/
def Tracker.setup (s : Tracker K) : Bool × Point K × Point K × Bool × List (Point K) :=
  (s.lineEnabled, s.lineA, s.lineB, s.lineAbIn, s.countZone)

theorem setup_removeTrack (s : Tracker K) (i : Nat) : (Cpp.removeTrack cfg now s i).setup = s.setup := by
  unfold Cpp.removeTrack
  cases s.tracks.lookup i with
  | none => rfl
  | some track =>
    dsimp only
    by_cases hcount : (!s.lineEnabled && decide ((track.framesTracked : Int) ≥ cfg.minFramesForCount)) = true
    · rw [if_pos hcount]
      by_cases hedge : Cpp.classifyAsEdgeLoss cfg track = true
      · rw [if_pos hedge]
        rfl
      · rw [if_neg hedge]
        split <;> rfl
    · rw [if_neg hcount]
      rfl

theorem setup_addTrack (s : Tracker K) (matched : List Nat) (d : DetectionBox K × Nat) :
    (Cpp.addTrack cfg now matched s d).setup = s.setup := by
  unfold Cpp.addTrack
  split <;> rfl

omit [Field K] [LinearOrder K] in
theorem setup_foldl {α : Type} {f : Tracker K → α → Tracker K} (hf : ∀ s a, (f s a).setup = s.setup)
    (s : Tracker K) (as : List α) : (as.foldl f s).setup = s.setup :=
  List.foldlRecOn (motive := fun t : Tracker K => t.setup = s.setup) as f rfl fun t ht a _ => (hf t a).trans ht

theorem setup_frameOf : (frameOf hypot cfg s detections now).setup = s.setup := by
  obtain ⟨hl, hA, hB, hin, hz⟩ := @foldl_moveTrack_config K _ _ hypot cfg { s with lastUpdate := now } detections now
    (s.elapsed now) (Cpp.matchDetections hypot cfg s.tracks detections)
  rw [frameOf, Tracker.setup, hl, hA, hB, hin, hz]
  rfl

variable (hypot cfg detections now) in
/-- **A frame leaves the zone and the line alone**, and the tracks in order. -/
theorem setup_update (hs : s.Ordered) : (Cpp.update hypot cfg s (persons detections) now).setup = s.setup ∧
    (Cpp.update hypot cfg s (persons detections) now).Ordered := by
  rw [cpp_update hs]
  refine ⟨?_, ?_⟩
  · unfold settle
    dsimp only
    rw [setup_foldl (fun s d => setup_addTrack s _ d), setup_foldl setup_removeTrack]
    exact setup_frameOf
  · have hmoved : (frameOf hypot cfg s detections now).Ordered := ordered_foldl_moveTrack (ordered_of_ids hs rfl rfl)
    exact ordered_settle (ordered_of_ids hmoved rfl rfl)

theorem agree_withCounts (hz : s.ZoneOk) (e x : Nat) :
    Agree s (s.withCounts e x) ↔ s.entryCount = e ∧ s.exitCount = x := by
  constructor
  · intro h
    exact ⟨h.entries.symm, h.exits.symm⟩
  · intro ⟨he, hx⟩
    rw [← he, ← hx, Tracker.withCounts_self]
    exact ⟨rfl, visible_eq, stateCounts_eq hz, rfl, rfl, rfl⟩

/-- **Frame by frame**, from states that differ in their counts at most. -/
theorem runs_iff (frames : List (Frame K)) (hs : s.Ordered) (hz : s.ZoneOk) (e x : Nat) :
    (∀ k ≤ frames.length, Agree (Cpp.run hypot cfg s (frames.take k))
      (Py.run hypot cfg (s.withCounts e x) (frames.take k))) ↔
    (s.entryCount = e ∧ s.exitCount = x) ∧ (s.lineEnabled = true → ∀ (k : Nat) (hk : k < frames.length),
      Balanced s.lineA s.lineB (movesOf hypot cfg (Cpp.run hypot cfg s (frames.take k)) frames[k].1)) := by
  induction frames generalizing s e x with
  | nil =>
    have hnil : (∀ k ≤ ([] : List (Frame K)).length, Agree (Cpp.run hypot cfg s ([].take k))
        (Py.run hypot cfg (s.withCounts e x) ([].take k))) ↔ Agree s (s.withCounts e x) := by
      simp [Cpp.run, Py.run]
    rw [hnil, agree_withCounts hz]
    simp
  | cons f rest ih =>
    obtain ⟨detections, now⟩ := f
    obtain ⟨hsetup, hs'⟩ := setup_update hypot cfg detections now hs
    simp only [Tracker.setup, Prod.mk.injEq] at hsetup
    obtain ⟨hl, hA, hB, -, hzone⟩ := hsetup
    have hz' : (Cpp.update hypot cfg s (persons detections) now).ZoneOk := by
      rw [Tracker.ZoneOk, hzone]
      exact hz
    have hsplit : (∀ k ≤ ((detections, now) :: rest).length, Agree (Cpp.run hypot cfg s (((detections, now) :: rest).take k))
        (Py.run hypot cfg (s.withCounts e x) (((detections, now) :: rest).take k))) ↔
        Agree s (s.withCounts e x) ∧ ∀ k ≤ rest.length,
          Agree (Cpp.run hypot cfg (Cpp.update hypot cfg s (persons detections) now) (rest.take k))
            (Py.run hypot cfg (Py.update hypot cfg (s.withCounts e x) detections now) (rest.take k)) := by
      simp only [← Nat.lt_succ_iff (n := List.length _)]
      exact Nat.forall_lt_succ_left
    have hlater : (∀ (k : Nat) (hk : k < ((detections, now) :: rest).length), Balanced s.lineA s.lineB
        (movesOf hypot cfg (Cpp.run hypot cfg s (((detections, now) :: rest).take k)) ((detections, now) :: rest)[k].1)) ↔
        Balanced s.lineA s.lineB (movesOf hypot cfg s detections) ∧ ∀ (k : Nat) (hk : k < rest.length),
          Balanced s.lineA s.lineB (movesOf hypot cfg
            (Cpp.run hypot cfg (Cpp.update hypot cfg s (persons detections) now) (rest.take k)) rest[k].1) :=
      Nat.forall_lt_succ_left'
    rw [hsplit, agree_withCounts hz, hlater]
    refine and_congr_right fun ⟨he, hx⟩ => ?_
    cases hline : s.lineEnabled with
    | false =>
      rw [← he, ← hx, Tracker.withCounts_self, update_eq hs hline]
      have hnext := ih hs' hz' (Cpp.update hypot cfg s (persons detections) now).entryCount
        (Cpp.update hypot cfg s (persons detections) now).exitCount
      rw [Tracker.withCounts_self, hl, hline] at hnext
      rw [hnext]
      simp
    | true =>
      obtain ⟨hpy, hentries, hexits⟩ :=
        update_counts hypot cfg detections now hs hline e x
      have hcross : ∀ f : Point K → Point K → Point K → Point K → Int, s.crossing f = f s.lineA s.lineB := by
        intro f
        funext p0 p1
        rw [Tracker.crossing, if_pos hline]
      rw [hcross] at hpy hentries hexits
      rw [hpy, ih hs' hz', hentries, hexits, hl, hA, hB, hline, he, hx, Nat.add_left_cancel_iff,
        Nat.add_left_cancel_iff, ← counted_eq_iff s.lineAbIn]
      simp [eq_comm]


/-! ## The trackers from the start -/

omit [LinearOrder K] in
theorem start_eq (setup : Setup K) : Py.start setup = Cpp.start setup := by
  have hinit : Py.init (K := K) = Cpp.init := rfl
  have hline : Py.setEntryLine (K := K) = Cpp.setEntryLine := rfl
  unfold Py.start Cpp.start
  rw [hinit, hline]
  cases setup.zone with
  | none => rfl
  | some zone =>
    cases zone with
    | nil => rfl
    | cons a rest => simp [Py.setCountZone, Cpp.setCountZone]

omit [LinearOrder K] in
theorem start_facts (setup : Setup K) : (Cpp.start setup).Ordered ∧ (Cpp.start setup).ZoneOk ∧
    (Cpp.start setup).entryCount = 0 ∧ (Cpp.start setup).exitCount = 0 := by
  obtain ⟨zone, line⟩ := setup
  have hfirst : ∀ s : Tracker K, s.tracks = [] → s.Ordered := by
    intro s ht
    have hids : s.ids = [] := by rw [Tracker.ids, ht, List.map_nil]
    refine ⟨?_, ?_⟩
    · rw [hids]
      exact .nil
    · intro i hi
      rw [hids] at hi
      exact absurd hi List.not_mem_nil
  have hzone : ∀ zone : List (Point K), (Cpp.setCountZone Cpp.init zone).ZoneOk := by
    intro zone
    by_cases hlen : zone.length ≥ 3
    · have hset : (Cpp.setCountZone Cpp.init zone).countZone = zone := by simp [Cpp.setCountZone, hlen]
      exact .inr (by rwa [hset])
    · exact .inl (by simp [Cpp.setCountZone, hlen])
  cases zone with
  | none => cases line <;> exact ⟨hfirst _ rfl, .inl rfl, rfl, rfl⟩
  | some zone => cases line <;> exact ⟨hfirst _ rfl, hzone zone, rfl, rfl⟩

omit [LinearOrder K] in
theorem start_line (setup : Setup K) : ((Cpp.start setup).lineEnabled = true ↔ setup.line ≠ none) ∧
    ∀ a b abIn, setup.line = some (a, b, abIn) → (Cpp.start setup).lineA = a ∧ (Cpp.start setup).lineB = b := by
  obtain ⟨zone, line⟩ := setup
  cases zone <;> cases line with
  | none => exact ⟨⟨nofun, fun h => absurd rfl h⟩, nofun⟩
  | some line => exact ⟨⟨nofun, fun _ => rfl⟩, fun a b abIn h => by cases h; exact ⟨rfl, rfl⟩⟩

/-- `hypot`, exact. -/
noncomputable def realHypot (x y : ℝ) : ℝ := √(x ^ 2 + y ^ 2)

/-- **The trackers agree after every frame of a run** exactly where there is no
entry line, or every frame of it is balanced. -/
theorem agree_iff (cfg : TrackerConfig ℝ) (setup : Setup ℝ) (frames : List (Frame ℝ)) :
    (∀ k ≤ frames.length, Agree (Cpp.run realHypot cfg (Cpp.start setup) (frames.take k))
      (Py.run realHypot cfg (Py.start setup) (frames.take k))) ↔
    ∀ a b abIn, setup.line = some (a, b, abIn) → ∀ (k : Nat) (hk : k < frames.length),
      Balanced a b (movesOf realHypot cfg (Cpp.run realHypot cfg (Cpp.start setup) (frames.take k)) frames[k].1) := by
  obtain ⟨hordered, hzone, hentries, hexits⟩ := start_facts setup
  obtain ⟨henabled, hends⟩ := start_line setup
  have hiff := @runs_iff ℝ _ _ realHypot cfg (Cpp.start setup) frames hordered hzone 0 0
  have hself : (Cpp.start setup).withCounts 0 0 = Cpp.start setup := by
    rw [← hentries]
    nth_rewrite 2 [hentries]
    rw [← hexits, Tracker.withCounts_self]
  rw [start_eq]
  rw [hself] at hiff
  rw [hiff, and_iff_right ⟨hentries, hexits⟩, henabled]
  constructor
  · intro h a b abIn hline k hk
    obtain ⟨hA, hB⟩ := hends a b abIn hline
    rw [← hA, ← hB]
    exact h (by rw [hline]; nofun) k hk
  · intro h hline k hk
    obtain ⟨⟨a, b, abIn⟩, hline⟩ := Option.ne_none_iff_exists'.mp hline
    obtain ⟨hA, hB⟩ := hends a b abIn hline
    rw [hA, hB]
    exact h a b abIn hline k hk


/-- A track alone that overlaps enough with a detection alone has it. -/
theorem matchDetections_one {i : Nat} {track : TrackedPerson K} {det : DetectionBox K}
    (h : cfg.iouThreshold < Cpp.computeIoU (Cpp.predict cfg track) det) :
    Cpp.matchDetections hypot cfg [(i, track)] [det] = [(i, 0)] := by
  simp [Cpp.matchDetections, Cpp.matchByIoU, scan, h, Matching.pair]

/-- A line over the middle of the picture. -/
noncomputable def middleLine : Setup ℝ where
  zone := none
  line := some ((0, 0.55), (1, 0.55), true)

noncomputable def walker (y : ℝ) : DetectionBox ℝ := { x := 0.5, y := y, w := 0.2, h := 0.2, score := 0.9 }

/-- Somebody walks over it, down the picture. -/
noncomputable def walkDown : List (Frame ℝ) := [([walker 0.4], 0), ([walker 0.5], 1)]

theorem walkDown_tracks : (Cpp.run realHypot (.default ℝ) (Cpp.start middleLine) (walkDown.take 1)).tracks =
    [(0, Cpp.newTrack (.default ℝ) 0 (walker 0.4) 0)] := by
  simp [Cpp.run, walkDown, middleLine, Cpp.start, Cpp.setEntryLine, Cpp.init, Cpp.update, persons,
    Cpp.matchDetections, Cpp.addTrack]

theorem walkDown_moves : movesOf realHypot (.default ℝ)
    (Cpp.run realHypot (.default ℝ) (Cpp.start middleLine) (walkDown.take 1)) [walker 0.5] =
      [((0.5, 0.5), (0.5, 0.6))] := by
  have hiou : (TrackerConfig.default ℝ).iouThreshold < Cpp.computeIoU (Cpp.predict (.default ℝ)
      (Cpp.newTrack (.default ℝ) 0 (walker 0.4) 0)) (walker 0.5) := by
    norm_num [Cpp.computeIoU, Cpp.predict, Cpp.newTrack, TrackerConfig.default, walker]
  rw [movesOf, walkDown_tracks, matchDetections_one hiou]
  simp [moves, movement, Cpp.newTrack, Cpp.footPoint, walker]
  norm_num

/-- The walker leaves for C++, and enters for Python. -/
theorem walkDown_disagree : ¬ ∀ k ≤ walkDown.length, Agree
    (Cpp.run realHypot (.default ℝ) (Cpp.start middleLine) (walkDown.take k))
    (Py.run realHypot (.default ℝ) (Py.start middleLine) (walkDown.take k)) := by
  intro h
  obtain ⟨hordered, hzone, -⟩ := start_facts middleLine
  have hself : Py.start middleLine = (Cpp.start middleLine).withCounts 0 0 := rfl
  rw [hself] at h
  obtain ⟨-, hbalanced⟩ := (runs_iff walkDown hordered hzone 0 0).mp h
  obtain ⟨-, hcount⟩ := hbalanced rfl 1 (by decide)
  change List.countP _ (movesOf _ _ _ [walker 0.5]) = List.countP _ (movesOf _ _ _ [walker 0.5]) at hcount
  rw [walkDown_moves] at hcount
  have hright : Cpp.segmentCrossing (Cpp.start middleLine).lineA (Cpp.start middleLine).lineB (0.5, 0.5) (0.5, 0.6) = -1 := by
    have hA : (Cpp.start middleLine).lineA = (0, 0.55) := rfl
    have hB : (Cpp.start middleLine).lineB = (1, 0.55) := rfl
    rw [hA, hB]
    norm_num [Cpp.segmentCrossing, Cpp.lineSide]
  simp [hright] at hcount

end RetailVision.PersonTracker
