/-
The two person trackers in a frame. They do the same to every track
(`cpp_update`, `py_update`), and differ only in what a movement over the entry
line is counted as: from states that differ in their counts, a frame comes to
states that differ in their counts (`update_counts`).
-/
import RetailVision.PersonTracker
import RetailVision.Lib.StableSort
import Mathlib.Tactic.Ring

set_option linter.all false

namespace RetailVision.PersonTracker

open Lib

variable {K : Type} [Field K] [LinearOrder K] {hypot : K → K → K} {cfg : TrackerConfig K} {s c p : Tracker K}
  {det : DetectionBox K} {detections : List (DetectionBox K)} {track : TrackedPerson K} {now dt : K} {trackId : Nat}
  {tracks : List (Nat × TrackedPerson K)} {pairs : List (Nat × Nat)} {a b p0 p1 : Point K}

/-! ## Tracks -/

theorem nearEdge_eq : Py.nearEdge cfg det = Cpp.isNearEdge cfg det := by
  simp [Py.nearEdge, Cpp.isNearEdge, Bool.or_assoc]

theorem movingTowardEdge_eq : Py.movingTowardEdge track = Cpp.isMovingTowardEdge track := by
  simp only [Py.movingTowardEdge, Cpp.isMovingTowardEdge, gt_iff_lt]
  split
  next h => simp [h]
  next h₁ =>
    split
    next h => simp [h]
    next h₂ =>
      split
      next h => simp [h]
      next h₃ =>
        split
        next h => simp [h]
        next h₄ => simp only [h₁, h₂, h₃, h₄, or_self, decide_false]

theorem edgeLoss_eq : Py.edgeLoss cfg track = Cpp.classifyAsEdgeLoss cfg track := by
  unfold Py.edgeLoss Cpp.classifyAsEdgeLoss
  rw [nearEdge_eq, movingTowardEdge_eq]
  cases Cpp.isNearEdge cfg track.detection <;> rfl

theorem updateVelocity_eq : Py.updateVelocity hypot cfg track det dt = Cpp.updateVelocity hypot cfg track det dt := by
  simp only [Py.updateVelocity, Cpp.updateVelocity, gt_iff_lt, Bool.or_eq_true, Bool.and_eq_true, decide_eq_true_eq]

theorem updateDwellState_eq : Py.updateDwellState cfg track now = Cpp.updateDwellState cfg track now := by
  have hstationary : ∀ b, Py.updateStationaryFrames cfg track b = Cpp.updateStationaryFrames cfg track b := fun _ => rfl
  simp only [Py.updateDwellState, Cpp.updateDwellState, hstationary, Bool.not_eq_true', Bool.and_eq_false_iff,
    decide_eq_false_iff_not, not_and_or, decide_eq_true_eq]
  generalize Cpp.updateStationaryFrames cfg track _ = moved
  refine if_congr Iff.rfl rfl ?_
  generalize (if moved.dwellStartTime ≤ 0 then { moved with dwellStartTime := now } else moved) = still
  by_cases ha : cfg.dwellAssistanceThreshold ≤ now - still.dwellStartTime
  · simp only [ge_iff_le, ha, if_true]
  · by_cases hm : cfg.dwellMinDuration ≤ now - still.dwellStartTime
    · simp only [ge_iff_le, ha, hm, if_true, if_false]
    · simp only [ge_iff_le, ha, hm, if_false]

theorem trackRecord_eq : Py.trackRecord cfg track now = Cpp.trackRecord cfg track now := by
  simp only [Py.trackRecord, Cpp.trackRecord, nearEdge_eq, gt_iff_lt, Nat.pos_iff_ne_zero]

theorem maxLost_eq : Py.maxLost cfg track = Cpp.maxLost cfg track := by
  rw [Py.maxLost, Cpp.maxLost, edgeLoss_eq]

theorem newTrack_eq : Py.newTrack cfg trackId det now = Cpp.newTrack cfg trackId det now := by
  rw [Py.newTrack, Cpp.newTrack, nearEdge_eq]

/-! ## Zones -/

/-- An edge that is crossed is not horizontal, so the guard of the Python
division has no part in it. -/
theorem polygonLoop_eq (q : Point K) (poly : List (Point K)) (j : Point K) (inside : Bool) :
    Py.polygonLoop q j inside poly = Cpp.rayCrossings q j inside poly := by
  induction poly generalizing j inside with
  | nil => rfl
  | cons i rest ih =>
    simp only [Py.polygonLoop, Cpp.rayCrossings, ih]
    by_cases hy : decide (q.2 < i.2) = decide (q.2 < j.2)
    · simp [hy]
    · have hne : j.2 - i.2 ≠ 0 := by
        intro h
        rw [sub_eq_zero.mp h] at hy
        exact hy rfl
      have hb : (decide (q.2 < i.2) != decide (q.2 < j.2)) = true := bne_iff_ne.mpr hy
      rw [if_pos hy, if_neg hne, hb, Bool.true_and]
      by_cases hx : q.1 < (j.1 - i.1) * (q.2 - i.2) / (j.2 - i.2) + i.1
      · simp [hx]
      · simp [hx]

theorem pointInPolygon_eq {q : Point K} {poly : List (Point K)} (hp : 3 ≤ poly.length) :
    Py.pointInPolygon q poly = Cpp.pointInPolygon q poly := by
  unfold Py.pointInPolygon Cpp.pointInPolygon
  rw [if_neg (by omega)]
  split <;> simp [polygonLoop_eq, *]

/-- The zone of a tracker is no polygon, or one. -/
def Tracker.ZoneOk (s : Tracker K) : Prop := s.countZone = [] ∨ 3 ≤ s.countZone.length

theorem countTrack_eq (hz : s.ZoneOk) (counts : StateCount) (kv : Nat × TrackedPerson K) :
    Py.countTrack s counts kv = Cpp.countTrack s counts kv := by
  have hzone : (¬ s.countZone.isEmpty = true ∧ ¬ Py.pointInPolygon (Py.footPoint kv.2.detection) s.countZone = true) ↔
      (!s.countZone.isEmpty && !Cpp.pointInPolygon (Cpp.footPoint kv.2.detection) s.countZone) = true := by
    obtain hz | hz := hz
    · simp [hz]
    · rw [pointInPolygon_eq hz]
      simp [Py.footPoint, Cpp.footPoint]
  simp only [Py.countTrack, Cpp.countTrack, hzone]
  cases kv.2.dwellState <;> rfl

theorem stateCounts_eq (hz : s.ZoneOk) : Py.stateCounts s = Cpp.getStateCounts s := by
  unfold Py.stateCounts Cpp.getStateCounts
  rw [show Py.countTrack s = Cpp.countTrack s from funext fun _ => funext fun _ => countTrack_eq hz _ _]

omit [Field K] [LinearOrder K] in
theorem visible_eq : Py.visible s = Cpp.visible s := by
  simp only [Py.visible, Cpp.visible, List.filter_map]
  rfl

/-! ## Matching -/

/-- The tracks are in the order of their ids. -/
def Ascending (tracks : List (Nat × TrackedPerson K)) : Prop := tracks.Pairwise fun x y => x.1 < y.1

omit [Field K] [LinearOrder K] in
/-- A stable sort by age leaves tracks of one age in the order of their ids. -/
theorem insertionSort_eq (ht : Ascending tracks) :
    tracks.insertionSort (fun x y => -(x.2.framesTracked : Int) ≤ -(y.2.framesTracked : Int)) =
      tracks.insertionSort Cpp.older := by
  refine insertionSort_congr (ht.imp fun {x y} hxy => ?_)
  unfold Cpp.older
  omega

theorem matchDetections_eq (ht : Ascending tracks) :
    Py.matchDetections hypot cfg tracks detections = Cpp.matchDetections hypot cfg tracks detections := by
  have hiou : Py.matchByIou cfg detections = Cpp.matchByIoU cfg detections := rfl
  have hdist : Py.matchByDistance hypot cfg detections = Cpp.matchByDistance hypot cfg detections := rfl
  unfold Py.matchDetections Cpp.matchDetections
  rw [insertionSort_eq ht, hiou, hdist]
  simp only [List.map_const']

theorem byIoU_ids (m : Matching K) (ts : List (Nat × TrackedPerson K)) :
    let m' := ts.foldl (Cpp.matchByIoU cfg detections) m
    (m'.pairs.map (·.1) ++ m'.unmatched.map (·.1)).Perm
      ((m.pairs.map (·.1) ++ m.unmatched.map (·.1)) ++ ts.map (·.1)) := by
  induction ts generalizing m with
  | nil => simp
  | cons t ts ih =>
    refine (ih _).trans ?_
    rw [List.map_cons, ← List.singleton_append, ← List.append_assoc]
    refine List.Perm.append_right _ ?_
    unfold Cpp.matchByIoU
    split
    · simp only [Matching.pair, List.map_append, List.map_cons, List.map_nil, List.append_assoc]
      exact List.perm_append_comm.append_left _
    · simp

theorem byDistance_ids (m : Matching K) (ts : List (Nat × TrackedPerson K)) :
    ((ts.foldl (Cpp.matchByDistance hypot cfg detections) m).pairs.map (·.1)).Sublist
      (m.pairs.map (·.1) ++ ts.map (·.1)) := by
  induction ts generalizing m with
  | nil => simp
  | cons t ts ih =>
    refine (ih _).trans ?_
    rw [List.map_cons, ← List.singleton_append, ← List.append_assoc]
    refine List.Sublist.append_right ?_ _
    unfold Cpp.matchByDistance
    split
    · simp
    · dsimp only
      split
      · simp [Matching.pair]
      · simp

/-- A track is matched once a frame. -/
theorem matched_nodup (ht : Ascending tracks) :
    ((Cpp.matchDetections hypot cfg tracks detections).map (·.1)).Nodup := by
  unfold Cpp.matchDetections
  split
  · simp
  · dsimp only
    refine (byDistance_ids _ _).nodup ?_
    refine (byIoU_ids _ _).nodup_iff.mpr ?_
    have hids : (tracks.map (·.1)).Nodup := (List.pairwise_map.mpr ht).imp Nat.ne_of_lt
    have hperm := (List.perm_insertionSort Cpp.older tracks).map (·.1)
    simpa using hperm.nodup_iff.mpr hids

/-! ## Removing and adding tracks -/

namespace Tracker

def ids (s : Tracker K) : List Nat := s.tracks.map (·.1)

/-- The tracks are in the order of their ids, and the next id is new. -/
structure Ordered (s : Tracker K) : Prop where
  ascending : s.ids.Pairwise (· < ·)
  below : ∀ i ∈ s.ids, i < s.nextId

def withCounts (s : Tracker K) (entries exits : Nat) : Tracker K :=
  { s with entryCount := entries, exitCount := exits }

section

variable (s) (e x : Nat)

omit [Field K] [LinearOrder K]

@[simp] theorem tracks_withCounts : (s.withCounts e x).tracks = s.tracks := rfl
@[simp] theorem entryCount_withCounts : (s.withCounts e x).entryCount = e := rfl
@[simp] theorem exitCount_withCounts : (s.withCounts e x).exitCount = x := rfl
@[simp] theorem lineEnabled_withCounts : (s.withCounts e x).lineEnabled = s.lineEnabled := rfl
@[simp] theorem lineAbIn_withCounts : (s.withCounts e x).lineAbIn = s.lineAbIn := rfl
@[simp] theorem withCounts_withCounts (e' x' : Nat) : (s.withCounts e x).withCounts e' x' = s.withCounts e' x' := rfl
@[simp] theorem withCounts_self : s.withCounts s.entryCount s.exitCount = s := rfl

end

end Tracker

theorem removeTrack_eq : Py.remove cfg now s trackId = Cpp.removeTrack cfg now s trackId := by
  unfold Py.remove Cpp.removeTrack
  cases s.tracks.lookup trackId with
  | none => rfl
  | some track =>
    have hloss : Cpp.classifyAsEdgeLoss cfg track = true → Cpp.isNearEdge cfg track.detection = true := by
      intro h
      unfold Cpp.classifyAsEdgeLoss at h
      split at h
      · cases h
      next hn => simpa using hn
    dsimp only
    rw [nearEdge_eq, trackRecord_eq]
    by_cases hc : ¬ s.lineEnabled = true ∧ (track.framesTracked : Int) ≥ cfg.minFramesForCount
    · have hc' : (!s.lineEnabled && decide ((track.framesTracked : Int) ≥ cfg.minFramesForCount)) = true := by
        simpa using hc
      rw [if_pos hc, if_pos hc']
      by_cases hl : Cpp.classifyAsEdgeLoss cfg track = true
      · rw [if_pos hl, if_pos (hloss hl)]
      · rw [if_neg hl]
        split <;> rfl
    · have hc' : ¬ (!s.lineEnabled && decide ((track.framesTracked : Int) ≥ cfg.minFramesForCount)) = true := by
        simpa using hc
      rw [if_neg hc, if_neg hc']

theorem addTrack_eq (hs : s.Ordered) (matched : List Nat) (d : DetectionBox K × Nat) :
    Py.addTrack cfg now matched s d = Cpp.addTrack cfg now matched s d := by
  unfold Py.addTrack Cpp.addTrack
  split
  · rfl
  · have hlast : s.tracks.orderedInsert (fun a b => a.1 ≤ b.1) (s.nextId, Cpp.newTrack cfg s.nextId d.1 now) =
        s.tracks ++ [(s.nextId, Cpp.newTrack cfg s.nextId d.1 now)] := by
      refine orderedInsert_last fun kv hkv => ?_
      have := hs.below kv.1 (List.mem_map_of_mem hkv)
      simp only
      omega
    rw [newTrack_eq, hlast]
    cases s.lineEnabled <;> rfl

theorem ordered_addTrack (hs : s.Ordered) (matched : List Nat) (d : DetectionBox K × Nat) :
    (Cpp.addTrack cfg now matched s d).Ordered := by
  rw [← addTrack_eq hs]
  unfold Py.addTrack
  split
  · exact hs
  · have hids : ∀ t : Tracker K, t.tracks = s.tracks ++ [(s.nextId, Py.newTrack cfg s.nextId d.1 now)] →
        t.nextId = s.nextId + 1 → t.Ordered := by
      intro t htracks hnext
      have ht : t.ids = s.ids ++ [s.nextId] := by rw [Tracker.ids, htracks, List.map_append]; rfl
      refine ⟨?_, ?_⟩
      · rw [ht, List.pairwise_append]
        refine ⟨hs.ascending, List.pairwise_singleton _ _, fun i hi j hj => ?_⟩
        rw [List.mem_singleton.mp hj]
        exact hs.below i hi
      · intro i hi
        rw [ht, List.mem_append, List.mem_singleton] at hi
        rw [hnext]
        obtain hi | rfl := hi
        · exact Nat.lt_succ_of_lt (hs.below i hi)
        · exact Nat.lt_succ_self _
    dsimp only
    split
    · exact hids _ rfl rfl
    · exact hids _ rfl rfl

variable (cfg now) in
theorem ordered_removeTrack (hs : s.Ordered) (trackId : Nat) : (Cpp.removeTrack cfg now s trackId).Ordered := by
  have hsub : (Cpp.removeTrack cfg now s trackId).ids.Sublist s.ids ∧
      (Cpp.removeTrack cfg now s trackId).nextId = s.nextId := by
    unfold Cpp.removeTrack
    split
    · exact ⟨.refl _, rfl⟩
    · have hfilter : ((s.tracks.filter (·.1 ≠ trackId)).map (·.1)).Sublist s.ids := List.filter_sublist.map _
      dsimp only
      split
      · split
        · exact ⟨hfilter, rfl⟩
        · split <;> exact ⟨hfilter, rfl⟩
      · exact ⟨hfilter, rfl⟩
  exact ⟨hs.ascending.sublist hsub.1, fun i hi => by rw [hsub.2]; exact hs.below i (hsub.1.subset hi)⟩

/-! ## Matched tracks -/

/-- What a match does to the track, apart from the counts. -/
def moveTrack (hypot : K → K → K) (cfg : TrackerConfig K) (detections : List (DetectionBox K)) (dt now : K)
    (s : Tracker K) (pair : Nat × Nat) : Tracker K :=
  match s.tracks.lookup pair.1, detections[pair.2]? with
  | some track, some det =>
    s.put pair.1 (Cpp.updateDwellState cfg { Cpp.updateVelocity hypot cfg track det dt with
      detection := det
      lastSeenTime := now
      framesTracked := track.framesTracked + 1
      lostFrames := 0
      lastNearEdge := Cpp.isNearEdge cfg det } now)
  | _, _ => s

/-- From where to where a matched person has walked. -/
def movement (tracks : List (Nat × TrackedPerson K)) (detections : List (DetectionBox K)) (pair : Nat × Nat) :
    Option (Point K × Point K) :=
  match tracks.lookup pair.1, detections[pair.2]? with
  | some track, some det => some (Cpp.footPoint track.detection, Cpp.footPoint det)
  | _, _ => none

/-- How many movements of a frame are counted as entries, or as exits, by a
crossing function. -/
def counted (crossing : Point K → Point K → Int) (entry : Bool) (moves : List (Point K × Point K)) : Nat :=
  moves.countP fun m => decide (crossing m.1 m.2 ≠ 0) && (decide (crossing m.1 m.2 > 0) == entry)

/-- The crossings of a tracker's line; none where there is no line. -/
def Tracker.crossing (s : Tracker K) (f : Point K → Point K → Point K → Point K → Int) (p0 p1 : Point K) : Int :=
  if s.lineEnabled then f s.lineA s.lineB p0 p1 else 0

omit [Field K] [LinearOrder K] in
@[simp] theorem Tracker.crossing_withCounts (s : Tracker K) (e x : Nat)
    (f : Point K → Point K → Point K → Point K → Int) : (s.withCounts e x).crossing f = s.crossing f := rfl

/-- A match moves the track and counts the movement. -/
def Counts (f : Point K → Point K → Point K → Point K → Int) (hypot : K → K → K) (cfg : TrackerConfig K)
    (detections : List (DetectionBox K)) (dt now : K) (apply : Tracker K → Nat × Nat → Tracker K) : Prop :=
  ∀ s pair, apply s pair = (moveTrack hypot cfg detections dt now s pair).withCounts
    (s.entryCount + counted (s.crossing f) s.lineAbIn (movement s.tracks detections pair).toList)
    (s.exitCount + counted (s.crossing f) (!s.lineAbIn) (movement s.tracks detections pair).toList)

omit [Field K] [LinearOrder K] in
/-- One movement is counted. -/
theorem count_crossing (s : Tracker K) (crossing : Point K → Point K → Int) (m : Point K × Point K) :
    (if crossing m.1 m.2 ≠ 0 then s.count (decide (crossing m.1 m.2 > 0) == s.lineAbIn) else s) =
      s.withCounts (s.entryCount + counted crossing s.lineAbIn [m]) (s.exitCount + counted crossing (!s.lineAbIn) [m]) := by
  simp only [counted, List.countP_singleton]
  by_cases hd : crossing m.1 m.2 = 0
  · simp [hd, Tracker.withCounts]
  · simp only [ne_eq, hd, not_false_eq_true, if_true, decide_true, Bool.true_and, Tracker.count]
    have hnot : ∀ d b : Bool, (d == !b) = !(d == b) := by decide
    rw [hnot]
    cases decide (crossing m.1 m.2 > 0) == s.lineAbIn <;> rfl

theorem counts_cpp : Counts Cpp.segmentCrossing hypot cfg detections dt now
    (Cpp.applyMatch hypot cfg detections dt now) := by
  intro s pair
  unfold Cpp.applyMatch moveTrack movement
  cases s.tracks.lookup pair.1 with
  | none => rfl
  | some track =>
    cases detections[pair.2]? with
    | none => rfl
    | some det =>
      have hcount := count_crossing s (s.crossing Cpp.segmentCrossing) (Cpp.footPoint track.detection, Cpp.footPoint det)
      dsimp only [Option.toList_some] at hcount ⊢
      unfold Tracker.crossing at hcount ⊢
      cases hl : s.lineEnabled with
      | false =>
        simp only [hl, Bool.false_eq_true, if_false, ne_eq, not_true_eq_false, false_and] at hcount ⊢
        conv_lhs => rw [hcount]
        rfl
      | true =>
        simp only [hl, if_true, true_and] at hcount ⊢
        rw [hcount]
        rfl

theorem counts_py : Counts Py.segmentCrossing hypot cfg detections dt now
    (Py.applyMatch hypot cfg detections dt now) := by
  intro s pair
  unfold Py.applyMatch moveTrack movement
  cases s.tracks.lookup pair.1 with
  | none => rfl
  | some track =>
    cases detections[pair.2]? with
    | none => rfl
    | some det =>
      have hcount := count_crossing s (s.crossing Py.segmentCrossing) (Cpp.footPoint track.detection, Cpp.footPoint det)
      have hfoot : ∀ d : DetectionBox K, Py.footPoint d = Cpp.footPoint d := fun _ => rfl
      dsimp only [Option.toList_some] at hcount ⊢
      unfold Tracker.crossing at hcount ⊢
      rw [updateVelocity_eq, updateDwellState_eq, nearEdge_eq]
      cases hl : s.lineEnabled with
      | false =>
        simp only [hl, Bool.false_eq_true, if_false, ne_eq, not_true_eq_false] at hcount ⊢
        conv_lhs => rw [hcount]
        rfl
      | true =>
        simp only [hl, if_true, hfoot] at hcount ⊢
        rw [hcount]
        rfl

/-- The movements of the matched persons in a frame. -/
def moves (tracks : List (Nat × TrackedPerson K)) (detections : List (DetectionBox K)) (pairs : List (Nat × Nat)) :
    List (Point K × Point K) :=
  pairs.filterMap (movement tracks detections)

omit [LinearOrder K] in
theorem moves_cons (pair : Nat × Nat) :
    moves tracks detections (pair :: pairs) = (movement tracks detections pair).toList ++ moves tracks detections pairs := by
  unfold moves
  cases hm : movement tracks detections pair with
  | none => simp [hm]
  | some m => simp [hm]

omit [Field K] [LinearOrder K] in
theorem ids_put : (s.put trackId track).ids = s.ids := by
  simp only [Tracker.ids, Tracker.put, List.map_map]
  refine List.map_congr_left fun kv _ => ?_
  dsimp only [Function.comp_apply]
  split
  next h => exact h.symm
  next => rfl

omit [Field K] [LinearOrder K] in
theorem lookup_put {i : Nat} (hi : i ≠ trackId) : (s.put trackId track).tracks.lookup i = s.tracks.lookup i := by
  simp only [Tracker.put]
  induction s.tracks with
  | nil => rfl
  | cons kv rest ih =>
    obtain ⟨k, v⟩ := kv
    by_cases hk : k = trackId
    · have hik : (i == trackId) = false := beq_eq_false_iff_ne.mpr hi
      simp [hk, List.lookup_cons, hik, ih]
    · simp [hk, List.lookup_cons, ih]

/-- A match is about its own track, and leaves the configuration alone. -/
theorem moveTrack_frame (hypot : K → K → K) (cfg : TrackerConfig K) (detections : List (DetectionBox K)) (dt now : K)
    (s : Tracker K) (pair : Nat × Nat) :
    let s' := moveTrack hypot cfg detections dt now s pair
    s'.ids = s.ids ∧ s'.nextId = s.nextId ∧ (∀ i ≠ pair.1, s'.tracks.lookup i = s.tracks.lookup i) ∧
      s'.lineEnabled = s.lineEnabled ∧ s'.lineA = s.lineA ∧ s'.lineB = s.lineB ∧ s'.lineAbIn = s.lineAbIn ∧
      s'.countZone = s.countZone := by
  unfold moveTrack
  cases s.tracks.lookup pair.1 with
  | none => exact ⟨rfl, rfl, fun _ _ => rfl, rfl, rfl, rfl, rfl, rfl⟩
  | some track =>
    cases detections[pair.2]? with
    | none => exact ⟨rfl, rfl, fun _ _ => rfl, rfl, rfl, rfl, rfl, rfl⟩
    | some det => exact ⟨ids_put, rfl, fun i hi => lookup_put hi, rfl, rfl, rfl, rfl, rfl⟩

theorem moveTrack_withCounts (pair : Nat × Nat) (e x : Nat) :
    moveTrack hypot cfg detections dt now (s.withCounts e x) pair =
      (moveTrack hypot cfg detections dt now s pair).withCounts e x := by
  show (match s.tracks.lookup pair.1, detections[pair.2]? with | some _, some _ => _ | _, _ => _) = _
  unfold moveTrack
  cases s.tracks.lookup pair.1 with
  | none => rfl
  | some track => cases detections[pair.2]? <;> rfl

theorem foldl_moveTrack_withCounts (e x : Nat) :
    pairs.foldl (moveTrack hypot cfg detections dt now) (s.withCounts e x) =
      (pairs.foldl (moveTrack hypot cfg detections dt now) s).withCounts e x := by
  induction pairs generalizing s with
  | nil => rfl
  | cons pair pairs ih =>
    rw [List.foldl_cons, moveTrack_withCounts, ih]
    rfl

/-- **The matches of a frame** move each matched track, and count the movements
that were there before the frame. -/
theorem foldl_counts {f : Point K → Point K → Point K → Point K → Int} {apply : Tracker K → Nat × Nat → Tracker K}
    (ha : Counts f hypot cfg detections dt now apply) (hn : (pairs.map (·.1)).Nodup) (s : Tracker K) :
    pairs.foldl apply s = (pairs.foldl (moveTrack hypot cfg detections dt now) s).withCounts
      (s.entryCount + counted (s.crossing f) s.lineAbIn (moves s.tracks detections pairs))
      (s.exitCount + counted (s.crossing f) (!s.lineAbIn) (moves s.tracks detections pairs)) := by
  induction pairs generalizing s with
  | nil => rfl
  | cons pair pairs ih =>
    rw [List.map_cons, List.nodup_cons] at hn
    obtain ⟨hnot, hn⟩ := hn
    obtain ⟨-, -, hlookup, hl, hA, hB, hin, -⟩ := moveTrack_frame hypot cfg detections dt now s pair
    have hmoves : moves (moveTrack hypot cfg detections dt now s pair).tracks detections pairs =
        moves s.tracks detections pairs := by
      refine List.filterMap_congr fun other ho => ?_
      have hne : other.1 ≠ pair.1 := fun he => hnot (he ▸ List.mem_map_of_mem ho)
      rw [movement, movement, hlookup other.1 hne]
    have hcross : (moveTrack hypot cfg detections dt now s pair).crossing f = s.crossing f := by
      funext p0 p1
      rw [Tracker.crossing, Tracker.crossing, hl, hA, hB]
    rw [List.foldl_cons, ha s pair, ih hn, List.foldl_cons, foldl_moveTrack_withCounts, moves_cons]
    have hsum : ∀ entry, counted (s.crossing f) entry ((movement s.tracks detections pair).toList ++
        moves s.tracks detections pairs) = counted (s.crossing f) entry (movement s.tracks detections pair).toList +
          counted (s.crossing f) entry (moves s.tracks detections pairs) := fun _ => List.countP_append
    rw [hsum, hsum, ← Nat.add_assoc, ← Nat.add_assoc]
    rw [Tracker.entryCount_withCounts, Tracker.exitCount_withCounts, Tracker.crossing_withCounts,
      Tracker.withCounts_withCounts, Tracker.lineAbIn_withCounts, Tracker.tracks_withCounts, hcross, hin, hmoves]

/-! ## A frame -/

/-- The tracks that have not been matched are lost one frame more. -/
def Tracker.loseAll (s : Tracker K) (pairs : List (Nat × Nat)) : Tracker K :=
  { s with tracks := s.tracks.map (Cpp.lose (pairs.map (·.1))) }

/-- Those that have been lost too long. -/
def Tracker.overdue (cfg : TrackerConfig K) (s : Tracker K) (pairs : List (Nat × Nat)) : List Nat :=
  (s.tracks.filter fun kv => kv.1 ∉ pairs.map (·.1) ∧ (kv.2.lostFrames : Int) > Cpp.maxLost cfg kv.2).map (·.1)

/-- What follows the matches in a frame: tracks that have been lost too long
are removed, and what has not been matched is a new track. -/
def settle (cfg : TrackerConfig K) (detections : List (DetectionBox K)) (now : K) (pairs : List (Nat × Nat))
    (s : Tracker K) : Tracker K :=
  let s := s.loseAll pairs
  detections.zipIdx.foldl (Cpp.addTrack cfg now (pairs.map (·.2)))
    ((s.overdue cfg pairs).foldl (Cpp.removeTrack cfg now) s)

omit [Field K] [LinearOrder K] in
theorem ordered_of_ids {t : Tracker K} (hs : s.Ordered) (hi : t.ids = s.ids) (hn : t.nextId = s.nextId) : t.Ordered :=
  ⟨hi ▸ hs.ascending, fun i h => by rw [hn]; exact hs.below i (hi ▸ h)⟩

omit [Field K] [LinearOrder K] in
theorem ids_loseAll : (s.loseAll pairs).ids = s.ids := by
  simp only [Tracker.ids, Tracker.loseAll, List.map_map]
  refine List.map_congr_left fun kv _ => ?_
  simp only [Function.comp_apply, Cpp.lose]
  split <;> rfl

theorem ordered_foldl_removeTrack (hs : s.Ordered) (ids : List Nat) : (ids.foldl (Cpp.removeTrack cfg now) s).Ordered :=
  List.foldlRecOn (motive := Tracker.Ordered) ids _ hs fun _ hs i _ => ordered_removeTrack cfg now hs i

theorem ordered_foldl_addTrack (hs : s.Ordered) (matched : List Nat) (ds : List (DetectionBox K × Nat)) :
    (ds.foldl (Cpp.addTrack cfg now matched) s).Ordered :=
  List.foldlRecOn (motive := Tracker.Ordered) ds _ hs fun _ hs d _ => ordered_addTrack hs matched d

theorem foldl_addTrack_eq (hs : s.Ordered) (matched : List Nat) (ds : List (DetectionBox K × Nat)) :
    ds.foldl (Py.addTrack cfg now matched) s = ds.foldl (Cpp.addTrack cfg now matched) s := by
  induction ds generalizing s with
  | nil => rfl
  | cons d ds ih =>
    rw [List.foldl_cons, List.foldl_cons, addTrack_eq hs]
    exact ih (ordered_addTrack hs matched d)

theorem ordered_settle (hs : s.Ordered) : (settle cfg detections now pairs s).Ordered :=
  ordered_foldl_addTrack (ordered_foldl_removeTrack (ordered_of_ids hs ids_loseAll rfl) _) _ _

theorem ordered_foldl_moveTrack (hs : s.Ordered) :
    (pairs.foldl (moveTrack hypot cfg detections dt now) s).Ordered := by
  refine List.foldlRecOn (motive := Tracker.Ordered) pairs _ hs fun s hs pair _ => ?_
  obtain ⟨hids, hnext, -⟩ := moveTrack_frame hypot cfg detections dt now s pair
  exact ordered_of_ids hs hids hnext

/-! With an entry line, only crossings are counted. -/

theorem removeTrack_withCounts (hl : s.lineEnabled = true) (e x : Nat) (i : Nat) :
    Cpp.removeTrack cfg now (s.withCounts e x) i = (Cpp.removeTrack cfg now s i).withCounts e x ∧
      (Cpp.removeTrack cfg now s i).lineEnabled = true := by
  unfold Cpp.removeTrack
  rw [Tracker.tracks_withCounts]
  cases s.tracks.lookup i with
  | none => exact ⟨rfl, hl⟩
  | some track => simp [hl, Tracker.withCounts]

theorem addTrack_withCounts (hl : s.lineEnabled = true) (e x : Nat) (matched : List Nat) (d : DetectionBox K × Nat) :
    Cpp.addTrack cfg now matched (s.withCounts e x) d = (Cpp.addTrack cfg now matched s d).withCounts e x ∧
      (Cpp.addTrack cfg now matched s d).lineEnabled = true := by
  unfold Cpp.addTrack
  split
  · exact ⟨rfl, hl⟩
  · simp [hl, Tracker.withCounts]

omit [Field K] [LinearOrder K] in
/-- A step that does not count leaves any counts alone, and so does a loop of it. -/
theorem foldl_withCounts {α : Type} {f : Tracker K → α → Tracker K}
    (hf : ∀ s a e x, s.lineEnabled = true → f (s.withCounts e x) a = (f s a).withCounts e x ∧ (f s a).lineEnabled = true)
    (hl : s.lineEnabled = true) (as : List α) (e x : Nat) :
    as.foldl f (s.withCounts e x) = (as.foldl f s).withCounts e x ∧ (as.foldl f s).lineEnabled = true := by
  induction as generalizing s with
  | nil => exact ⟨rfl, hl⟩
  | cons a as ih =>
    obtain ⟨hfa, hla⟩ := hf s a e x hl
    rw [List.foldl_cons, List.foldl_cons, hfa]
    exact ih hla

theorem settle_withCounts (hl : s.lineEnabled = true) (e x : Nat) :
    settle cfg detections now pairs (s.withCounts e x) = (settle cfg detections now pairs s).withCounts e x := by
  have hlose : (s.withCounts e x).loseAll pairs = (s.loseAll pairs).withCounts e x := rfl
  have hoverdue : ((s.loseAll pairs).withCounts e x).overdue cfg pairs = (s.loseAll pairs).overdue cfg pairs := rfl
  obtain ⟨heq, hl'⟩ := foldl_withCounts (s := s.loseAll pairs) (f := Cpp.removeTrack cfg now)
    (fun s i e x hl => removeTrack_withCounts hl e x i) hl ((s.loseAll pairs).overdue cfg pairs) e x
  have hadd := foldl_withCounts (f := Cpp.addTrack cfg now (pairs.map (·.2)))
    (fun s d e x hl => addTrack_withCounts hl e x _ d) hl' detections.zipIdx e x
  unfold settle
  dsimp only
  rw [hlose, hoverdue, heq]
  exact hadd.1

theorem foldl_moveTrack_config :
    let s' := pairs.foldl (moveTrack hypot cfg detections dt now) s
    s'.lineEnabled = s.lineEnabled ∧ s'.lineA = s.lineA ∧ s'.lineB = s.lineB ∧ s'.lineAbIn = s.lineAbIn ∧
      s'.countZone = s.countZone := by
  induction pairs generalizing s with
  | nil => exact ⟨rfl, rfl, rfl, rfl, rfl⟩
  | cons pair pairs ih =>
    obtain ⟨-, -, -, hl, hA, hB, hin, hz⟩ := moveTrack_frame hypot cfg detections dt now s pair
    have hrest := ih (s := moveTrack hypot cfg detections dt now s pair)
    rw [hl, hA, hB, hin, hz] at hrest
    exact hrest

/-- The time since the last frame. -/
def Tracker.elapsed (s : Tracker K) (now : K) : K := if 0 < s.lastUpdate then now - s.lastUpdate else 0

/-- What a frame does to the tracks, apart from the counts of its crossings. -/
def frameOf (hypot : K → K → K) (cfg : TrackerConfig K) (s : Tracker K) (detections : List (DetectionBox K)) (now : K) :
    Tracker K :=
  (Cpp.matchDetections hypot cfg s.tracks detections).foldl
    (moveTrack hypot cfg detections (s.elapsed now) now) { s with lastUpdate := now }

/-- The movements of a frame. -/
def movesOf (hypot : K → K → K) (cfg : TrackerConfig K) (s : Tracker K) (detections : List (DetectionBox K)) :
    List (Point K × Point K) :=
  moves s.tracks detections (Cpp.matchDetections hypot cfg s.tracks detections)

/-- The detections of persons, as the C++ tracker gets them. -/
def persons (detections : List (DetectionBox K)) : List (DetectionBox K × Int) := detections.map fun d => (d, 0)

omit [Field K] [LinearOrder K] in
theorem filter_persons : ((persons detections).filter (·.2 = 0)).map (·.1) = detections := by
  induction detections with
  | nil => rfl
  | cons d ds ih =>
    unfold persons at ih ⊢
    simpa using ih

omit [Field K] [LinearOrder K] in
theorem ascending_of_ordered (hs : s.Ordered) : Ascending s.tracks := List.pairwise_map.mp hs.ascending

theorem cpp_update (hs : s.Ordered) : Cpp.update hypot cfg s (persons detections) now =
    settle cfg detections now (Cpp.matchDetections hypot cfg s.tracks detections)
      ((frameOf hypot cfg s detections now).withCounts
        (s.entryCount + counted (s.crossing Cpp.segmentCrossing) s.lineAbIn (movesOf hypot cfg s detections))
        (s.exitCount + counted (s.crossing Cpp.segmentCrossing) (!s.lineAbIn) (movesOf hypot cfg s detections))) := by
  have hn := @matched_nodup K _ _ hypot cfg detections s.tracks (ascending_of_ordered hs)
  have hfold := foldl_counts (@counts_cpp K _ _ hypot cfg detections now (s.elapsed now)) hn { s with lastUpdate := now }
  unfold Cpp.update
  dsimp only
  rw [filter_persons]
  exact congrArg (settle cfg detections now _) hfold

theorem py_update (hs : s.Ordered) : Py.update hypot cfg s detections now =
    settle cfg detections now (Cpp.matchDetections hypot cfg s.tracks detections)
      ((frameOf hypot cfg s detections now).withCounts
        (s.entryCount + counted (s.crossing Py.segmentCrossing) s.lineAbIn (movesOf hypot cfg s detections))
        (s.exitCount + counted (s.crossing Py.segmentCrossing) (!s.lineAbIn) (movesOf hypot cfg s detections))) := by
  have hasc := ascending_of_ordered hs
  have hn := @matched_nodup K _ _ hypot cfg detections s.tracks hasc
  have hfold := foldl_counts (@counts_py K _ _ hypot cfg detections now (s.elapsed now)) hn { s with lastUpdate := now }
  have hmoved : (frameOf hypot cfg s detections now).Ordered := ordered_foldl_moveTrack (ordered_of_ids hs rfl rfl)
  have hremove : Py.remove cfg now = Cpp.removeTrack cfg now := funext fun _ => funext fun _ => removeTrack_eq
  have hlost : Py.maxLost cfg = Cpp.maxLost cfg := funext fun _ => maxLost_eq
  have hlose : Py.lose (K := K) = Cpp.lose := rfl
  unfold Py.update
  dsimp only
  rw [matchDetections_eq hasc, hremove, hlost, hlose]
  refine Eq.trans ?_ (congrArg (settle cfg detections now _) hfold)
  refine foldl_addTrack_eq (ordered_foldl_removeTrack (ordered_of_ids ?_ ids_loseAll rfl) _) _ _
  refine (congrArg Tracker.Ordered hfold).mpr ?_
  exact ordered_of_ids hmoved rfl rfl

variable (hypot cfg detections now) in
/-- **A frame of both trackers**, from states that differ in their counts: what
they come to differs in the counts alone, by the crossings of the frame. -/
theorem update_counts (hs : s.Ordered) (hl : s.lineEnabled = true) (e x : Nat) :
    Py.update hypot cfg (s.withCounts e x) detections now =
      (Cpp.update hypot cfg s (persons detections) now).withCounts
        (e + counted (s.crossing Py.segmentCrossing) s.lineAbIn (movesOf hypot cfg s detections))
        (x + counted (s.crossing Py.segmentCrossing) (!s.lineAbIn) (movesOf hypot cfg s detections)) ∧
      (Cpp.update hypot cfg s (persons detections) now).entryCount =
        s.entryCount + counted (s.crossing Cpp.segmentCrossing) s.lineAbIn (movesOf hypot cfg s detections) ∧
      (Cpp.update hypot cfg s (persons detections) now).exitCount =
        s.exitCount + counted (s.crossing Cpp.segmentCrossing) (!s.lineAbIn) (movesOf hypot cfg s detections) := by
  have hframe : (frameOf hypot cfg s detections now).lineEnabled = true := by
    rw [frameOf, foldl_moveTrack_config.1]
    exact hl
  have hwith : frameOf hypot cfg (s.withCounts e x) detections now =
      (frameOf hypot cfg s detections now).withCounts e x :=
    foldl_moveTrack_withCounts (s := { s with lastUpdate := now }) e x
  rw [cpp_update hs, py_update (s := s.withCounts e x) (ordered_of_ids hs rfl rfl), hwith,
    Tracker.withCounts_withCounts, settle_withCounts hframe, settle_withCounts hframe]
  exact ⟨rfl, rfl, rfl⟩

/-- Without an entry line there is no difference. -/
theorem update_eq (hs : s.Ordered) (hl : s.lineEnabled = false) :
    Py.update hypot cfg s detections now = Cpp.update hypot cfg s (persons detections) now := by
  have hnone : ∀ f : Point K → Point K → Point K → Point K → Int, s.crossing f = fun _ _ => 0 := by
    intro f
    funext p0 p1
    simp [Tracker.crossing, hl]
  rw [cpp_update hs, py_update hs, hnone, hnone]

end RetailVision.PersonTracker
