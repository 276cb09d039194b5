/-
The two person trackers, `core-cpp/person_tracker.cpp` and
`core-py/retail_core/tracker.py`, on the same records under the same names.
The numbers are those of an ordered field, so that arithmetic is exact, and
`std::hypot` and `math.hypot` are a parameter.

A `std::map` from track ids, and a dict of them, is a list of the ids with
their tracks, in the order of iteration.
-/
import Mathlib.Algebra.Field.Defs
import Mathlib.Data.List.Sort
import Mathlib.Data.Rat.Cast.Defs

set_option linter.all false

namespace RetailVision.PersonTracker

/-- A person. The C++ tracker keeps the detections with `target == 0` and no
others, and its boxes are without the field from there on. -/
structure DetectionBox (K : Type) where
  x : K
  y : K
  w : K
  h : K
  score : K

inductive DwellState
  | transient
  | dwelling
  | engaged
  | assistance
  deriving DecidableEq

/-- The states are numbered in this order. -/
def DwellState.value : DwellState → Nat
  | .transient => 0
  | .dwelling => 1
  | .engaged => 2
  | .assistance => 3

structure TrackerConfig (K : Type) where
  iouThreshold : K
  distThreshold : K
  maxLostFramesCenter : Int
  maxLostFramesEdge : Int
  velAlpha : K
  velAlphaSudden : K
  velocityZeroThreshold : K
  dwellSpeedThreshold : K
  dwellMinDuration : K
  dwellAssistanceThreshold : K
  dwellMinFrames : Int
  frameWidth : Nat
  frameHeight : Nat
  edgeMargin : K
  minFramesForCount : Int
  stationaryStableThreshold : Int
  stationaryDecaySlow : Int
  stationaryDecayFast : Int
  avgPersonHeightM : K
  /-- a velocity is divided by the size of the frame -/
  frame_pos : 0 < frameWidth ∧ 0 < frameHeight

/-- The defaults of both trackers. -/
def TrackerConfig.default (K : Type) [DivisionRing K] : TrackerConfig K where
  iouThreshold := 0.2
  distThreshold := 0.15
  maxLostFramesCenter := 90
  maxLostFramesEdge := 15
  velAlpha := 0.08
  velAlphaSudden := 0.6
  velocityZeroThreshold := 3
  dwellSpeedThreshold := 10
  dwellMinDuration := 1.5
  dwellAssistanceThreshold := 20
  dwellMinFrames := 5
  frameWidth := 640
  frameHeight := 640
  edgeMargin := 0.15
  minFramesForCount := 10
  stationaryStableThreshold := 30
  stationaryDecaySlow := 2
  stationaryDecayFast := 5
  avgPersonHeightM := 1.7
  frame_pos := ⟨by decide, by decide⟩

structure TrackedPerson (K : Type) where
  trackId : Nat
  detection : DetectionBox K
  velocityX : K
  velocityY : K
  speedPxS : K
  speedMS : K
  dwellState : DwellState
  dwellDurationSec : K
  firstSeenTime : K
  lastSeenTime : K
  dwellStartTime : K
  engagementStartTime : K
  framesTracked : Nat
  stationaryFrames : Int
  lostFrames : Nat
  speedSum : K
  speedSamples : Nat
  lastNearEdge : Bool

structure TrackRecord (K : Type) where
  trackId : Nat
  dwellTime : K
  engagementTime : K
  avgSpeed : K
  removalTime : K
  exitedAtEdge : Bool

structure StateCount where
  total : Nat
  browsing : Nat
  engaged : Nat
  assistance : Nat
  deriving DecidableEq

def StateCount.zero : StateCount := { total := 0, browsing := 0, engaged := 0, assistance := 0 }

/-- A point, or a corner of a zone. -/
abbrev Point (K : Type) := K × K

/-- `PersonTracker`, and the records its callback has been given. -/
structure Tracker (K : Type) where
  tracks : List (Nat × TrackedPerson K)
  nextId : Nat
  lastUpdate : K
  entryCount : Nat
  exitCount : Nat
  countZone : List (Point K)
  lineEnabled : Bool
  lineA : Point K
  lineB : Point K
  lineAbIn : Bool
  removed : List (TrackRecord K)

/-- A track that has been matched before others. -/
structure Matching (K : Type) where
  pairs : List (Nat × Nat)
  used : List Bool
  unmatched : List (Nat × TrackedPerson K)

variable {K : Type}

/-- The loop over the detections: the index of the first one that is not used
and better than the bound, and than each before it. -/
def scan (better : K → K → Bool) (value : DetectionBox K → K) (used : List Bool) :
    K → Option Nat → List (DetectionBox K × Nat) → Option Nat
  | _, bestIdx, [] => bestIdx
  | best, bestIdx, (det, d) :: rest =>
    if used.getD d false then scan better value used best bestIdx rest
    else if better (value det) best then scan better value used (value det) (some d) rest
    else scan better value used best bestIdx rest

namespace Matching

/-- `matches` gets the pair. -/
def pair (m : Matching K) (trackId d : Nat) : Matching K :=
  { m with pairs := m.pairs ++ [(trackId, d)], used := m.used.set d true }

end Matching

namespace Tracker

/-- `tracks[trackId] = track`, for an id that is there. -/
def put (s : Tracker K) (trackId : Nat) (track : TrackedPerson K) : Tracker K :=
  { s with tracks := s.tracks.map fun kv => if kv.1 = trackId then (trackId, track) else kv }

/-- A crossing of the entry line is counted. -/
def count (s : Tracker K) (isIn : Bool) : Tracker K :=
  if isIn then { s with entryCount := s.entryCount + 1 } else { s with exitCount := s.exitCount + 1 }

end Tracker

end RetailVision.PersonTracker

/-! # The C++ tracker

`core-cpp/person_tracker.cpp` and `core-cpp/geometry.h`. `std::sort` leaves the
order of tracks of the same age open; here it is that of their ids.

Left out: the log, and `setConfig` on a tracker that has been used.
-/

namespace RetailVision.PersonTracker.Cpp

variable {K : Type} [Field K] [LinearOrder K]

/-! ## `geometry.h` -/

/-- The edges from the point before, as long as there are points. -/
def rayCrossings (p : Point K) : Point K → Bool → List (Point K) → Bool
  | _, inside, [] => inside
  | j, inside, i :: rest =>
    let crosses := decide (p.2 < i.2) != decide (p.2 < j.2) &&
      decide (p.1 < (j.1 - i.1) * (p.2 - i.2) / (j.2 - i.2) + i.1)
    rayCrossings p i (if crosses then !inside else inside) rest

def pointInPolygon (p : Point K) (poly : List (Point K)) : Bool :=
  if poly.length < 3 then false
  else match poly.getLast? with
    | none => false
    | some last => rayCrossings p last false poly

/-- Positive: `p` is on the left of `a -> b`. -/
def lineSide (a b p : Point K) : K := (b.1 - a.1) * (p.2 - a.2) - (b.2 - a.2) * (p.1 - a.1)

/-- Whether the movement `p0 -> p1` crosses `a -> b`: `1` from the left to the
right, `-1` from the right to the left. -/
def segmentCrossing (a b p0 p1 : Point K) : Int :=
  let side0 := lineSide a b p0
  let side1 := lineSide a b p1
  if side0 = 0 ∨ side1 = 0 ∨ (0 < side0 ↔ 0 < side1) then 0
  else
    let sa := lineSide p0 p1 a
    let sb := lineSide p0 p1 b
    if sa = 0 ∨ sb = 0 ∨ (0 < sa ↔ 0 < sb) then 0
    else if 0 < side0 then 1 else -1

/-! ## Tracks -/

section

variable (hypot : K → K → K) (cfg : TrackerConfig K)

def footPoint (d : DetectionBox K) : Point K := (d.x, d.y + d.h * 0.5)

def isNearEdge (det : DetectionBox K) : Bool :=
  let margin := cfg.edgeMargin
  det.x < margin || 1 - margin < det.x || det.y < margin || 1 - margin < det.y

def isMovingTowardEdge (track : TrackedPerson K) : Bool :=
  let marginFrac : K := 0.3
  if track.velocityX < -20 ∧ track.detection.x < marginFrac then true
  else if 20 < track.velocityX ∧ 1 - marginFrac < track.detection.x then true
  else if track.velocityY < -40 ∧ track.detection.y < marginFrac then true
  else if 40 < track.velocityY ∧ 1 - marginFrac < track.detection.y then true
  else false

def classifyAsEdgeLoss (track : TrackedPerson K) : Bool :=
  if !isNearEdge cfg track.detection then false else isMovingTowardEdge track

def computeIoU (a b : DetectionBox K) : K :=
  let interX1 := max (a.x - a.w / 2) (b.x - b.w / 2)
  let interY1 := max (a.y - a.h / 2) (b.y - b.h / 2)
  let interX2 := min (a.x + a.w / 2) (b.x + b.w / 2)
  let interY2 := min (a.y + a.h / 2) (b.y + b.h / 2)
  let interW := max 0 (interX2 - interX1)
  let interH := max 0 (interY2 - interY1)
  let interArea := interW * interH
  let unionArea := a.w * a.h + b.w * b.h - interArea
  if 0 < unionArea then interArea / unionArea else 0

/-- The position of a lost track, from its velocity. -/
def predict (track : TrackedPerson K) : DetectionBox K :=
  let pred := track.detection
  if 0 < track.lostFrames ∧ 1 < track.speedPxS then
    let dt := (track.lostFrames : K) / 15
    { pred with
      x := pred.x + track.velocityX / cfg.frameWidth * dt
      y := pred.y + track.velocityY / cfg.frameHeight * dt }
  else pred

/-- Older tracks first. -/
def older (a b : Nat × TrackedPerson K) : Prop :=
  b.2.framesTracked < a.2.framesTracked ∨ a.2.framesTracked = b.2.framesTracked ∧ a.1 ≤ b.1

instance : DecidableRel (older (K := K)) := fun _ _ => inferInstanceAs (Decidable (_ ∨ _))

/-- The first pass: by overlap with the predicted position. -/
def matchByIoU (detections : List (DetectionBox K)) (m : Matching K) (track : Nat × TrackedPerson K) : Matching K :=
  match scan (· > ·) (computeIoU (predict cfg track.2)) m.used cfg.iouThreshold none detections.zipIdx with
  | some d => m.pair track.1 d
  | none => { m with unmatched := m.unmatched ++ [track] }

/-- The second pass: by the distance of the centres, for a track lost only a
short time. -/
def matchByDistance (detections : List (DetectionBox K)) (m : Matching K) (track : Nat × TrackedPerson K) : Matching K :=
  if 5 < track.2.lostFrames then m
  else
    let pred := predict cfg track.2
    match scan (· < ·) (fun det => hypot (det.x - pred.x) (det.y - pred.y)) m.used cfg.distThreshold none
        detections.zipIdx with
    | some d => m.pair track.1 d
    | none => m

def matchDetections (tracks : List (Nat × TrackedPerson K)) (detections : List (DetectionBox K)) : List (Nat × Nat) :=
  if tracks = [] ∨ detections = [] then []
  else
    let m : Matching K := { pairs := [], used := detections.map fun _ => false, unmatched := [] }
    let m := (tracks.insertionSort older).foldl (matchByIoU cfg detections) m
    (m.unmatched.foldl (matchByDistance hypot cfg detections) m).pairs

def updateVelocity (track : TrackedPerson K) (newDet : DetectionBox K) (dt : K) : TrackedPerson K :=
  if dt ≤ 0.001 then track
  else
    let ivx := (newDet.x - track.detection.x) * cfg.frameWidth / dt
    let ivy := (newDet.y - track.detection.y) * cfg.frameHeight / dt
    let instantSpeed := hypot ivx ivy
    let prevSpeed := track.speedPxS
    let suddenStop := decide (10 < prevSpeed) && decide (0.5 < (prevSpeed - instantSpeed) / prevSpeed)
    let suddenStart := decide (prevSpeed < 5) && decide (50 < instantSpeed)
    let track :=
      if instantSpeed < cfg.velocityZeroThreshold then { track with velocityX := 0, velocityY := 0, speedPxS := 0 }
      else
        let alpha := if suddenStop || suddenStart then cfg.velAlphaSudden else cfg.velAlpha
        let vx := (1 - alpha) * track.velocityX + alpha * ivx
        let vy := (1 - alpha) * track.velocityY + alpha * ivy
        { track with velocityX := vx, velocityY := vy, speedPxS := hypot vx vy }
    let bboxHPx := newDet.h * cfg.frameHeight
    let speedMS := if 1 < bboxHPx then track.speedPxS / bboxHPx * cfg.avgPersonHeightM else 0
    { track with speedMS := speedMS, speedSum := track.speedSum + speedMS, speedSamples := track.speedSamples + 1 }

def updateStationaryFrames (track : TrackedPerson K) (isStationary : Bool) : TrackedPerson K :=
  if isStationary then { track with stationaryFrames := track.stationaryFrames + 1 }
  else if track.stationaryFrames > cfg.stationaryStableThreshold then
    { track with stationaryFrames := max 0 (track.stationaryFrames - cfg.stationaryDecaySlow) }
  else { track with stationaryFrames := max 0 (track.stationaryFrames - cfg.stationaryDecayFast) }

def updateDwellState (track : TrackedPerson K) (now : K) : TrackedPerson K :=
  let isStationary := decide (track.speedPxS < cfg.dwellSpeedThreshold)
  let track := updateStationaryFrames cfg track isStationary
  let isStill := isStationary && decide (track.stationaryFrames ≥ cfg.dwellMinFrames)
  if !isStill then
    if track.stationaryFrames = 0 then { track with dwellState := .transient, dwellStartTime := 0, dwellDurationSec := 0 }
    else track
  else
    let track := if track.dwellStartTime ≤ 0 then { track with dwellStartTime := now } else track
    let duration := now - track.dwellStartTime
    let prevState := track.dwellState
    let state :=
      if cfg.dwellAssistanceThreshold ≤ duration then .assistance
      else if cfg.dwellMinDuration ≤ duration then .engaged
      else .dwelling
    let track := { track with dwellDurationSec := duration, dwellState := state }
    if prevState.value < DwellState.engaged.value ∧ DwellState.engaged.value ≤ state.value then
      { track with engagementStartTime := now }
    else track

/-! ## The tracker -/

/-- The record of a track that is removed. -/
def trackRecord (track : TrackedPerson K) (now : K) : TrackRecord K where
  trackId := track.trackId
  dwellTime := track.dwellDurationSec
  engagementTime := if 0 < track.engagementStartTime then now - track.engagementStartTime else 0
  avgSpeed := if 0 < track.speedSamples then track.speedSum / track.speedSamples else 0
  removalTime := now
  exitedAtEdge := isNearEdge cfg track.detection

def removeTrack (now : K) (s : Tracker K) (trackId : Nat) : Tracker K :=
  match s.tracks.lookup trackId with
  | none => s
  | some track =>
    let s :=
      if !s.lineEnabled && decide ((track.framesTracked : Int) ≥ cfg.minFramesForCount) then
        if classifyAsEdgeLoss cfg track then { s with exitCount := s.exitCount + 1 }
        else if isNearEdge cfg track.detection then { s with exitCount := s.exitCount + 1 }
        else s
      else s
    { s with removed := s.removed ++ [trackRecord cfg track now], tracks := s.tracks.filter (·.1 ≠ trackId) }

/-- A matched track takes over its detection. -/
def applyMatch (detections : List (DetectionBox K)) (dt now : K) (s : Tracker K) (pair : Nat × Nat) : Tracker K :=
  match s.tracks.lookup pair.1, detections[pair.2]? with
  | some track, some det =>
    let dir := segmentCrossing s.lineA s.lineB (footPoint track.detection) (footPoint det)
    let moved := updateVelocity hypot cfg track det dt
    let s := if s.lineEnabled ∧ dir ≠ 0 then s.count (decide (dir > 0) == s.lineAbIn) else s
    s.put pair.1 (updateDwellState cfg { moved with
      detection := det
      lastSeenTime := now
      framesTracked := track.framesTracked + 1
      lostFrames := 0
      lastNearEdge := isNearEdge cfg det } now)
  | _, _ => s

/-- How long a track may be lost. -/
def maxLost (track : TrackedPerson K) : Int :=
  if classifyAsEdgeLoss cfg track then cfg.maxLostFramesEdge else cfg.maxLostFramesCenter

/-- A track that has not been matched is lost one frame more. -/
def lose (matched : List Nat) (track : Nat × TrackedPerson K) : Nat × TrackedPerson K :=
  if track.1 ∈ matched then track else (track.1, { track.2 with lostFrames := track.2.lostFrames + 1 })

def newTrack (trackId : Nat) (det : DetectionBox K) (now : K) : TrackedPerson K where
  trackId := trackId
  detection := det
  velocityX := 0
  velocityY := 0
  speedPxS := 0
  speedMS := 0
  dwellState := .transient
  dwellDurationSec := 0
  firstSeenTime := now
  lastSeenTime := now
  dwellStartTime := 0
  engagementStartTime := 0
  framesTracked := 1
  stationaryFrames := 0
  lostFrames := 0
  speedSum := 0
  speedSamples := 0
  lastNearEdge := isNearEdge cfg det

/-- A detection that has not been matched is a new track. -/
def addTrack (now : K) (matched : List Nat) (s : Tracker K) (det : DetectionBox K × Nat) : Tracker K :=
  if det.2 ∈ matched then s
  else
    { s with
      tracks := s.tracks.orderedInsert (fun a b => a.1 ≤ b.1) (s.nextId, newTrack cfg s.nextId det.1 now)
      nextId := s.nextId + 1
      entryCount := if s.lineEnabled then s.entryCount else s.entryCount + 1 }

/-- `update`; of a detection the class id is beside the box. -/
def update (s : Tracker K) (detections : List (DetectionBox K × Int)) (now : K) : Tracker K :=
  let dt := if 0 < s.lastUpdate then now - s.lastUpdate else 0
  let s := { s with lastUpdate := now }
  let persons := (detections.filter (·.2 = 0)).map (·.1)
  let pairs := matchDetections hypot cfg s.tracks persons
  let s := pairs.foldl (applyMatch hypot cfg persons dt now) s
  let matchedIds := pairs.map (·.1)
  let s := { s with tracks := s.tracks.map (lose matchedIds) }
  let toRemove := s.tracks.filter fun kv => kv.1 ∉ matchedIds ∧ (kv.2.lostFrames : Int) > maxLost cfg kv.2
  let s := (toRemove.map (·.1)).foldl (removeTrack cfg now) s
  persons.zipIdx.foldl (addTrack cfg now (pairs.map (·.2))) s

end

/-- What `update` returns: the visible tracks. -/
def visible (s : Tracker K) : List (TrackedPerson K) :=
  (s.tracks.filter fun kv => kv.2.lostFrames = 0).map (·.2)

def countTrack (s : Tracker K) (counts : StateCount) (track : Nat × TrackedPerson K) : StateCount :=
  if track.2.lostFrames > 0 then counts
  else if !s.countZone.isEmpty && !pointInPolygon (footPoint track.2.detection) s.countZone then counts
  else
    let counts := { counts with total := counts.total + 1 }
    match track.2.dwellState with
    | .transient | .dwelling => { counts with browsing := counts.browsing + 1 }
    | .engaged => { counts with engaged := counts.engaged + 1 }
    | .assistance => { counts with assistance := counts.assistance + 1 }

def getStateCounts (s : Tracker K) : StateCount := s.tracks.foldl (countTrack s) .zero

def init : Tracker K where
  tracks := []
  nextId := 0
  lastUpdate := 0
  entryCount := 0
  exitCount := 0
  countZone := []
  lineEnabled := false
  lineA := (0, 0)
  lineB := (0, 0)
  lineAbIn := true
  removed := []

def setCountZone (s : Tracker K) (polygon : List (Point K)) : Tracker K :=
  { s with countZone := if polygon.length ≥ 3 then polygon else [] }

def setEntryLine (s : Tracker K) (a b : Point K) (abIn : Bool) : Tracker K :=
  { s with lineA := a, lineB := b, lineAbIn := abIn, lineEnabled := true }

end RetailVision.PersonTracker.Cpp

/-! # The Python tracker

`core-py/retail_core/tracker.py`, `dwell.py` and `geometry.py`. A dict keeps the
order in which its keys came, and `sorted` is stable.

Left out: `set_count_zone` and `set_entry_line` on a tracker that has been used.
-/

namespace RetailVision.PersonTracker.Py

variable {K : Type} [Field K] [LinearOrder K]

/-! ## `geometry.py` -/

/-- The loop of `point_in_polygon` from a point on, `j` being the one before. -/
def polygonLoop (p : Point K) : Point K → Bool → List (Point K) → Bool
  | _, inside, [] => inside
  | j, inside, i :: rest =>
    let dy := if j.2 - i.2 = 0 then 1e-12 else j.2 - i.2
    if decide (p.2 < i.2) ≠ decide (p.2 < j.2) then
      if p.1 < (j.1 - i.1) * (p.2 - i.2) / dy + i.1 then polygonLoop p i (!inside) rest
      else polygonLoop p i inside rest
    else polygonLoop p i inside rest

def pointInPolygon (p : Point K) (polygon : List (Point K)) : Bool :=
  match polygon.getLast? with
  | none => false
  | some last => polygonLoop p last false polygon

/-- `_cross` -/
def cross (a b p : Point K) : K := (b.1 - a.1) * (p.2 - a.2) - (b.2 - a.2) * (p.1 - a.1)

def segmentCrossing (a b p0 p1 : Point K) : Int :=
  let d0 := cross a b p0
  let d1 := cross a b p1
  if (0 < d0 ↔ 0 < d1) ∨ d0 = 0 ∨ d1 = 0 then 0
  else
    let e0 := cross p0 p1 a
    let e1 := cross p0 p1 b
    if 0 < e0 ↔ 0 < e1 then 0
    else if 0 < d0 then -1 else 1

/-! ## Tracks -/

section

variable (hypot : K → K → K) (cfg : TrackerConfig K)

def footPoint (d : DetectionBox K) : Point K := (d.x, d.y + d.h * 0.5)

def nearEdge (det : DetectionBox K) : Bool :=
  let m := cfg.edgeMargin
  det.x < m ∨ det.x > 1 - m ∨ det.y < m ∨ det.y > 1 - m

def movingTowardEdge (tr : TrackedPerson K) : Bool :=
  let f : K := 0.3
  tr.velocityX < -20 ∧ tr.detection.x < f ∨ tr.velocityX > 20 ∧ tr.detection.x > 1 - f ∨
    tr.velocityY < -40 ∧ tr.detection.y < f ∨ tr.velocityY > 40 ∧ tr.detection.y > 1 - f

def edgeLoss (tr : TrackedPerson K) : Bool := nearEdge cfg tr.detection && movingTowardEdge tr

def iou (a b : DetectionBox K) : K :=
  let iw := max 0 (min (a.x + a.w / 2) (b.x + b.w / 2) - max (a.x - a.w / 2) (b.x - b.w / 2))
  let ih := max 0 (min (a.y + a.h / 2) (b.y + b.h / 2) - max (a.y - a.h / 2) (b.y - b.h / 2))
  let inter := iw * ih
  let union := a.w * a.h + b.w * b.h - inter
  if union > 0 then inter / union else 0

def predict (tr : TrackedPerson K) : DetectionBox K :=
  let pred := tr.detection
  if tr.lostFrames > 0 ∧ tr.speedPxS > 1 then
    let dt := (tr.lostFrames : K) / 15
    { pred with
      x := pred.x + tr.velocityX / cfg.frameWidth * dt
      y := pred.y + tr.velocityY / cfg.frameHeight * dt }
  else pred

/-- The first pass: by overlap with the predicted position. -/
def matchByIou (detections : List (DetectionBox K)) (m : Matching K) (tr : Nat × TrackedPerson K) : Matching K :=
  let pred := predict cfg tr.2
  match scan (· > ·) (iou pred) m.used cfg.iouThreshold none detections.zipIdx with
  | some d => m.pair tr.1 d
  | none => { m with unmatched := m.unmatched ++ [tr] }

/-- The second pass: by the distance of the centres, for a track lost only a
short time. -/
def matchByDistance (detections : List (DetectionBox K)) (m : Matching K) (tr : Nat × TrackedPerson K) : Matching K :=
  if tr.2.lostFrames > 5 then m
  else
    let pred := predict cfg tr.2
    match scan (· < ·) (fun det => hypot (det.x - pred.x) (det.y - pred.y)) m.used cfg.distThreshold none
        detections.zipIdx with
    | some d => m.pair tr.1 d
    | none => m

/-- `_match` -/
def matchDetections (tracks : List (Nat × TrackedPerson K)) (detections : List (DetectionBox K)) : List (Nat × Nat) :=
  if tracks = [] ∨ detections = [] then []
  else
    let trackIds := tracks.insertionSort fun a b => -(a.2.framesTracked : Int) ≤ -(b.2.framesTracked : Int)
    let m : Matching K := { pairs := [], used := List.replicate detections.length false, unmatched := [] }
    let m := trackIds.foldl (matchByIou cfg detections) m
    (m.unmatched.foldl (matchByDistance hypot cfg detections) m).pairs

def updateVelocity (tr : TrackedPerson K) (newDet : DetectionBox K) (dt : K) : TrackedPerson K :=
  if dt ≤ 0.001 then tr
  else
    let ivx := (newDet.x - tr.detection.x) * cfg.frameWidth / dt
    let ivy := (newDet.y - tr.detection.y) * cfg.frameHeight / dt
    let instant := hypot ivx ivy
    let prev := tr.speedPxS
    let suddenStop := prev > 10 ∧ (prev - instant) / prev > 0.5
    let suddenStart := prev < 5 ∧ instant > 50
    let tr :=
      if instant < cfg.velocityZeroThreshold then { tr with velocityX := 0, velocityY := 0, speedPxS := 0 }
      else
        let a := if suddenStop ∨ suddenStart then cfg.velAlphaSudden else cfg.velAlpha
        let vx := (1 - a) * tr.velocityX + a * ivx
        let vy := (1 - a) * tr.velocityY + a * ivy
        { tr with velocityX := vx, velocityY := vy, speedPxS := hypot vx vy }
    let bboxHPx := newDet.h * cfg.frameHeight
    let speedMS := if bboxHPx > 1 then tr.speedPxS / bboxHPx * cfg.avgPersonHeightM else 0
    { tr with speedMS := speedMS, speedSum := tr.speedSum + speedMS, speedSamples := tr.speedSamples + 1 }

/-! ## `dwell.py` -/

def updateStationaryFrames (track : TrackedPerson K) (isStationary : Bool) : TrackedPerson K :=
  if isStationary then { track with stationaryFrames := track.stationaryFrames + 1 }
  else if track.stationaryFrames > cfg.stationaryStableThreshold then
    { track with stationaryFrames := max 0 (track.stationaryFrames - cfg.stationaryDecaySlow) }
  else { track with stationaryFrames := max 0 (track.stationaryFrames - cfg.stationaryDecayFast) }

def updateDwellState (track : TrackedPerson K) (now : K) : TrackedPerson K :=
  let isStationary := decide (track.speedPxS < cfg.dwellSpeedThreshold)
  let track := updateStationaryFrames cfg track isStationary
  if ¬ (isStationary ∧ track.stationaryFrames ≥ cfg.dwellMinFrames) then
    if track.stationaryFrames = 0 then { track with dwellState := .transient, dwellStartTime := 0, dwellDurationSec := 0 }
    -- the decay grace period
    else track
  else
    let track := if track.dwellStartTime ≤ 0 then { track with dwellStartTime := now } else track
    let track := { track with dwellDurationSec := now - track.dwellStartTime }
    let previous := track.dwellState
    let track :=
      if track.dwellDurationSec ≥ cfg.dwellAssistanceThreshold then { track with dwellState := .assistance }
      else if track.dwellDurationSec ≥ cfg.dwellMinDuration then { track with dwellState := .engaged }
      else { track with dwellState := .dwelling }
    if previous.value < DwellState.engaged.value ∧ DwellState.engaged.value ≤ track.dwellState.value then
      { track with engagementStartTime := now }
    else track

/-! ## The tracker -/

/-- The record `_remove` gives to its callback. -/
def trackRecord (tr : TrackedPerson K) (now : K) : TrackRecord K where
  trackId := tr.trackId
  dwellTime := tr.dwellDurationSec
  engagementTime := if tr.engagementStartTime > 0 then now - tr.engagementStartTime else 0
  avgSpeed := if tr.speedSamples ≠ 0 then tr.speedSum / tr.speedSamples else 0
  removalTime := now
  exitedAtEdge := nearEdge cfg tr.detection

/-- `_remove` -/
def remove (now : K) (s : Tracker K) (tid : Nat) : Tracker K :=
  match s.tracks.lookup tid with
  | none => s
  | some tr =>
    let s := { s with tracks := s.tracks.filter (·.1 ≠ tid) }
    let s :=
      if ¬ s.lineEnabled ∧ (tr.framesTracked : Int) ≥ cfg.minFramesForCount then
        if nearEdge cfg tr.detection then { s with exitCount := s.exitCount + 1 } else s
      else s
    { s with removed := s.removed ++ [trackRecord cfg tr now] }

/-- A matched track takes over its detection. -/
def applyMatch (detections : List (DetectionBox K)) (dt now : K) (s : Tracker K) (pair : Nat × Nat) : Tracker K :=
  match s.tracks.lookup pair.1, detections[pair.2]? with
  | some tr, some newDet =>
    let moved := updateVelocity hypot cfg tr newDet dt
    let s :=
      if s.lineEnabled then
        let d := segmentCrossing s.lineA s.lineB (footPoint tr.detection) (footPoint newDet)
        if d ≠ 0 then s.count (decide (d > 0) == s.lineAbIn) else s
      else s
    s.put pair.1 (updateDwellState cfg { moved with
      detection := newDet
      lastSeenTime := now
      framesTracked := tr.framesTracked + 1
      lostFrames := 0
      lastNearEdge := nearEdge cfg newDet } now)
  | _, _ => s

/-- How long a track may be lost. -/
def maxLost (tr : TrackedPerson K) : Int := if edgeLoss cfg tr then cfg.maxLostFramesEdge else cfg.maxLostFramesCenter

/-- A track that has not been matched is lost one frame more. -/
def lose (matchedIds : List Nat) (tr : Nat × TrackedPerson K) : Nat × TrackedPerson K :=
  if tr.1 ∈ matchedIds then tr else (tr.1, { tr.2 with lostFrames := tr.2.lostFrames + 1 })

/-- `TrackedPerson(track_id, detection, now)`, and its `last_near_edge`. -/
def newTrack (trackId : Nat) (det : DetectionBox K) (now : K) : TrackedPerson K where
  trackId := trackId
  detection := det
  velocityX := 0
  velocityY := 0
  speedPxS := 0
  speedMS := 0
  dwellState := .transient
  dwellDurationSec := 0
  firstSeenTime := now
  lastSeenTime := now
  dwellStartTime := 0
  engagementStartTime := 0
  framesTracked := 1
  stationaryFrames := 0
  lostFrames := 0
  speedSum := 0
  speedSamples := 0
  lastNearEdge := nearEdge cfg det

/-- A detection that has not been matched is a new track. -/
def addTrack (now : K) (matched : List Nat) (s : Tracker K) (det : DetectionBox K × Nat) : Tracker K :=
  if det.2 ∈ matched then s
  else
    let tr := newTrack cfg s.nextId det.1 now
    let s := { s with nextId := s.nextId + 1, tracks := s.tracks ++ [(tr.trackId, tr)] }
    if ¬ s.lineEnabled then { s with entryCount := s.entryCount + 1 } else s

def update (s : Tracker K) (detections : List (DetectionBox K)) (now : K) : Tracker K :=
  let dt := if s.lastUpdate > 0 then now - s.lastUpdate else 0
  let s := { s with lastUpdate := now }
  let pairs := matchDetections hypot cfg s.tracks detections
  let matchedIds := pairs.map (·.1)
  let s := pairs.foldl (applyMatch hypot cfg detections dt now) s
  let s := { s with tracks := s.tracks.map (lose matchedIds) }
  let toRemove := s.tracks.filter fun kv => kv.1 ∉ matchedIds ∧ (kv.2.lostFrames : Int) > maxLost cfg kv.2
  let s := (toRemove.map (·.1)).foldl (remove cfg now) s
  detections.zipIdx.foldl (addTrack cfg now (pairs.map (·.2))) s

end

/-- What `update` returns. -/
def visible (s : Tracker K) : List (TrackedPerson K) := (s.tracks.map (·.2)).filter fun tr => tr.lostFrames = 0

def countTrack (s : Tracker K) (counts : StateCount) (tr : Nat × TrackedPerson K) : StateCount :=
  if tr.2.lostFrames > 0 then counts
  else if ¬ s.countZone.isEmpty ∧ ¬ pointInPolygon (footPoint tr.2.detection) s.countZone then counts
  else
    let counts := { counts with total := counts.total + 1 }
    if tr.2.dwellState = .transient ∨ tr.2.dwellState = .dwelling then { counts with browsing := counts.browsing + 1 }
    else if tr.2.dwellState = .engaged then { counts with engaged := counts.engaged + 1 }
    else { counts with assistance := counts.assistance + 1 }

def stateCounts (s : Tracker K) : StateCount := s.tracks.foldl (countTrack s) .zero

def init : Tracker K where
  tracks := []
  nextId := 0
  lastUpdate := 0
  entryCount := 0
  exitCount := 0
  countZone := []
  lineEnabled := false
  lineA := (0, 0)
  lineB := (0, 0)
  lineAbIn := true
  removed := []

def setCountZone (s : Tracker K) (polygon : List (Point K)) : Tracker K :=
  { s with countZone := if !polygon.isEmpty ∧ polygon.length ≥ 3 then polygon else [] }

def setEntryLine (s : Tracker K) (a b : Point K) (abIn : Bool) : Tracker K :=
  { s with lineA := a, lineB := b, lineAbIn := abIn, lineEnabled := true }

end RetailVision.PersonTracker.Py
