/-
`vb::Tracker` (`core-cpp/vb/src/tracker.cpp`), the tracker of a stream that the
analyzers key their state on. An index of a vector is a `Nat`, also where the
source has it in an `int`.

`alive_` is what `update` returns; it is not kept from one call to the next.
-/
import RetailVision.VbTypes
import Mathlib.Data.List.Sort

set_option linter.all false

namespace RetailVision.Vb

inductive Anchor
  | center
  | bottomCenter
  deriving DecidableEq

structure TrackerConfig (F : Type) where
  iouThreshold : F
  distThreshold : F
  maxMisses : Int32
  maxLostS : F
  minHits : Int32
  classAware : Bool
  anchor : Anchor

/-- The defaults. -/
def TrackerConfig.default (F : Type) [Num F] : TrackerConfig F where
  iouThreshold := 0.2
  distThreshold := 0.15
  maxMisses := 15
  maxLostS := 0.0
  minHits := 1
  classAware := true
  anchor := .center

structure Track (F D : Type) where
  trackId : UInt32
  /-- the last detection that was associated, stale while the track coasts -/
  det : Detection F
  kpts : List (Keypoint F)
  vx : F
  vy : F
  hits : UInt32
  misses : UInt32
  firstSeenS : D
  lastSeenS : D

structure Tracker (F D : Type) where
  cfg : TrackerConfig F
  tracks : List (Track F D)
  nextId : UInt32
  lastT : D
  hasT : Bool

variable {F D : Type}

def Tracker.init [Num D] (cfg : TrackerConfig F) : Tracker F D where
  cfg := cfg
  tracks := []
  nextId := 1
  lastT := 0.0
  hasT := false

section

variable [Num F]

def kVelZero : F := 3.0 / 640.0
def kVelDwellSpeed : F := 10.0 / 640.0
def kVelSuddenStartPrev : F := 5.0 / 640.0
def kVelSuddenStartInst : F := 50.0 / 640.0
def kVelAlpha : F := 0.08
def kVelAlphaSudden : F := 0.6
def kPredictMinSpeed : F := 1.0 / 640.0
def kFallbackMaxMisses : Int32 := 5

/-- `std::max`: the first one, unless it is the smaller. -/
def stdMax (a b : F) : F := if a < b then b else a

/-- `std::min`: the first one, unless it is the greater. -/
def stdMin (a b : F) : F := if b < a then b else a

def iou (a b : Detection F) : F :=
  let ax1 := a.cx - a.w / 2.0
  let ay1 := a.cy - a.h / 2.0
  let ax2 := a.cx + a.w / 2.0
  let ay2 := a.cy + a.h / 2.0
  let bx1 := b.cx - b.w / 2.0
  let by1 := b.cy - b.h / 2.0
  let bx2 := b.cx + b.w / 2.0
  let by2 := b.cy + b.h / 2.0
  let ix1 := stdMax ax1 bx1
  let iy1 := stdMax ay1 by1
  let ix2 := stdMin ax2 bx2
  let iy2 := stdMin ay2 by2
  let iw := stdMax 0.0 (ix2 - ix1)
  let ih := stdMax 0.0 (iy2 - iy1)
  let inter := iw * ih
  let uni := a.w * a.h + b.w * b.h - inter
  if uni > 0.0 then inter / uni else 0.0

end

/-! ## Matching -/

/-- `det_used`, `track_match` and `unmatched`. -/
structure Matching (F D : Type) where
  detUsed : List Bool
  trackMatch : List (Option Nat)
  unmatched : List (Track F D × Nat)

namespace Matching

/-- `det_used[best] = 1; track_match[oi] = best;` -/
def pair (m : Matching F D) (oi best : Nat) : Matching F D :=
  { m with detUsed := m.detUsed.set best true, trackMatch := m.trackMatch.set oi (some best) }

end Matching

/-- The loop over the detections: the index of the one that is better than the
bound, than each before it, and neither used nor ruled out. -/
def scan (better : F → F → Bool) (value : Detection F → F) (ok : Detection F → Bool) (used : List Bool) :
    F → Option Nat → List (Detection F × Nat) → Option Nat
  | _, best, [] => best
  | bound, best, (det, d) :: rest =>
    if used.getD d false then scan better value ok used bound best rest
    else if !ok det then scan better value ok used bound best rest
    else if better (value det) bound then scan better value ok used (value det) (some d) rest
    else scan better value ok used bound best rest

def classOk (cfg : TrackerConfig F) (a b : Detection F) : Bool := !cfg.classAware || a.classId == b.classId

/-- The indices of the tracks with the tracks, those with more hits first. -/
def matchOrder (tracks : List (Track F D)) : List (Track F D × Nat) :=
  tracks.zipIdx.insertionSort fun a b => b.1.hits ≤ a.1.hits

/-- The slice of the keypoints that a detection names, if it is in the vector.
The sum is that of two `uint32_t`. -/
def keypointsOf (kpts : List (Keypoint F)) (det : Detection F) : List (Keypoint F) :=
  if det.kptCount > 0 ∧ (det.kptOffset + det.kptCount).toNat ≤ kpts.length then
    (kpts.drop det.kptOffset.toNat).take det.kptCount.toNat
  else []

section

variable [Num F] [Num D] [Casts F D] (cfg : TrackerConfig F) (tMonoS : D)

/-- The detection of a track, moved on by its velocity while it coasts. -/
def predicted (tr : Track F D) : Detection F :=
  if tr.misses > 0 ∧ Num.hypot tr.vx tr.vy > kPredictMinSpeed then
    let dts : F := Casts.toFloat (tMonoS - tr.lastSeenS)
    { tr.det with cx := tr.det.cx + tr.vx * dts, cy := tr.det.cy + tr.vy * dts }
  else tr.det

def anchorXy (d : Detection F) : F × F :=
  (d.cx, if cfg.anchor = .bottomCenter then d.cy + d.h / 2.0 else d.cy)

/-- The first pass: overlap with the predicted box. -/
def matchByIou (dets : List (Detection F)) (m : Matching F D) (tr : Track F D × Nat) : Matching F D :=
  let pred := predicted tMonoS tr.1
  match scan (· > ·) (iou pred) (classOk cfg tr.1.det) m.detUsed cfg.iouThreshold none dets.zipIdx with
  | some best => m.pair tr.2 best
  | none => { m with unmatched := m.unmatched ++ [tr] }

/-- The second pass: the distance of the anchors, for a track lost only a short
time. -/
def matchByDistance (dets : List (Detection F)) (m : Matching F D) (tr : Track F D × Nat) : Matching F D :=
  if tr.1.misses.toInt32 > kFallbackMaxMisses then m
  else
    let (pax, pay) := anchorXy cfg (predicted tMonoS tr.1)
    let dist := fun det => Num.hypot ((anchorXy cfg det).1 - pax) ((anchorXy cfg det).2 - pay)
    match scan (· < ·) dist (classOk cfg tr.1.det) m.detUsed cfg.distThreshold none dets.zipIdx with
    | some best => m.pair tr.2 best
    | none => m

def matchTracks (tracks : List (Track F D)) (dets : List (Detection F)) : Matching F D :=
  let m : Matching F D :=
    { detUsed := dets.map fun _ => false, trackMatch := tracks.map fun _ => none, unmatched := [] }
  let m := (matchOrder tracks).foldl (matchByIou cfg tMonoS dets) m
  m.unmatched.foldl (matchByDistance cfg tMonoS dets) m

/-! ## The update -/

def updateVelocity (tr : Track F D) (ncx ncy : F) (dt : D) : Track F D :=
  if dt ≤ 0.001 then tr
  else
    let dx := ncx - tr.det.cx
    let dy := ncy - tr.det.cy
    let ivx : F := Casts.toFloat (Casts.toDouble dx / dt)
    let ivy : F := Casts.toFloat (Casts.toDouble dy / dt)
    let inst := Num.hypot ivx ivy
    let prev := Num.hypot tr.vx tr.vy
    if inst < kVelZero then { tr with vx := 0.0, vy := 0.0 }
    else
      let suddenStop := decide (prev > kVelDwellSpeed) && decide ((prev - inst) / prev > 0.5)
      let suddenStart := decide (prev < kVelSuddenStartPrev) && decide (inst > kVelSuddenStartInst)
      let alpha := if suddenStop || suddenStart then kVelAlphaSudden else kVelAlpha
      { tr with vx := (1.0 - alpha) * tr.vx + alpha * ivx, vy := (1.0 - alpha) * tr.vy + alpha * ivy }

/-- A matched track takes over its detection. -/
def associate (kpts : List (Keypoint F)) (dt : D) (tr : Track F D) (nd : Detection F) : Track F D :=
  { updateVelocity tr nd.cx nd.cy dt with
    det := nd
    kpts := keypointsOf kpts nd
    hits := tr.hits + 1
    misses := 0
    lastSeenS := tMonoS }

/-- The loop over the matched tracks; it writes the ids into the detections. -/
def updateMatched (kpts : List (Keypoint F)) (dt : D) :
    List (Track F D) → List (Option Nat) → List (Detection F) → List (Track F D) × List (Detection F)
  | tr :: tracks, some d :: trackMatch, dets =>
    match dets[d]? with
    | some nd =>
      let rest := updateMatched kpts dt tracks trackMatch (dets.set d { nd with trackId := tr.trackId })
      (associate tMonoS kpts dt tr nd :: rest.1, rest.2)
    | none => (tr :: tracks, dets)
  | tr :: tracks, none :: trackMatch, dets =>
    let rest := updateMatched kpts dt tracks trackMatch dets
    (tr :: rest.1, rest.2)
  | tracks, _, dets => (tracks, dets)

/-- A track that was missed once more is given up. -/
def timedOut (tr : Track F D) : Bool :=
  let byMisses := tr.misses.toInt32 > cfg.maxMisses
  let byTime := cfg.maxLostS > 0.0 ∧ tMonoS - tr.lastSeenS > Casts.toDouble cfg.maxLostS
  byMisses ∨ byTime

/-- The loop that ages the unmatched tracks, at index `i`. What it gives up it
erases from both vectors, and the index stays. It has as many passes as there
were tracks. -/
def ageUnmatched : Nat → Nat → List (Track F D) → List (Option Nat) → List UInt32 → List (Track F D) × List UInt32
  | 0, _, tracks, _, removed => (tracks, removed)
  | passes + 1, i, tracks, trackMatch, removed =>
    match tracks[i]? with
    | none => (tracks, removed)
    | some tr =>
      if (trackMatch.getD i none).isSome then ageUnmatched passes (i + 1) tracks trackMatch removed
      else
        let tr := { tr with misses := tr.misses + 1 }
        if timedOut cfg tMonoS tr then
          ageUnmatched passes i (tracks.eraseIdx i) (trackMatch.eraseIdx i) (removed ++ [tr.trackId])
        else ageUnmatched passes (i + 1) (tracks.set i tr) trackMatch removed

def newTrack (kpts : List (Keypoint F)) (trackId : UInt32) (det : Detection F) : Track F D where
  trackId := trackId
  det := det
  kpts := keypointsOf kpts det
  vx := 0.0
  vy := 0.0
  hits := 1
  misses := 0
  firstSeenS := tMonoS
  lastSeenS := tMonoS

/-- The loop over the detections that are not used: each is a new track, under
the next id. It gives the new tracks, the detections and the next id. -/
def createTracks (kpts : List (Keypoint F)) :
    UInt32 → List (Detection F) → List Bool → List (Track F D) × List (Detection F) × UInt32
  | nextId, det :: dets, used :: detUsed =>
    if used then
      let rest := createTracks kpts nextId dets detUsed
      (rest.1, det :: rest.2.1, rest.2.2)
    else
      let rest := createTracks kpts (nextId + 1) dets detUsed
      (newTrack tMonoS kpts nextId det :: rest.1, { det with trackId := nextId } :: rest.2.1, rest.2.2)
  | nextId, dets, _ => ([], dets, nextId)

end

/-- The arguments of a call of `update`. -/
structure Call (F D : Type) where
  dets : List (Detection F)
  kpts : List (Keypoint F)
  tMonoS : D

/-- What a call of `update` leaves to its caller: the detections with their ids,
the tracks it returns, and the ids it removed. -/
structure Updated (F D : Type) where
  dets : List (Detection F)
  alive : List (Track F D)
  removed : List UInt32

namespace Tracker

variable [Num F] [Num D] [Casts F D]

def update (s : Tracker F D) (c : Call F D) : Tracker F D × Updated F D :=
  let dt := if s.hasT then c.tMonoS - s.lastT else 0.0
  let m := matchTracks s.cfg c.tMonoS s.tracks c.dets
  let (tracks, dets) := updateMatched c.tMonoS c.kpts dt s.tracks m.trackMatch c.dets
  let (tracks, removed) := ageUnmatched s.cfg c.tMonoS tracks.length 0 tracks m.trackMatch []
  let (created, dets, nextId) := createTracks c.tMonoS c.kpts s.nextId dets m.detUsed
  let tracks := tracks ++ created
  ({ s with tracks := tracks, nextId := nextId, lastT := c.tMonoS, hasT := true },
    { dets := dets, alive := tracks.filter fun tr => tr.hits.toInt32 ≥ s.cfg.minHits, removed := removed })

/-- The calls in order: after each one, the tracker and what it left. -/
def calls (s : Tracker F D) : List (Call F D) → List (Tracker F D × Updated F D)
  | [] => []
  | c :: cs => s.update c :: calls (s.update c).1 cs

/-- How many tracks a call creates: one for each detection that is not used. -/
def creates (s : Tracker F D) (c : Call F D) : Nat :=
  (matchTracks s.cfg c.tMonoS s.tracks c.dets).detUsed.count false

/-- How many tracks the calls create. -/
def created (s : Tracker F D) : List (Call F D) → Nat
  | [] => 0
  | c :: cs => s.creates c + created (s.update c).1 cs

end Tracker

end RetailVision.Vb
