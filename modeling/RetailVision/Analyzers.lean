/-
`configure` of the built-in analyzers (`vb/src/analyzers/*.cpp`), as
`ContextPool::apply_pending_controls` runs it: the text is parsed, read into a
new configuration, and the new configuration is put in place of the old one.

A configuration is read by a `Reader`, field by field in the source's order.
Of what an analyzer keeps about tracks only the shape is modelled that
`configure` works on; `T` is what is kept for one object, `L` what line_cross
keeps of a lost track.
-/
import RetailVision.Nlohmann

set_option linter.all false

namespace RetailVision.Analyzers

open Lib

/-- An error, under the analyzer's name. -/
def say (who text : String) : Bytes := utf8 (who ++ ": " ++ text)

variable {F : Type} (ar : Arith F)

/-! ## Shared pieces of a configuration (`motion_util.cpp`) -/

def parseClass (who : String) : Json → Reader Int
  | .int v => .ok (toInt32 v)
  | _ => .refused (say who "classes must be an array of ints")

/-- `parse_classes`; line_cross and zone have the same in place. -/
def parseClasses (who : String) (j : Json) : Reader (List Int) :=
  match j.find "classes" with
  | none | some .null => .ok []
  | some (.arr xs) => Checked.forEach (fun _ cl => parseClass who cl) [] xs
  | some _ => .refused (say who "classes must be an array of ints")

def parseAnchor (who : String) (j : Json) : Reader String :=
  match j.find "anchor" with
  | none | some .null => .ok "bottom_center"
  | some (.str s) =>
    if s = "bottom_center" ∨ s = "center" then .ok s
    else .refused (say who "anchor must be \"bottom_center\" or \"center\"")
  | some _ => .refused (say who "anchor must be a string")

/-- An optional number, null counting as absent: refused where it is none, or
`bad` holds of it. -/
def optNumber (who key must : String) (bad : F64 → Bool) (j : Json) : Reader (Option (F64 × F)) :=
  match j.find key with
  | none | some .null => .ok none
  | some v => match v.number ar with
    | none => .refused (say who must)
    | some n => if bad n.1 then .refused (say who must) else .ok (some n)

def negative (x : F64) : Bool := x.lt (.fin 0)

def notPositive (x : F64) : Bool := x.le (.fin 0)

/-- Outside of `[0, hi]`. -/
def outside (hi : Rat) (x : F64) : Bool := x.lt (.fin 0) || F64.lt (.fin hi) x

structure Zone (F : Type) where
  id : String
  poly : List (F × F)

/-- A vertex, in source-normalized coordinates. -/
def parsePoint (who : String) (p : Json) : Reader (F × F) :=
  let refuse := .refused (say who "polygon coords must be in [0,1] (source-normalized)")
  match p with
  | .arr [x, y] => match x.number ar, y.number ar with
    | some x, some y => if outside 1 x.1 || outside 1 y.1 then refuse else .ok (x.2, y.2)
    | _, _ => refuse
  | _ => refuse

/-- An id of 1..32 bytes. -/
def ValidId (s : String) : Prop := s ≠ "" ∧ s.utf8ByteSize ≤ 32

instance (s : String) : Decidable (ValidId s) := inferInstanceAs (Decidable (_ ∧ _))

def parsePolygon (who : String) (maxVertices : Nat) : Json → Reader (List (F × F))
  | .arr ps => do
    Checked.require (3 ≤ ps.length ∧ ps.length ≤ maxVertices)
      (say who ("polygon must have 3.." ++ toString maxVertices ++ " vertices"))
    Checked.forEach (fun _ p => parsePoint ar who p) [] ps
  | _ => .refused (say who ("polygon must have 3.." ++ toString maxVertices ++ " vertices"))

/-- One zone: its id is read without a look at its type. -/
def parseZone (who : String) (maxVertices : Nat) (zones : List (Zone F)) (zj : Json) : Reader (Zone F) :=
  match zj.find "id", zj.find "polygon" with
  | some id, some poly => do
    let id ← id.getString
    Checked.require (ValidId id) (say who "zone id must be 1..32 chars")
    Checked.require (id ∉ zones.map (·.id)) (say who ("duplicate zone id " ++ id))
    let poly ← parsePolygon ar who maxVertices poly
    .ok ⟨id, poly⟩
  | _, _ => .refused (say who "each zone needs id and polygon")

/-- `parse_zones` -/
def parseZones (who : String) (j : Json) : Reader (List (Zone F)) :=
  match j.find "zones" with
  | none | some .null => .ok []
  | some (.arr zs) => do
    Checked.require (zs.length ≤ 64) (say who "zones must be an array (0..64)")
    Checked.forEach (parseZone ar who 64) [] zs
  | some _ => .refused (say who "zones must be an array (0..64)")

/-! ## line_cross -/

structure Line (F : Type) where
  id : String
  ax : F
  ay : F
  bx : F
  by_ : F

structure LineCrossCfg (F : Type) where
  lines : List (Line F)
  band : F
  segmentMargin : F
  minTravel : F
  rebornWindowS : F
  rebornDist : F
  minTrackFrames : Int
  classes : List Int

/-- `rd`: an end of a line. -/
def rd (v : Json) : Reader (F × F) := do
  let x ← (← v.atIndex 0).getFloat ar
  let y ← (← v.atIndex 1).getFloat ar
  .ok (x, y)

/-- One line: its id and its ends are read without a look at their types. -/
def parseLine (lines : List (Line F)) (lj : Json) : Reader (Line F) :=
  match lj.find "id", lj.find "a", lj.find "b" with
  | some id, some a, some b => do
    let id ← id.getString
    Checked.require (ValidId id) (say "line_cross" "line id must be 1..32 chars")
    Checked.require (id ∉ lines.map (·.id)) (say "line_cross" ("duplicate line id " ++ id))
    let a ← rd ar a
    let b ← rd ar b
    Checked.require (ar.degenerate a.1 a.2 b.1 b.2 = false) (say "line_cross" ("line " ++ id ++ " is degenerate"))
    .ok ⟨id, a.1, a.2, b.1, b.2⟩
  | _, _, _ => .refused (say "line_cross" "each line needs id, a, b")

/-- `getf`: a number in `[0, hi]`; null is none. -/
def getf (key : String) (dflt : F) (hi : Rat) (j : Json) : Reader F :=
  match j.find key with
  | none => .ok dflt
  | some v => match v.number ar with
    | none => .refused (say "line_cross" (key ++ " must be a number"))
    | some n =>
      if outside hi n.1 then .refused (say "line_cross" (key ++ " out of range")) else .ok (ar.toFloat n.1)

def minTrackFrames (j : Json) : Reader Int :=
  match j.find "min_track_frames" with
  | none => .ok 3
  | some (.int v) =>
    if toInt32 v < 1 then .refused (say "line_cross" "min_track_frames must be an int >= 1") else .ok (toInt32 v)
  | some _ => .refused (say "line_cross" "min_track_frames must be an int >= 1")

/-- The elements of a non-empty array of at most 64. -/
def someOf (who key : String) (j : Json) : Reader (List Json) :=
  match j.find key with
  | some (.arr xs) => do
    Checked.require (xs ≠ [] ∧ xs.length ≤ 64) (say who (key ++ " must be a non-empty array (1..64)"))
    .ok xs
  | _ => .refused (say who (key ++ " must be a non-empty array (1..64)"))

def isObject (who : String) (j : Json) : Reader Unit :=
  Checked.require (j.isObject = true) (say who "config must be an object")

def lineCrossCfg (j : Json) : Reader (LineCrossCfg F) := do
  isObject "line_cross" j
  let ljs ← someOf "line_cross" "lines" j
  let lines ← Checked.forEach (parseLine ar) [] ljs
  let band ← getf ar "band" (ar.lit 0) 1 j
  let segmentMargin ← getf ar "segment_margin" (ar.lit (5 / 100)) (1 / 2) j
  let minTravel ← getf ar "min_travel" (ar.lit (2 / 100)) 1 j
  let rebornWindowS ← getf ar "reborn_window_s" (ar.lit (15 / 10)) 3600 j
  let rebornDist ← getf ar "reborn_dist" (ar.lit (5 / 100)) 1 j
  let minTrackFrames ← minTrackFrames j
  let classes ← parseClasses "line_cross" j
  .ok { lines, band, segmentMargin, minTravel, rebornWindowS, rebornDist, minTrackFrames, classes }

/-! ## zone -/

structure ZoneCfg (F : Type) where
  zones : List (Zone F)
  minDwellS : F64
  classes : List Int

/-- `min_dwell_s`; null is no number here. -/
def zoneMinDwell (j : Json) : Reader F64 :=
  match j.find "min_dwell_s" with
  | none => .ok (.fin 0)
  | some v => match v.number ar with
    | none => .refused (say "zone" "min_dwell_s must be >= 0")
    | some n => if negative n.1 then .refused (say "zone" "min_dwell_s must be >= 0") else .ok n.1

def zoneCfg (j : Json) : Reader (ZoneCfg F) := do
  isObject "zone" j
  let zjs ← someOf "zone" "zones" j
  let zones ← Checked.forEach (parseZone ar "zone" 16) [] zjs
  let minDwellS ← zoneMinDwell ar j
  let classes ← parseClasses "zone" j
  .ok { zones, minDwellS, classes }

/-! ## dwell -/

structure DwellCfg (F : Type) where
  radius : F
  minDwellS : F64
  repeatS : F64
  zones : List (Zone F)
  anchor : String
  classes : List Int

/-- The double of an optional number, or a default. -/
def doubleOr (dflt : Rat) (n : Option (F64 × F)) : F64 := (n.map (·.1)).getD (.fin dflt)

/-- The float of an optional number, or a default. -/
def floatOr (dflt : Rat) (n : Option (F64 × F)) : F := (n.map (·.2)).getD (ar.lit dflt)

def dwellCfg (j : Json) : Reader (DwellCfg F) := do
  isObject "dwell" j
  let zones ← parseZones ar "dwell" j
  let classes ← parseClasses "dwell" j
  let anchor ← parseAnchor "dwell" j
  let radius ← optNumber ar "dwell" "radius" "radius must be > 0" notPositive j
  let minDwellS ← optNumber ar "dwell" "min_dwell_s" "min_dwell_s must be >= 0" negative j
  let repeatS ← optNumber ar "dwell" "repeat_s" "repeat_s must be >= 0" negative j
  .ok {
    radius := floatOr ar (3 / 100) radius
    minDwellS := doubleOr 10 minDwellS
    repeatS := doubleOr 0 repeatS
    zones, anchor, classes }

/-! ## speed -/

structure SpeedCfg where
  windowS : F64
  maxSpeed : Option F64
  minSpeed : Option F64
  holdS : F64
  anchor : String
  homography : Option (List F64)
  classes : List Int

def parseHomography (j : Json) : Reader (Option (List F64)) :=
  match j.find "homography" with
  | none | some .null => .ok none
  | some (.arr xs) => do
    Checked.require (xs.length = 9) (say "speed" "homography must be null or 9 numbers (row-major)")
    let h ← Checked.forEach (fun _ x => match x.number ar with
      | some n => .ok n.1
      | none => .refused (say "speed" "homography must be null or 9 numbers (row-major)")) [] xs
    .ok (some h)
  | some _ => .refused (say "speed" "homography must be null or 9 numbers (row-major)")

def speedCfg (j : Json) : Reader SpeedCfg := do
  isObject "speed" j
  let classes ← parseClasses "speed" j
  let anchor ← parseAnchor "speed" j
  let windowS ← optNumber ar "speed" "window_s" "window_s must be > 0" notPositive j
  let maxSpeed ← optNumber ar "speed" "max_speed" "max_speed must be a number >= 0" negative j
  let minSpeed ← optNumber ar "speed" "min_speed" "min_speed must be a number >= 0" negative j
  Checked.require (maxSpeed.isSome = true ∨ minSpeed.isSome = true)
    (say "speed" "at least one of max_speed / min_speed must be set")
  let holdS ← optNumber ar "speed" "hold_s" "hold_s must be >= 0" negative j
  let homography ← parseHomography ar j
  .ok {
    windowS := doubleOr 1 windowS
    maxSpeed := maxSpeed.map (·.1)
    minSpeed := minSpeed.map (·.1)
    holdS := doubleOr (1 / 2) holdS
    anchor, homography, classes }

/-! ## direction -/

structure DirectionCfg (F : Type) where
  expectedDeg : F
  toleranceDeg : F
  minTravel : F
  windowS : F64
  holdS : F64
  zones : List (Zone F)
  anchor : String
  classes : List Int

def directionCfg (j : Json) : Reader (DirectionCfg F) := do
  isObject "direction" j
  let zones ← parseZones ar "direction" j
  let classes ← parseClasses "direction" j
  let anchor ← parseAnchor "direction" j
  let expectedDeg ← optNumber ar "direction" "expected_deg" "expected_deg must be a number" (fun _ => false) j
  let toleranceDeg ← optNumber ar "direction" "tolerance_deg" "tolerance_deg must be in [0,180]" (outside 180) j
  let minTravel ← optNumber ar "direction" "min_travel" "min_travel must be >= 0" negative j
  let windowS ← optNumber ar "direction" "window_s" "window_s must be > 0" notPositive j
  let holdS ← optNumber ar "direction" "hold_s" "hold_s must be >= 0" negative j
  .ok {
    expectedDeg := floatOr ar 90 expectedDeg
    toleranceDeg := floatOr ar 60 toleranceDeg
    minTravel := floatOr ar (5 / 100) minTravel
    windowS := doubleOr (3 / 2) windowS
    holdS := doubleOr (1 / 2) holdS
    zones, anchor, classes }

/-! ## count_threshold -/

structure CountThresholdCfg (F : Type) where
  zones : List (Zone F)
  maxCount : Option F64
  minCount : Option F64
  holdS : F64
  anchor : String
  classes : List Int

/-- A count limit: an integer not negative as a `long long`. -/
def optCount (key : String) (j : Json) : Reader (Option F64) :=
  match j.find key with
  | none | some .null => .ok none
  | some (.int v) =>
    if toInt64 v < 0 then .refused (say "count_threshold" (key ++ " must be a non-negative integer"))
    else .ok (some (ar.toDouble v))
  | some _ => .refused (say "count_threshold" (key ++ " must be a non-negative integer"))

def countThresholdCfg (j : Json) : Reader (CountThresholdCfg F) := do
  isObject "count_threshold" j
  let zones ← parseZones ar "count_threshold" j
  let classes ← parseClasses "count_threshold" j
  let anchor ← parseAnchor "count_threshold" j
  let maxCount ← optCount ar "max_count" j
  let minCount ← optCount ar "min_count" j
  Checked.require (maxCount.isSome = true ∨ minCount.isSome = true)
    (say "count_threshold" "at least one of max_count / min_count must be set")
  let holdS ← optNumber ar "count_threshold" "hold_s" "hold_s must be >= 0" negative j
  .ok { zones, maxCount, minCount, holdS := doubleOr 2 holdS, anchor, classes }

/-! ## pose_angle -/

structure Joint where
  id : String
  a : Int
  b : Int
  c : Int
  minDeg : Option F64
  maxDeg : Option F64

structure PoseAngleCfg where
  joints : List Joint
  minConf : F64
  holdS : F64
  classes : List Int
  maxIdx : Int

/-- The keypoint index of a joint. -/
def jointIndex (id key : String) (jj : Json) : Reader Int :=
  match jj.find key with
  | some (.int v) =>
    if toInt32 v < 0 then .refused (say "pose_angle" ("joint " ++ id ++ ": " ++ key ++ " must be a non-negative int"))
    else .ok (toInt32 v)
  | _ => .refused (say "pose_angle" ("joint " ++ id ++ ": " ++ key ++ " must be a non-negative int"))

/-- One joint: its id is read without a look at its type. -/
def parseJoint (jj : Json) : Reader Joint :=
  match jj.find "id", jj.find "a", jj.find "b", jj.find "c" with
  | some id, some _, some _, some _ => do
    let id ← id.getString
    Checked.require (ValidId id) (say "pose_angle" "joint id must be 1..32 chars")
    let a ← jointIndex id "a" jj
    let b ← jointIndex id "b" jj
    let c ← jointIndex id "c" jj
    let minDeg ← optNumber ar "pose_angle" "min_deg" ("joint " ++ id ++ ": min_deg must be in [0,180]") (outside 180) jj
    let maxDeg ← optNumber ar "pose_angle" "max_deg" ("joint " ++ id ++ ": max_deg must be in [0,180]") (outside 180) jj
    Checked.require (minDeg.isSome = true ∨ maxDeg.isSome = true)
      (say "pose_angle" ("joint " ++ id ++ " needs at least one of min_deg / max_deg"))
    .ok { id, a, b, c, minDeg := minDeg.map (·.1), maxDeg := maxDeg.map (·.1) }
  | _, _, _, _ => .refused (say "pose_angle" "each joint needs id, a, b, c")

def parseJoints (j : Json) : Reader (List Joint) :=
  match j.find "joints" with
  | none | some .null => .ok []
  | some (.arr xs) => Checked.forEach (fun _ jj => parseJoint ar jj) [] xs
  | some _ => .refused (say "pose_angle" "joints must be an array")

def poseAngleCfg (j : Json) : Reader PoseAngleCfg := do
  isObject "pose_angle" j
  let classes ← parseClasses "pose_angle" j
  let joints ← parseJoints ar j
  let minConf ← optNumber ar "pose_angle" "min_conf" "min_conf must be in [0,1]" (outside 1) j
  let holdS ← optNumber ar "pose_angle" "hold_s" "hold_s must be >= 0" negative j
  .ok {
    joints
    minConf := doubleOr (3 / 10) minConf
    holdS := doubleOr (1 / 2) holdS
    classes
    maxIdx := joints.foldl (fun m jt => max (max m jt.a) (max jt.b jt.c)) (-1) }

/-! ## `configure` -/

inductive Analyzer
  | lineCross
  | zone
  | dwell
  | speed
  | direction
  | countThreshold
  | poseAngle
  deriving DecidableEq

structure LineState (T L : Type) where
  st : List (Nat × T)
  lost : List L

namespace Analyzer

def name : Analyzer → String
  | lineCross => "line_cross"
  | zone => "zone"
  | dwell => "dwell"
  | speed => "speed"
  | direction => "direction"
  | countThreshold => "count_threshold"
  | poseAngle => "pose_angle"

/-- `Cfg` -/
def Cfg (F : Type) : Analyzer → Type
  | lineCross => LineCrossCfg F
  | zone => ZoneCfg F
  | dwell => DwellCfg F
  | speed => SpeedCfg
  | direction => DirectionCfg F
  | countThreshold => CountThresholdCfg F
  | poseAngle => PoseAngleCfg

/-- What is kept about tracks: by line, by zone, by track, by zone id, by
track and joint. -/
def Kept (T L : Type) : Analyzer → Type
  | lineCross => List (LineState T L)
  | zone => List (List (Nat × T))
  | dwell | speed | direction => List (Nat × T)
  | countThreshold => List (String × T)
  | poseAngle => List ((Nat × String) × T)

/-- `parse_cfg` -/
def parseCfg : (a : Analyzer) → Json → Reader (a.Cfg F)
  | lineCross => lineCrossCfg ar
  | zone => zoneCfg ar
  | dwell => dwellCfg ar
  | speed => speedCfg ar
  | direction => directionCfg ar
  | countThreshold => countThresholdCfg ar
  | poseAngle => poseAngleCfg ar

end Analyzer

structure State (F T L : Type) (a : Analyzer) where
  cfg : a.Cfg F
  kept : a.Kept T L

variable {T L : Type}

/-- The polygons are the same, number by number. -/
def samePoly (p q : List (F × F)) : Bool :=
  p.length == q.length && (p.zip q).all fun (a, b) => ar.eq a.1 b.1 && ar.eq a.2 b.2

/-- What count_threshold keeps of a zone: its state, where its id and polygon
are as before. -/
def keepZone (old : List (Zone F)) (zst : List (String × T)) (z : Zone F) : Option (String × T) :=
  (zst.find? (·.1 = z.id)).bind fun st =>
    if old.any (fun oz => oz.id = z.id && samePoly ar oz.poly z.poly) then some st else none

/-- The new configuration in place. -/
def install : (a : Analyzer) → State F T L a → a.Cfg F → State F T L a
  | .lineCross, _, (c : LineCrossCfg F) => ⟨c, List.replicate c.lines.length ⟨[], []⟩⟩
  | .zone, _, (c : ZoneCfg F) => ⟨c, List.replicate c.zones.length []⟩
  | .dwell, _, c | .speed, _, c | .direction, _, c => ⟨c, ([] : List (Nat × T))⟩
  | .countThreshold, s, (c : CountThresholdCfg F) =>
    ⟨c, c.zones.filterMap (keepZone ar (CountThresholdCfg.zones s.cfg) s.kept)⟩
  | .poseAngle, _, c => ⟨c, ([] : List ((Nat × String) × T))⟩

/-- What a call of `configure` comes to. -/
inductive Configured (S : Type)
  | returned (ok : Bool) (err : Bytes) (s : S)
  | threw (what : String)

/-- **`configure`** of an analyzer; `err` is empty when it is called. -/
def configure (lib : Nlohmann) (a : Analyzer) (s : State F T L a) (text : Bytes) : Configured (State F T L a) :=
  match lib.parse text with
  | .error what => .returned false (utf8 (a.name ++ ": invalid json: ") ++ what) s
  | .ok j => match a.parseCfg ar j with
    | .ok c => .returned true [] (install ar a s c)
    | .refused err => .returned false err s
    | .threw what => .threw what

end RetailVision.Analyzers
