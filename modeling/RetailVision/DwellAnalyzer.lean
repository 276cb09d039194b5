/-
The dwell analyzer (`core-cpp/vb/src/analyzers/dwell.cpp`) between two
configurations: `on_frame` and `on_track_removed`. It keeps the place that a
track has entered, and goes on from the entry to the next place where the track
moves away or leaves the zone.

An event is given with the id of its track and the time of the call, which are
not in it.
-/
import RetailVision.MotionUtil

set_option linter.all false

namespace RetailVision.Vb.DwellAnalyzer

open Lib (toldOf)
open RetailVision.Analyzers (Zone)
open Motion (Root anchorPoint toH zoneOf)

/-- `Cfg` -/
structure Cfg (F D : Type) where
  radius : F
  minDwellS : D
  repeatS : D
  zones : List (Zone F)
  anchor : String
  classes : List Int

/-- Where a track is in a frame. -/
structure Place (F : Type) where
  /-- `hx`, `hy`: height-normalized -/
  h : F × F
  /-- `sx`, `sy`: source-normalized -/
  s : F × F
  zone : String

structure St (F D : Type) where
  entry : Place F
  t0 : D
  active : Bool
  last : D

inductive Reason
  | moved
  | leftZone
  | lost
  deriving DecidableEq

inductive Event (F D : Type)
  | dwellStart (dwellS : D) (anchor : F × F) (zoneId : String) (classId : Int32) (score : F)
  | dwellUpdate (dwellS : D) (anchor : F × F) (zoneId : String) (classId : Int32) (score : F)
  | dwellEnd (dwellS : D) (reason : Reason)

inductive EventType
  | dwellStart
  | dwellUpdate
  | dwellEnd
  deriving DecidableEq

variable {F D : Type}

def Event.type : Event F D → EventType
  | dwellStart .. => .dwellStart
  | dwellUpdate .. => .dwellUpdate
  | dwellEnd .. => .dwellEnd

def Event.dwellS : Event F D → D
  | dwellStart d .. => d
  | dwellUpdate d .. => d
  | dwellEnd d _ => d

section

variable [Num F] [Root F] [Num D] (cfg : Cfg F D)

def placeOf (m : FrameMeta F D) (tr : Track F D) : Place F :=
  let p := anchorPoint tr m.geom cfg.anchor
  { h := toH m.geom p, s := p, zone := zoneOf cfg.zones p }

/-- `left` -/
def Left (entry p : Place F) : Prop := (cfg.zones ≠ [] ∧ p.zone = "") ∨ p.zone ≠ entry.zone

/-- The distance to the entry, in units of the frame's height. -/
def distance (entry p : Place F) : F :=
  let dx := p.h.1 - entry.h.1
  let dy := p.h.2 - entry.h.2
  Root.sqrt (dx * dx + dy * dy)

def Moved (entry p : Place F) : Prop := distance entry p > cfg.radius

instance (entry p : Place F) : Decidable (Left cfg entry p) :=
  decidable_of_iff ((cfg.zones.isEmpty = false ∧ p.zone = "") ∨ p.zone ≠ entry.zone) (by simp [Left])

instance (entry p : Place F) : Decidable (Moved cfg entry p) := inferInstanceAs (Decidable (_ > _))

/-- An entry that is new. -/
def St.enter (p : Place F) (now : D) : St F D where
  entry := p
  t0 := now
  active := false
  last := 0.0

/-- The track is where it was, with respect to its entry. -/
def St.stay (s : St F D) (p : Place F) (tr : Track F D) (now : D) : St F D × List (Event F D) :=
  let d := now - s.t0
  if s.active = false ∧ d ≥ cfg.minDwellS then
    ({ s with active := true, last := now }, [.dwellStart d s.entry.s p.zone tr.det.classId tr.det.score])
  else if s.active = true ∧ cfg.repeatS > 0.0 ∧ now - s.last ≥ cfg.repeatS then
    ({ s with last := now }, [.dwellUpdate d s.entry.s p.zone tr.det.classId tr.det.score])
  else (s, [])

/-- A dwell that has been told of ends. -/
def St.ends (s : St F D) (now : D) (reason : Reason) : List (Event F D) :=
  if s.active then [.dwellEnd (now - s.t0) reason] else []

/-- The body of the loop of `on_frame`, for a track that is processed. -/
def observe (o : Option (St F D)) (m : FrameMeta F D) (tr : Track F D) : Option (St F D) × List (Event F D) :=
  let p := placeOf cfg m tr
  match o with
  | none => (some (.enter p m.tMonoS), [])
  | some s =>
    if Left cfg s.entry p then (some (.enter p m.tMonoS), s.ends m.tMonoS .leftZone)
    else if Moved cfg s.entry p then (some (.enter p m.tMonoS), s.ends m.tMonoS .moved)
    else
      let (s, evs) := s.stay cfg p tr m.tMonoS
      (some s, evs)

/-- `on_track_removed` -/
def remove (o : Option (St F D)) (t : D) : Option (St F D) × List (Event F D) :=
  match o with
  | none => (none, [])
  | some s => (none, s.ends t .lost)

/-- One track. -/
def visit (o : Option (St F D)) : Act F D → Option (St F D) × List (Event F D)
  | .observe m tr => observe cfg o m tr
  | .remove _ t => remove o t

/-- The calls in order, from what `configure` leaves. -/
def run (calls : List (AnalyzerCall F D)) : Motion.Kept (St F D) D (Event F D) :=
  Motion.run cfg.classes (visit cfg) (Motion.start _ _ _) calls

/-- What has been told of a track, with the times. -/
def logOf (tid : UInt32) (calls : List (AnalyzerCall F D)) : List (D × Event F D) := toldOf tid (run cfg calls).2

end

end RetailVision.Vb.DwellAnalyzer
