/-
The zone analyzer (`core-cpp/vb/src/analyzers/zone.cpp`) between two
configurations. A zone and a track are a machine of their own (`run_visits`):
what the zone has kept of the track, and told of it, come of the frames in
which the track was processed and of its removals.

An event is given with the number of its zone, the id of its track and the time
of the call, which is not in it.
-/
import RetailVision.Analyzers
import RetailVision.VbAnalyzer
import Mathlib.Data.List.DropRight

set_option linter.all false

namespace RetailVision.Vb.ZoneAnalyzer

open Lib (after keyed toldBy toldOf after_keyed after_snoc)
open RetailVision.Analyzers (Zone)
open Loops (acts)

/-- `Cfg` -/
structure Cfg (F D : Type) where
  zones : List (Zone F)
  minDwellS : D
  classes : List Int

structure ZState (F D : Type) where
  inside : Bool
  enteredAt : D
  dwellFired : Bool
  classId : Int32
  score : F

inductive EventType
  | zoneEnter
  | zoneExit
  | zoneDwell
  deriving DecidableEq

structure Event (F D : Type) where
  type : EventType
  zoneId : String
  /-- left out where it is negative -/
  dwellS : Option D
  classId : Int32
  score : F

variable {F D : Type}

section

variable [Num F] [Num D] (cfg : Cfg F D) (z : Zone F)

def ZState.new (F D : Type) [Num F] [Num D] : ZState F D := ⟨false, 0.0, false, 0, 0.0⟩

/-- `point_in_poly`: each vertex with the one before it, the first with the last. -/
def pointInPoly (p : F × F) (poly : List (F × F)) : Bool :=
  match poly.getLast? with
  | none => false
  | some last => ((last :: poly).zip poly).foldl (fun inside (pj, pi) =>
      if (decide (pi.2 > p.2) ≠ decide (pj.2 > p.2)) ∧ p.1 < (pj.1 - pi.1) * (p.2 - pi.2) / (pj.2 - pi.2) + pi.1 then !inside
      else inside) false

def anchorOf (m : FrameMeta F D) (tr : Track F D) : F × F := m.geom.toSourceNorm tr.det.cx (tr.det.cy + tr.det.h * 0.5)

def emit (tr : Track F D) (type : EventType) (dwell : D) : Event F D where
  type := type
  zoneId := z.id
  dwellS := if dwell ≥ 0.0 then some dwell else none
  classId := tr.det.classId
  score := tr.det.score

/-- The track comes in, goes out, or neither. -/
def crosses (s : ZState F D) (tr : Track F D) (inside : Bool) (now : D) : ZState F D × List (Event F D) :=
  if inside = true ∧ s.inside = false then
    ({ s with inside := true, enteredAt := now, dwellFired := false }, [emit z tr .zoneEnter (-1.0)])
  else if s.inside = true ∧ inside = false then ({ s with inside := false }, [emit z tr .zoneExit (now - s.enteredAt)])
  else (s, [])

/-- A track that is inside has been there for long enough. -/
def dwells (s : ZState F D) (tr : Track F D) (now : D) : ZState F D × List (Event F D) :=
  let dwell := now - s.enteredAt
  if s.inside = true ∧ s.dwellFired = false ∧ cfg.minDwellS > 0.0 ∧ dwell ≥ cfg.minDwellS then
    ({ s with dwellFired := true }, [emit z tr .zoneDwell dwell])
  else (s, [])

def step (s : ZState F D) (tr : Track F D) (inside : Bool) (now : D) : ZState F D × List (Event F D) :=
  let s := { s with classId := tr.det.classId, score := tr.det.score }
  let (s, crossed) := crosses z s tr inside now
  let (s, dwelt) := dwells cfg z s tr now
  (s, crossed ++ dwelt)

/-- The body of the loop of `on_track_removed`. -/
def remove (s : Option (ZState F D)) (t : D) : Option (ZState F D) × List (Event F D) :=
  match s with
  | none => (none, [])
  | some s =>
    (none, if s.inside then
        [{ type := .zoneExit, zoneId := z.id, dwellS := some (t - s.enteredAt), classId := s.classId, score := s.score }]
      else [])

/-- The track is in the zone, in a frame in which it is processed. -/
def inside : Act F D → Bool
  | .observe m tr => pointInPoly (anchorOf m tr) z.poly
  | .remove _ _ => false

/-- One track and one zone. -/
def visit (s : Option (ZState F D)) (a : Act F D) : Option (ZState F D) × List (D × Event F D) :=
  match a with
  | .observe m tr =>
    let (s, evs) := step cfg z (s.getD (.new F D)) tr (inside z a) m.tMonoS
    (some s, evs.map (m.tMonoS, ·))
  | .remove _ t =>
    let (s, evs) := remove z s t
    (s, evs.map (t, ·))

/-- One zone. A `std::map` from track ids is a function. -/
def next : (UInt32 → Option (ZState F D)) → Act F D → (UInt32 → Option (ZState F D)) × List (UInt32 × D × Event F D) :=
  keyed (fun _ => visit cfg z) Act.tid

/-- What is kept, by zone, and what has been told. -/
abbrev Kept (F D : Type) := List (UInt32 → Option (ZState F D)) × List (Nat × UInt32 × D × Event F D)

/-- `on_frame`, on `zst_` and `out`. -/
def onFrame (m : FrameMeta F D) (tracks : List (Track F D)) (x : Kept F D) : Kept F D :=
  Loops.onFrame cfg.classes (next cfg) cfg.zones m tracks x

/-- `on_track_removed` -/
def onTrackRemoved (tid : UInt32) (t : D) (x : Kept F D) : Kept F D := Loops.onTrackRemoved (next cfg) cfg.zones tid t x

/-- What `configure` leaves in `zst_`. -/
def start : List (UInt32 → Option (ZState F D)) := cfg.zones.map fun _ _ => none

/-- The calls in order, with the events there have been. -/
def run (x : Kept F D) (calls : List (AnalyzerCall F D)) : Kept F D := Loops.run cfg.classes (next cfg) cfg.zones x calls

/-! ## One track in one zone -/

/-- What the calls tell of a track: the frames in which it is processed, and its removals. -/
def visits (tid : UInt32) (calls : List (AnalyzerCall F D)) : List (Act F D) := (acts cfg.classes calls).filter (Act.tid · = tid)

/-- What has been told of a track in a zone, with the times. -/
def logOf (zi : Nat) (tid : UInt32) (out : List (Nat × UInt32 × D × Event F D)) : List (D × Event F D) :=
  toldOf tid (toldBy zi out)

variable {cfg z}

/-- **A track in a zone is a machine of its own.** -/
theorem run_visits {zi : Nat} (hz : cfg.zones[zi]? = some z) (tid : UInt32) (calls : List (AnalyzerCall F D)) :
    logOf zi tid (run cfg (start cfg, []) calls).2 = (after (visit cfg z) (none, []) (visits cfg tid calls)).2 := by
  have hstart : (start cfg)[zi]? = some fun _ => none := by
    rw [start, List.getElem?_map, hz]
    rfl
  obtain ⟨-, hout⟩ := @Loops.run_at F D _ _ _ cfg.classes (next cfg) cfg.zones (start cfg, []) zi z _ calls hz hstart
  rw [logOf, run, hout]
  exact (after_keyed (fun _ => visit cfg z) Act.tid tid _ _).2

end

end RetailVision.Vb.ZoneAnalyzer
