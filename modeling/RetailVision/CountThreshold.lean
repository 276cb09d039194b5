/-
The count_threshold analyzer (`core-cpp/vb/src/analyzers/count_threshold.cpp`):
`configure`, once the new configuration has been read, and `on_frame`. What is
kept is a debouncer for each zone, by its id.

An event is given with its `zone_id`.
-/
import RetailVision.Debounce
import RetailVision.MotionUtil

set_option linter.all false

namespace RetailVision.Vb.CountThreshold

open Lib (after keyed)
open RetailVision.Analyzers (Zone)
open Motion (anchorPoint pointInPolygon)

/-- `Cfg`, as `parse_cfg` leaves it: no two zones have one id, and a polygon is
equal to itself, since its coordinates are in `[0,1]`. -/
structure Cfg (F D : Type) [BEq F] where
  zones : List (Zone F)
  maxCount : Option D
  minCount : Option D
  holdS : D
  anchor : String
  classes : List Int
  ids_nodup : (zones.map (·.id)).Nodup
  poly_self : ∀ z ∈ zones, (z.poly == z.poly) = true

/-- A raw value. -/
inductive Level
  | normal
  | «over»
  | under
  deriving DecidableEq

instance : Inhabited Level := ⟨.normal⟩

inductive EventType
  | countOver
  | countUnder
  | countNormal
  deriving DecidableEq

structure Event (D : Type) where
  type : EventType
  count : Int
  /-- `null` where the limit is not set; left out of a `count_normal` -/
  limit : Option D

/-- A std::map from zone ids is a function. -/
structure State (F D : Type) [BEq F] where
  cfg : Cfg F D
  zst : String → Option (Debounce Level D)

inductive Call (F D : Type) [BEq F]
  | onFrame (m : FrameMeta F D) (tracks : List (Track F D))
  | configure (c : Cfg F D)

variable {F D : Type} [BEq F]

section

variable [Num D]

/-- Before the first configuration. -/
def State.init : State F D where
  cfg := {
    zones := []
    maxCount := none
    minCount := none
    holdS := 2.0
    anchor := "bottom_center"
    classes := []
    ids_nodup := List.nodup_nil
    poly_self := by simp }
  zst := fun _ => none

/-- What is kept of a zone: its state, where its id and polygon are as before. -/
def State.kept (s : State F D) (z : Zone F) : Option (Debounce Level D) :=
  if s.cfg.zones.any fun oz => oz.id == z.id && oz.poly == z.poly then s.zst z.id else none

/-- The body of the loop of `configure`. -/
def State.keep (s : State F D) (keep : String → Option (Debounce Level D)) (z : Zone F) : String → Option (Debounce Level D) :=
  match s.kept z with
  | some st => Function.update keep z.id (some st)
  | none => keep

/-- `configure`, from a configuration that has been read. -/
def configure (s : State F D) (c : Cfg F D) : State F D where
  cfg := c
  zst := c.zones.foldl s.keep fun _ => none

variable [Num F]

/-- The implicit zone. -/
def frameZone : Zone F where
  id := "frame"
  poly := [(0.0, 0.0), (1.0, 0.0), (1.0, 1.0), (0.0, 1.0)]

/-- `effective_zones` -/
def Cfg.effectiveZones (cfg : Cfg F D) : List (Zone F) := if ¬ cfg.zones.isEmpty then cfg.zones else [frameZone]

/-- The anchor points of the tracks that are counted. -/
def anchors (cfg : Cfg F D) (m : FrameMeta F D) (tracks : List (Track F D)) : List (F × F) :=
  (tracks.filter fun tr => tr.misses == 0 && Loops.classOk cfg.classes tr.det.classId).map (anchorPoint · m.geom cfg.anchor)

/-- `raw` -/
def level (cfg : Cfg F D) (count : Int) : Level :=
  if ∃ limit ∈ cfg.maxCount, (count : D) > limit then .over
  else if ∃ limit ∈ cfg.minCount, (count : D) < limit then .under
  else .normal

def eventOf (cfg : Cfg F D) (count : Int) : Level → Event D
  | .over => ⟨.countOver, count, cfg.maxCount⟩
  | .under => ⟨.countUnder, count, cfg.minCount⟩
  | .normal => ⟨.countNormal, count, none⟩

/-- A zone is judged, and told of where its debouncer commits. -/
def judge (cfg : Cfg F D) (now : D) (points : List (F × F)) (st : Option (Debounce Level D)) (z : Zone F) :
    Option (Debounce Level D) × List (Event D) :=
  let count := (points.filter (pointInPolygon · z.poly)).length
  let (deb, c) := (st.getD (.new .normal)).step (level cfg count) now cfg.holdS
  (some deb, c.toList.map fun c => eventOf cfg count c.2)

/-- `on_frame` -/
def onFrame (s : State F D) (m : FrameMeta F D) (tracks : List (Track F D)) : State F D × List (String × Event D) :=
  let points := anchors s.cfg m tracks
  let (zst, out) := after (keyed (fun _ => judge s.cfg m.tMonoS points) Zone.id) (s.zst, []) s.cfg.effectiveZones
  ({ s with zst }, out)

def step (s : State F D) : Call F D → State F D × List (String × Event D)
  | .onFrame m tracks => onFrame s m tracks
  | .configure c => (configure s c, [])

/-- The calls in order. -/
def run (s : State F D) (calls : List (Call F D)) : State F D × List (String × Event D) := after step (s, []) calls

/-- The debouncer of a zone: one that is new, where the zone has none yet. -/
def State.deb (s : State F D) (id : String) : Debounce Level D := (s.zst id).getD (.new .normal)

end

end RetailVision.Vb.CountThreshold
