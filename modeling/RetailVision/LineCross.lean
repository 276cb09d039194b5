/-
The line_cross analyzer (`core-cpp/vb/src/analyzers/line_cross.cpp`) between two
configurations: `on_frame` and `on_track_removed`. What is kept for one line,
and the events of that line, are those of a machine of its own (`run_line`).
-/
import RetailVision.Analyzers
import RetailVision.VbAnalyzer

set_option linter.all false

namespace RetailVision.Vb

namespace LineCross

open RetailVision.Analyzers (Line LineCrossCfg)
open Loops (acts)
open Lib (traced moves tells toldBy run_after)

structure PerTrack (F : Type) where
  /-- `-1`, `0` or `1`; `0` until the first explicit side -/
  side : Int
  /-- `1` forward, `-1` backward, `0` never -/
  counted : Int
  /-- the anchor at the last count -/
  anchor : Option (F × F)
  lx : F
  ly : F
  /-- frames observed -/
  age : UInt32
  deriving DecidableEq

structure Lost (F D : Type) where
  t : D
  ax : F
  ay : F
  counted : Int
  side : Int

/-- A `std::map` from track ids is a function. -/
structure LineState (F D : Type) where
  st : UInt32 → Option (PerTrack F)
  lost : List (Lost F D)

inductive Direction
  | forward
  | backward
  deriving DecidableEq

/-- `dir` -/
def Direction.sign : Direction → Int
  | .forward => 1
  | .backward => -1

structure Event (F : Type) where
  trackId : UInt32
  lineId : String
  direction : Direction
  anchor : F × F
  classId : Int32
  score : F

variable {F D : Type}

def LineState.empty (F D : Type) : LineState F D := ⟨fun _ => none, []⟩

section

variable [Num F] [Num D] [Casts F D] (cfg : LineCrossCfg F) (ln : Line F)

def PerTrack.new (F : Type) [Num F] : PerTrack F := ⟨0, 0, none, 0.0, 0.0, 0⟩

/-- The bottom centre of a track, moved on by its velocity while it coasts. -/
def anchorOf (m : FrameMeta F D) (tr : Track F D) : F × F :=
  let mx := tr.det.cx
  let my := tr.det.cy + tr.det.h * 0.5
  if tr.misses > 0 then
    let dts := m.tMonoS - tr.lastSeenS
    let dts := if dts < 0.0 then 0.0 else dts
    m.geom.toSourceNorm (mx + Casts.toFloat (Casts.toDouble tr.vx * dts)) (my + Casts.toFloat (Casts.toDouble tr.vy * dts))
  else m.geom.toSourceNorm mx my

def length : F := Num.hypot (ln.bx - ln.ax) (ln.by_ - ln.ay)

/-- `d` -/
def signedDistance (p : F × F) : F :=
  ((ln.bx - ln.ax) * (p.2 - ln.ay) - (ln.by_ - ln.ay) * (p.1 - ln.ax)) / length ln

def tproj (p : F × F) : F :=
  ((p.1 - ln.ax) * (ln.bx - ln.ax) + (p.2 - ln.ay) * (ln.by_ - ln.ay)) / (length ln * length ln)

/-- `cur`; `0` inside the band. -/
def sideOf (p : F × F) : Int :=
  if signedDistance ln p > cfg.band then 1
  else if signedDistance ln p < -cfg.band then -1
  else 0

/-- The point is not beyond an end of the line. -/
def AtSegment (p : F × F) : Prop := ¬ (tproj ln p < -cfg.segmentMargin ∨ tproj ln p > 1.0 + cfg.segmentMargin)

instance (p : F × F) : Decidable (AtSegment cfg ln p) := inferInstanceAs (Decidable (¬ _))

/-- The point is too close to where the track was counted last. -/
def Jitter (s : PerTrack F) (p : F × F) : Prop :=
  ∃ a, s.anchor = some a ∧ Num.hypot (p.1 - a.1) (p.2 - a.2) < cfg.minTravel

instance (s : PerTrack F) (p : F × F) : Decidable (Jitter cfg s p) :=
  match h : s.anchor with
  | none => .isFalse fun hj => by
    obtain ⟨a, ha, _⟩ := hj
    rw [h] at ha
    cases ha
  | some a => decidable_of_iff (Num.hypot (p.1 - a.1) (p.2 - a.2) < cfg.minTravel) (by simp [Jitter, h])

/-- The direction of a crossing that leaves the side `s.side`. -/
def PerTrack.direction (s : PerTrack F) : Direction := if s.side > 0 then .forward else .backward

/-- `step`, from the band on. -/
def cross (s : PerTrack F) (tid : UInt32) (p : F × F) (tr : Track F D) : PerTrack F × Option (Event F) :=
  let cur := sideOf cfg ln p
  if cur = 0 then (s, none)
  else if s.side = 0 then ({ s with side := cur }, none)
  else if cur = s.side then (s, none)
  else if ¬ AtSegment cfg ln p then ({ s with side := cur }, none)
  else if s.age.toInt32.toInt < cfg.minTrackFrames then ({ s with side := cur }, none)
  else
    let dir := s.direction
    if s.counted = dir.sign then ({ s with side := cur }, none)
    else if Jitter cfg s p then ({ s with side := cur }, none)
    else
      ({ s with counted := dir.sign, anchor := some p, side := cur },
        some {
          trackId := tid
          lineId := ln.id
          direction := dir
          anchor := p
          classId := tr.det.classId
          score := tr.det.score })

/-- A crossing that passes every guard but the one on its direction. -/
structure Crosses (s : PerTrack F) (p : F × F) : Prop where
  outside : sideOf cfg ln p ≠ 0
  had_side : s.side ≠ 0
  changes : sideOf cfg ln p ≠ s.side
  atSegment : AtSegment cfg ln p
  old_enough : ¬ s.age.toInt32.toInt < cfg.minTrackFrames
  no_jitter : ¬ Jitter cfg s p

/-- A lost track that one at `p` may be. -/
def Matches (p : F × F) (now : D) (l : Lost F D) : Prop :=
  now - l.t ≤ Casts.toDouble cfg.rebornWindowS ∧ Num.hypot (p.1 - l.ax) (p.2 - l.ay) ≤ cfg.rebornDist

instance (p : F × F) (now : D) (l : Lost F D) : Decidable (Matches cfg p now l) := inferInstanceAs (Decidable (_ ∧ _))

/-- The lost track that a new one takes over, by its index. -/
def heir (ls : LineState F D) (s : PerTrack F) (p : F × F) (now : D) : Option Nat :=
  if s.age = 0 then ls.lost.findIdx? (Matches cfg p now ·) else none

/-- `step`, up to the band: what is kept for the track, and the lost tracks. -/
def observed (ls : LineState F D) (tid : UInt32) (p : F × F) (now : D) : PerTrack F × List (Lost F D) :=
  let s := (ls.st tid).getD (.new F)
  let seen := fun s : PerTrack F => { s with age := s.age + 1, lx := p.1, ly := p.2 }
  match heir cfg ls s p now with
  | some i => match ls.lost[i]? with
    | some l => (seen { s with counted := l.counted, side := l.side }, ls.lost.eraseIdx i)
    | none => (seen s, ls.lost)
  | none => (seen s, ls.lost)

def step (ls : LineState F D) (tid : UInt32) (p : F × F) (now : D) (tr : Track F D) :
    LineState F D × Option (Event F) :=
  let (s, lost) := observed cfg ls tid p now
  let (s, ev) := cross cfg ln s tid p tr
  ({ st := Function.update ls.st tid (some s), lost := lost }, ev)

/-- The body of the loop of `on_track_removed`. -/
def remove (ls : LineState F D) (tid : UInt32) (t : D) : LineState F D :=
  match ls.st tid with
  | none => ls
  | some s =>
    let lost := if s.counted ≠ 0 then ls.lost ++ [⟨t, s.lx, s.ly, s.counted, s.side⟩] else ls.lost
    { st := Function.update ls.st tid none
      lost := lost.dropWhile fun l => t - l.t > Casts.toDouble cfg.rebornWindowS }

/-- The bodies of the loops over the lines. -/
def next (ls : LineState F D) : Act F D → LineState F D × List (Event F)
  | .observe m tr =>
    let (ls, ev) := step cfg ln ls tr.trackId (anchorOf m tr) m.tMonoS tr
    (ls, ev.toList)
  | .remove tid t => (remove cfg ls tid t, [])

/-- `on_frame`, on `lst_` and `out`. -/
def onFrame (m : FrameMeta F D) (tracks : List (Track F D)) (x : List (LineState F D) × List (Nat × Event F)) :
    List (LineState F D) × List (Nat × Event F) :=
  Loops.onFrame cfg.classes (next cfg) cfg.lines m tracks x

/-- `on_track_removed` -/
def onTrackRemoved (tid : UInt32) (t : D) (x : List (LineState F D) × List (Nat × Event F)) :
    List (LineState F D) × List (Nat × Event F) :=
  Loops.onTrackRemoved (next cfg) cfg.lines tid t x

/-- What `configure` leaves in `lst_`. -/
def start : List (LineState F D) := cfg.lines.map fun _ => .empty F D

/-- The calls in order, with the events there have been. -/
def run (x : List (LineState F D) × List (Nat × Event F)) (calls : List (AnalyzerCall F D)) :
    List (LineState F D) × List (Nat × Event F) :=
  Loops.run cfg.classes (next cfg) cfg.lines x calls

/-! ## One line -/

/-- The machine of one line. -/
def line : LineState F D → Act F D → Option (LineState F D) := moves (next cfg ln)

/-- Its events. -/
def emit : LineState F D → Act F D → List (Event F) → List (Event F) := tells (next cfg ln)

end

variable [Num F] [Num D] [Casts F D] {cfg : LineCrossCfg F} {ln : Line F} {li : Nat}

/-- **A line is a machine of its own**: what is kept for it, and its events,
come of what it is told and of nothing else. -/
theorem run_line (hln : cfg.lines[li]? = some ln) (calls : List (AnalyzerCall F D)) : ∃ ls',
    Lib.run (traced (line cfg ln) (emit cfg ln)) (.empty F D, []) (acts cfg.classes calls) =
      some (ls', toldBy li (run cfg (start cfg, []) calls).2) ∧ (run cfg (start cfg, []) calls).1[li]? = some ls' := by
  have hstart : (start cfg : List (LineState F D))[li]? = some (.empty F D) := by
    rw [start, List.getElem?_map, hln]
    rfl
  obtain ⟨hstate, hout⟩ := @Loops.run_at F D _ _ _ cfg.classes (next cfg) cfg.lines (start cfg, []) li ln _ calls hln hstart
  rw [run, hstate, hout]
  exact ⟨_, run_after, rfl⟩

omit [Num D] [Casts F D] in
/-- What `cross` does. -/
theorem cross_cases (cfg : LineCrossCfg F) (ln : Line F) (s : PerTrack F) (tid : UInt32) (p : F × F) (tr : Track F D) :
    (Crosses cfg ln s p ∧ s.counted ≠ s.direction.sign ∧
      cross cfg ln s tid p tr =
        ({ s with counted := s.direction.sign, anchor := some p, side := sideOf cfg ln p },
          some ⟨tid, ln.id, s.direction, p, tr.det.classId, tr.det.score⟩)) ∨
    ((Crosses cfg ln s p → s.counted = s.direction.sign) ∧
      cross cfg ln s tid p tr =
        ({ s with side := if sideOf cfg ln p = 0 then s.side else sideOf cfg ln p }, none)) := by
  simp only [cross]
  by_cases hcur : sideOf cfg ln p = 0
  · exact .inr ⟨fun h => absurd hcur h.outside, by simp [hcur]⟩
  by_cases hside : s.side = 0
  · exact .inr ⟨fun h => absurd hside h.had_side, by simp [hcur, hside]⟩
  by_cases hsame : sideOf cfg ln p = s.side
  · exact .inr ⟨fun h => absurd hsame h.changes, by simp [hside, hsame]⟩
  by_cases hseg : AtSegment cfg ln p
  swap
  · exact .inr ⟨fun h => absurd h.atSegment hseg, by simp [hcur, hside, hsame, hseg]⟩
  by_cases hage : s.age.toInt32.toInt < cfg.minTrackFrames
  · exact .inr ⟨fun h => absurd hage h.old_enough, by simp [hcur, hside, hsame, hseg, hage]⟩
  by_cases hdir : s.counted = s.direction.sign
  · exact .inr ⟨fun _ => hdir, by simp [hcur, hside, hsame, hseg, hage, hdir]⟩
  by_cases hjit : Jitter cfg s p
  · exact .inr ⟨fun h => absurd hjit h.no_jitter, by simp [hcur, hside, hsame, hseg, hage, hdir, hjit]⟩
  · exact .inl ⟨⟨hcur, hside, hsame, hseg, hage, hjit⟩, hdir, by simp [hcur, hside, hsame, hseg, hage, hdir, hjit]⟩

/-! ## A line across the middle -/

/-- The defaults, and a line across the middle of the frame. -/
def acrossTheMiddle : LineCrossCfg ℚ where
  lines := [{ id := "door", ax := 0, ay := 0.5, bx := 1, by_ := 0.5 }]
  band := 0.01
  segmentMargin := 0.05
  minTravel := 0.02
  rebornWindowS := 1.5
  rebornDist := 0.05
  minTrackFrames := 3
  classes := []

end LineCross

end RetailVision.Vb
