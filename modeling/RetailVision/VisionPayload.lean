/-
The two builders of a vision payload, `core-cpp/mqtt_payload.cpp` and
`core-py/retail_core/payload.py`, with exact numbers and any rule of rounding.
They undo the letterbox alike; the C++ one then cuts the box off at the edges of
the frame, which the Python one does not. So their payloads are the same, and
the boxes in range, exactly where no box sticks out (`builders_agree_iff`).
-/
import RetailVision.ZoneMetrics
import RetailVision.Lib.Ordered
import Mathlib.Algebra.Order.Ring.Rat
import Mathlib.Data.Rat.Floor
import Mathlib.Tactic.NormNum.OfScientific
import Mathlib.Tactic.Ring

set_option linter.all false

namespace RetailVision.Payload

open PersonTracker (TrackedPerson DetectionBox DwellState)
open Metrics (ZoneSnapshot)
open scoped RetailVision.Lib.Ordered

/-- Top left corner and size, normalized. -/
structure BBox (K : Type) where
  x : K
  y : K
  w : K
  h : K
  deriving DecidableEq

structure Person (K : Type) where
  slot : Nat
  trackId : Nat
  confidence : K
  cxPct : K
  cyPct : K
  bbox : BBox K
  vx : K
  vy : K
  speedMS : K
  state : String
  dwellDuration : K

structure VisionPayload (K : Type) where
  timestamp : Nat
  frameId : Nat
  frameWidth : Int
  frameHeight : Int
  fps : K
  inferenceTimeMs : K
  zone : ZoneSnapshot K
  persons : List (Person K)

/-- How the picture lies in the model's input. -/
structure Letterbox (K : Type) where
  scaleX : K
  scaleY : K
  offsetX : K
  offsetY : K

/-- `real_cx`, `real_cy`, `real_w`, `real_h`: a box in the frame. -/
structure RealBox (K : Type) where
  cx : K
  cy : K
  w : K
  h : K

/-- Numbers are rounded to so many decimals. -/
abbrev Rounding (K : Type) := Nat → K → K

variable {K : Type} [Field K] [LinearOrder K]

def BBox.rounded (round : Rounding K) (b : BBox K) : BBox K := ⟨round 4 b.x, round 4 b.y, round 4 b.w, round 4 b.h⟩

/-- The letterbox undone. -/
def Letterbox.undo (l : Letterbox K) (d : DetectionBox K) : RealBox K where
  cx := (d.x - l.offsetX) / l.scaleX
  cy := (d.y - l.offsetY) / l.scaleY
  w := d.w / l.scaleX
  h := d.h / l.scaleY

namespace Cpp

def letterbox (frameWidth frameHeight modelWidth modelHeight : Int) : Letterbox K :=
  let fw : K := frameWidth
  let fh : K := frameHeight
  let mw : K := modelWidth
  let mh : K := modelHeight
  let displayAspect := fw / fh
  let modelAspect := mw / mh
  if displayAspect > modelAspect then
    let contentH := mh * (modelAspect / displayAspect)
    let scaleY := contentH / mh
    ⟨1, scaleY, 0, (1 - scaleY) / 2.0⟩
  else if displayAspect < modelAspect then
    let contentW := mw * (displayAspect / modelAspect)
    let scaleX := contentW / mw
    ⟨scaleX, 1, (1 - scaleX) / 2.0, 0⟩
  else ⟨1, 1, 0, 0⟩

def getDwellStateName : DwellState → String
  | .transient => "transient"
  | .dwelling => "dwelling"
  | .engaged => "engaged"
  | .assistance => "assistance"

/-- The box intersected with the frame. -/
def clip (b : RealBox K) : BBox K :=
  let x0 := max 0 (b.cx - b.w / 2.0)
  let y0 := max 0 (b.cy - b.h / 2.0)
  let x1 := min 1 (b.cx + b.w / 2.0)
  let y1 := min 1 (b.cy + b.h / 2.0)
  ⟨x0, y0, max 0 (x1 - x0), max 0 (y1 - y0)⟩

def person (round : Rounding K) (frameWidth frameHeight : Int) (l : Letterbox K) (p : TrackedPerson K) (slot : Nat) : Person K :=
  let b := l.undo p.detection
  { slot
    trackId := p.trackId
    confidence := round 2 p.detection.score
    cxPct := round 1 (b.cx * 100)
    cyPct := round 1 (b.cy * 100)
    bbox := (clip b).rounded round
    vx := round 2 (p.velocityX / frameWidth)
    vy := round 2 (p.velocityY / frameHeight)
    speedMS := round 2 p.speedMS
    state := getDwellStateName p.dwellState
    dwellDuration := round 1 p.dwellDurationSec }

/-- The averages of a zone are rounded here. -/
def zone (round : Rounding K) (z : ZoneSnapshot K) : ZoneSnapshot K :=
  { z with
    avgDwellTime := round 1 z.avgDwellTime
    avgEngagementTime := round 1 z.avgEngagementTime
    avgVelocity := round 2 z.avgVelocity }

def buildVisionJson (round : Rounding K) (timestampMs frameId : Nat) (fps inferenceTimeMs : K) (z : ZoneSnapshot K)
    (persons : List (TrackedPerson K)) (frameWidth frameHeight modelWidth modelHeight : Int) : VisionPayload K :=
  let l := letterbox frameWidth frameHeight modelWidth modelHeight
  { timestamp := timestampMs
    frameId
    frameWidth
    frameHeight
    fps := round 1 fps
    inferenceTimeMs := round 1 inferenceTimeMs
    zone := zone round z
    persons := persons.zipIdx.map fun x => person round frameWidth frameHeight l x.1 x.2 }

end Cpp

namespace Py

def letterboxCorrection (frameWidth frameHeight modelWidth modelHeight : Int) : Letterbox K :=
  let displayAspect : K := (frameWidth : K) / frameHeight
  let modelAspect : K := (modelWidth : K) / modelHeight
  if displayAspect > modelAspect then
    let scaleY := modelAspect / displayAspect
    ⟨1, scaleY, 0, (1 - scaleY) / 2.0⟩
  else if displayAspect < modelAspect then
    let scaleX := displayAspect / modelAspect
    ⟨scaleX, 1, (1 - scaleX) / 2.0, 0⟩
  else ⟨1, 1, 0, 0⟩

/-- `STATE_NAMES` -/
def stateNames : DwellState → String
  | .transient => "transient"
  | .dwelling => "dwelling"
  | .engaged => "engaged"
  | .assistance => "assistance"

def corner (b : RealBox K) : BBox K := ⟨b.cx - b.w / 2.0, b.cy - b.h / 2.0, b.w, b.h⟩

def person (round : Rounding K) (frameWidth frameHeight : Int) (l : Letterbox K) (p : TrackedPerson K) (slot : Nat) : Person K :=
  let b := l.undo p.detection
  { slot
    trackId := p.trackId
    state := stateNames p.dwellState
    cxPct := round 1 (b.cx * 100)
    cyPct := round 1 (b.cy * 100)
    dwellDuration := round 1 p.dwellDurationSec
    confidence := round 2 p.detection.score
    bbox := (corner b).rounded round
    vx := round 2 (p.velocityX / frameWidth)
    vy := round 2 (p.velocityY / frameHeight)
    speedMS := round 2 p.speedMS }

/-- The zone is as `ZoneMetrics.snapshot` gives it. -/
def buildVisionPayload (round : Rounding K) (timestampMs frameId : Nat) (fps inferenceTimeMs : K) (zone : ZoneSnapshot K)
    (persons : List (TrackedPerson K)) (frameWidth frameHeight modelWidth modelHeight : Int) : VisionPayload K :=
  let l := letterboxCorrection frameWidth frameHeight modelWidth modelHeight
  { timestamp := timestampMs
    frameId
    frameWidth
    frameHeight
    fps := round 1 fps
    inferenceTimeMs := round 1 inferenceTimeMs
    zone
    persons := persons.zipIdx.map fun x => person round frameWidth frameHeight l x.1 x.2 }

end Py

/-! ## Boxes in the frame -/

/-- The box does not stick out of the frame. -/
structure RealBox.InFrame (b : RealBox K) : Prop where
  left : 0 ≤ b.cx - b.w / 2
  top : 0 ≤ b.cy - b.h / 2
  right : b.cx + b.w / 2 ≤ 1
  bottom : b.cy + b.h / 2 ≤ 1
  width : 0 ≤ b.w
  height : 0 ≤ b.h

/-- The corners are in the frame. -/
structure BBox.InFrame (b : BBox K) : Prop where
  left : 0 ≤ b.x ∧ b.x ≤ 1
  top : 0 ≤ b.y ∧ b.y ≤ 1
  right : 0 ≤ b.x + b.w ∧ b.x + b.w ≤ 1
  bottom : 0 ≤ b.y + b.h ∧ b.y + b.h ≤ 1

/-- In the frame, but for the rounding. -/
def BBox.InRange (round : Rounding K) (b : BBox K) : Prop := ∃ exact : BBox K, exact.InFrame ∧ b = exact.rounded round

/-- Both builders publish the same of every person, and boxes in range. -/
def Agree (round : Rounding K) (cpp py : List (Person K)) : Prop :=
  cpp = py ∧ (∀ p ∈ cpp, p.bbox.InRange round) ∧ ∀ p ∈ py, p.bbox.InRange round

variable [IsStrictOrderedRing K] {frameWidth frameHeight modelWidth modelHeight : Int} {b : RealBox K}

theorem letterbox_eq (hw : 0 < modelWidth) (hh : 0 < modelHeight) :
    (Cpp.letterbox frameWidth frameHeight modelWidth modelHeight : Letterbox K) =
      Py.letterboxCorrection frameWidth frameHeight modelWidth modelHeight := by
  have hmw : (modelWidth : K) ≠ 0 := by exact_mod_cast hw.ne'
  have hmh : (modelHeight : K) ≠ 0 := by exact_mod_cast hh.ne'
  simp only [Cpp.letterbox, Py.letterboxCorrection, mul_div_cancel_left₀ _ hmw, mul_div_cancel_left₀ _ hmh]

omit [LinearOrder K] in
theorem two_eq [CharZero K] : (2.0 : K) = 2 := by norm_num

/-- Where a span ends that is given by its middle and its length. -/
theorem span_end (c w : K) : c - w / 2 + w = c + w / 2 := by ring

theorem span_inFrame {c w : K} (hstart : 0 ≤ c - w / 2) (hend : c + w / 2 ≤ 1) (hw : 0 ≤ w) :
    (0 ≤ c - w / 2 ∧ c - w / 2 ≤ 1) ∧ 0 ≤ c - w / 2 + w ∧ c - w / 2 + w ≤ 1 := by
  have hle : c - w / 2 ≤ c + w / 2 := (le_add_of_nonneg_right hw).trans_eq (span_end c w)
  rw [span_end]
  exact ⟨⟨hstart, hle.trans hend⟩, hstart.trans hle, hend⟩

/-- Cutting a box off changes nothing, and the box is in range, exactly where
nothing sticks out. -/
theorem clip_eq_iff : (Cpp.clip b = Py.corner b ∧ (Py.corner b).InFrame) ↔ b.InFrame := by
  constructor
  · intro h
    obtain ⟨hclip, hin⟩ := h
    obtain ⟨hleft, htop, hright, hbottom⟩ := hin
    simp only [Cpp.clip, Py.corner, BBox.mk.injEq, two_eq] at hclip hleft htop hright hbottom
    obtain ⟨hx, hy, hw, hh⟩ := hclip
    rw [span_end] at hright hbottom
    exact ⟨hleft.1, htop.1, hright.2, hbottom.2, hw ▸ le_max_left _ _, hh ▸ le_max_left _ _⟩
  · intro h
    obtain ⟨hleft, htop, hright, hbottom, hwidth, hheight⟩ := h
    have hw : b.cx + b.w / 2 - (b.cx - b.w / 2) = b.w := sub_eq_of_eq_add' (span_end _ _).symm
    have hh : b.cy + b.h / 2 - (b.cy - b.h / 2) = b.h := sub_eq_of_eq_add' (span_end _ _).symm
    obtain ⟨hx, hxw⟩ := span_inFrame hleft hright hwidth
    obtain ⟨hy, hyh⟩ := span_inFrame htop hbottom hheight
    refine ⟨?_, ?_⟩
    · simp only [Cpp.clip, Py.corner, two_eq, max_eq_right hleft, max_eq_right htop, min_eq_right hright, min_eq_right hbottom,
        hw, hh, max_eq_right hwidth, max_eq_right hheight]
    · simp only [Py.corner, two_eq]
      exact ⟨hx, hy, hxw, hyh⟩

/-! ## Payloads -/

/-- All but the box. -/
def Person.rest (p : Person K) : Person K := { p with bbox := ⟨0, 0, 0, 0⟩ }

variable {l : Letterbox K} {p : TrackedPerson K} {slot : Nat} {persons : List (TrackedPerson K)} {round : Rounding K}

omit [LinearOrder K] [IsStrictOrderedRing K] in
theorem person_bbox_py : (Py.person round frameWidth frameHeight l p slot).bbox = (Py.corner (l.undo p.detection)).rounded round := rfl

omit [IsStrictOrderedRing K] in
/-- Of a person the two publish the same, but for the box. -/
theorem person_eq : Cpp.person round frameWidth frameHeight l p slot =
    { Py.person round frameWidth frameHeight l p slot with bbox := (Cpp.clip (l.undo p.detection)).rounded round } := by
  have hname : Cpp.getDwellStateName p.dwellState = Py.stateNames p.dwellState := by
    cases p.dwellState <;> rfl
  simp only [Cpp.person, Py.person, hname]

/-- The persons, as each builder publishes them. -/
def published (f : TrackedPerson K → Nat → Person K) (persons : List (TrackedPerson K)) : List (Person K) :=
  persons.zipIdx.map fun x => f x.1 x.2

omit [Field K] [LinearOrder K] [IsStrictOrderedRing K] in
theorem published_eq_iff {f g : TrackedPerson K → Nat → Person K} :
    published f persons = published g persons ↔ ∀ p slot, (p, slot) ∈ persons.zipIdx → f p slot = g p slot := by
  rw [published, published, List.map_inj_left]
  exact Prod.forall

omit [Field K] [LinearOrder K] [IsStrictOrderedRing K] in
theorem mem_published {f : TrackedPerson K → Nat → Person K} {P : Person K → Prop} :
    (∀ q ∈ published f persons, P q) ↔ ∀ p slot, (p, slot) ∈ persons.zipIdx → P (f p slot) := by
  rw [published, List.forall_mem_map]
  exact Prod.forall

omit [Field K] [LinearOrder K] [IsStrictOrderedRing K] in
theorem exists_slot (hp : p ∈ persons) : ∃ slot, (p, slot) ∈ persons.zipIdx := by
  obtain ⟨slot, hslot⟩ := List.getElem?_of_mem hp
  exact ⟨slot, List.mem_zipIdx_iff_getElem?.mpr hslot⟩

omit [Field K] [LinearOrder K] [IsStrictOrderedRing K] in
theorem mem_of_slot (hp : (p, slot) ∈ persons.zipIdx) : p ∈ persons := List.mem_of_getElem? (List.mem_zipIdx_iff_getElem?.mp hp)

/-- **The two builders** agree, whatever the rule of rounding, and publish boxes
in range, exactly where no person's box sticks out of the frame once the
letterbox is undone. Of everything but the boxes they always publish the same. -/
theorem builders_agree_iff (hw : 0 < modelWidth) (hh : 0 < modelHeight) (timestampMs frameId : Nat) (fps inferenceTimeMs : K)
    (zc zp : ZoneSnapshot K) (persons : List (TrackedPerson K)) :
    let cpp := fun round => (Cpp.buildVisionJson round timestampMs frameId fps inferenceTimeMs zc persons frameWidth frameHeight
      modelWidth modelHeight).persons
    let py := fun round => (Py.buildVisionPayload round timestampMs frameId fps inferenceTimeMs zp persons frameWidth frameHeight
      modelWidth modelHeight).persons
    let l : Letterbox K := Py.letterboxCorrection frameWidth frameHeight modelWidth modelHeight
    ((∀ round, Agree round (cpp round) (py round)) ↔ ∀ p ∈ persons, (l.undo p.detection).InFrame) ∧
      ∀ round, (cpp round).map Person.rest = (py round).map Person.rest := by
  intro cpp py l
  have hcpp : ∀ round, cpp round = published (Cpp.person round frameWidth frameHeight l) persons := fun round => by
    simp only [cpp, Cpp.buildVisionJson, letterbox_eq hw hh]
    rfl
  have hpy : ∀ round, py round = published (Py.person round frameWidth frameHeight l) persons := fun round => rfl
  refine ⟨⟨fun h p hp => ?_, fun h round => ?_⟩, fun round => ?_⟩
  · -- with no rounding at all the boxes themselves are compared
    obtain ⟨hsame, -, hrange⟩ := h fun _ x => x
    obtain ⟨slot, hslot⟩ := exists_slot hp
    rw [hcpp, hpy, published_eq_iff] at hsame
    rw [hpy, mem_published] at hrange
    have hclip : Cpp.clip (l.undo p.detection) = Py.corner (l.undo p.detection) := congrArg Person.bbox (hsame p slot hslot)
    obtain ⟨exact, hexact, heq⟩ := hrange p slot hslot
    have hcorner : Py.corner (l.undo p.detection) = exact := heq
    exact clip_eq_iff.mp ⟨hclip, hcorner ▸ hexact⟩
  · have hclip : ∀ p slot, (p, slot) ∈ persons.zipIdx →
        Cpp.clip (l.undo p.detection) = Py.corner (l.undo p.detection) ∧ (Py.corner (l.undo p.detection)).InFrame :=
      fun p slot hp => clip_eq_iff.mpr (h p (mem_of_slot hp))
    have hsame : cpp round = py round := by
      rw [hcpp, hpy, published_eq_iff]
      intro p slot hp
      rw [person_eq, (hclip p slot hp).1]
      rfl
    have hrange : ∀ q ∈ py round, q.bbox.InRange round := by
      rw [hpy, mem_published]
      exact fun p slot hp => ⟨_, (hclip p slot hp).2, person_bbox_py⟩
    exact ⟨hsame, hsame ▸ hrange, hrange⟩
  · rw [hcpp, hpy, published, published, List.map_map, List.map_map]
    refine List.map_congr_left fun x _ => ?_
    simp only [Function.comp_apply, person_eq, Person.rest]

/-! ## A person in the padding band -/

/-- Rounded to so many decimals, halves up. -/
def decimals (digits : Nat) (x : ℚ) : ℚ := ⌊x * 10 ^ digits + 1 / 2⌋ / 10 ^ digits

/-- A person whose box is `d`. -/
def shopper (d : DetectionBox ℚ) : TrackedPerson ℚ := ⟨1, d, 0, 0, 0, 0, .transient, 2, 0, 2, 2, 0, 60, 0, 0, 0, 60, false⟩

def emptyZone : ZoneSnapshot ℚ := ⟨1, 0, 0, 0, 1, 0, 0, 0, 0, 0⟩

/-- A picture of 1280×720 lies between two bands of 140 lines in an input of
640×640. The box reaches into the upper one. -/
theorem not_builders_agree : ¬ Agree decimals
    (Cpp.buildVisionJson decimals 2000 60 30 5 emptyZone [shopper ⟨1 / 2, 2 / 5, 1 / 5, 2 / 5, 9 / 10⟩] 1280 720 640 640).persons
    (Py.buildVisionPayload decimals 2000 60 30 5 emptyZone [shopper ⟨1 / 2, 2 / 5, 1 / 5, 2 / 5, 9 / 10⟩] 1280 720 640 640).persons := by
  intro h
  have hy : ([0] : List ℚ) = [-333 / 10000] := by
    have hcpp : ((Cpp.buildVisionJson decimals 2000 60 30 5 emptyZone [shopper ⟨1 / 2, 2 / 5, 1 / 5, 2 / 5, 9 / 10⟩] 1280 720
        640 640).persons.map (·.bbox.y)) = [0] := by decide +kernel
    have hpy : ((Py.buildVisionPayload decimals 2000 60 30 5 emptyZone [shopper ⟨1 / 2, 2 / 5, 1 / 5, 2 / 5, 9 / 10⟩] 1280 720
        640 640).persons.map (·.bbox.y)) = [-333 / 10000] := by decide +kernel
    rw [← hcpp, ← hpy, h.1]
  revert hy
  decide +kernel

/-- In the middle of the picture it is the same for both. -/
theorem builders_agree_middle : Agree decimals
    (Cpp.buildVisionJson decimals 2000 60 30 5 emptyZone [shopper ⟨1 / 2, 1 / 2, 1 / 5, 2 / 5, 9 / 10⟩] 1280 720 640 640).persons
    (Py.buildVisionPayload decimals 2000 60 30 5 emptyZone [shopper ⟨1 / 2, 1 / 2, 1 / 5, 2 / 5, 9 / 10⟩] 1280 720 640 640).persons := by
  refine (builders_agree_iff (by decide) (by decide) 2000 60 30 5 emptyZone emptyZone _).1.mpr ?_ decimals
  intro p hp
  rw [List.mem_singleton.mp hp]
  exact ⟨by decide +kernel, by decide +kernel, by decide +kernel, by decide +kernel, by decide +kernel, by decide +kernel⟩

end RetailVision.Payload
