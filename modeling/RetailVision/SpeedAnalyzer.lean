/-
The speed analyzer (`core-cpp/vb/src/analyzers/speed.cpp`) between two
configurations: how far a track has moved over a sliding window, against the
limits, debounced. What it tells of a track is settled by the frames that the
track was processed in since it was last removed: which samples are in the
window, and how long the speed has been beyond a limit (`speed_lawful`).
-/
import RetailVision.Judged
import RetailVision.MotionUtil
import RetailVision.Lib.Window

set_option linter.all false

namespace RetailVision.Vb.SpeedAnalyzer

open Lib (after after_snoc after_append after_out toldOf Along slide slide_eq)
open Motion (Root anchorPoint toH visits visits_append timed timed_eq run_visits visits_removed times_visits look)

/-- `Cfg`, with the limits that it has. -/
structure Cfg (D : Type) where
  windowS : D
  maxSpeed : Option D
  minSpeed : Option D
  holdS : D
  anchor : String
  /-- `h`, row by row -/
  homography : Option (Vector D 9)
  classes : List Int

/-- A raw value. -/
inductive Pace
  | normal
  /-- `over` -/
  | above
  | under
  deriving DecidableEq

instance : Inhabited Pace := ⟨.normal⟩

structure Hist (F D : Type) where
  /-- `ts` and `pts`, which go together -/
  samples : List (D × F × F)
  deb : Debounce Pace D

inductive Event (F D : Type)
  | speedOver (speed : D) (limit : Option D) (unit : String) (classId : Int32) (score : F)
  | speedUnder (speed : D) (limit : Option D) (unit : String) (classId : Int32) (score : F)
  | speedNormal (speed : D) (unit : String)

variable {F D : Type}

/-- What an event is of. -/
def Event.pace : Event F D → Pace
  | speedOver .. => .above
  | speedUnder .. => .under
  | speedNormal .. => .normal

section

variable [Num D]

def Hist.new (F D : Type) [Num D] : Hist F D where
  samples := []
  deb := .new .normal

variable [Num F] [Casts F D] [Root D] (cfg : Cfg D)

def unit : String := if cfg.homography.isSome then "m/s" else "fh/s"

/-- `fx`, `fy` -/
def place (m : FrameMeta F D) (tr : Track F D) : F × F :=
  let p := anchorPoint tr m.geom cfg.anchor
  match cfg.homography with
  | none => toH m.geom p
  | some H =>
    let px : D := Casts.toDouble p.1
    let py : D := Casts.toDouble p.2
    let w := H[6] * px + H[7] * py + H[8]
    (Casts.toFloat ((H[0] * px + H[1] * py + H[2]) / w), Casts.toFloat ((H[3] * px + H[4] * py + H[5]) / w))

/-- A sample is dropped from the front as long as it is older than the window. -/
def old (now : D) (sample : D × F × F) : Bool := decide (now - sample.1 > cfg.windowS)

/-- The samples that are left once there is one more. -/
def push (samples : List (D × F × F)) (now : D) (p : F × F) : List (D × F × F) :=
  (samples ++ [(now, p)]).dropWhile (old cfg now)

/-- `v`; nothing where the samples are too few. -/
def speed (samples : List (D × F × F)) : Option D :=
  match samples.head?, samples.getLast? with
  | some front, some back =>
    if samples.length < 2 then none
    else
      let span := back.1 - front.1
      if span < 0.5 * cfg.windowS then none
      else
        let dx : D := Casts.toDouble back.2.1 - Casts.toDouble front.2.1
        let dy : D := Casts.toDouble back.2.2 - Casts.toDouble front.2.2
        some (Root.sqrt (dx * dx + dy * dy) / span)
  | _, _ => none

/-- `raw` -/
def paceOf (v : D) : Pace :=
  if cfg.maxSpeed.any (fun limit => decide (v > limit)) then .above
  else if cfg.minSpeed.any (fun limit => decide (v < limit)) then .under
  else .normal

/-- The event of a transition to this pace. -/
def event (v : D) (tr : Track F D) : Pace → Event F D
  | .above => .speedOver v cfg.maxSpeed (unit cfg) tr.det.classId tr.det.score
  | .under => .speedUnder v cfg.minSpeed (unit cfg) tr.det.classId tr.det.score
  | .normal => .speedNormal v (unit cfg)

/-- The body of the loop of `on_frame`, for a track that is processed. -/
def observe (o : Option (Hist F D)) (m : FrameMeta F D) (tr : Track F D) : Option (Hist F D) × List (Event F D) :=
  let h := o.getD (.new F D)
  let samples := push cfg h.samples m.tMonoS (place cfg m tr)
  match speed cfg samples with
  | none => (some { h with samples }, [])
  | some v => match h.deb.step (paceOf cfg v) m.tMonoS cfg.holdS with
    | (deb, none) => (some { samples, deb }, [])
    | (deb, some (_, next)) => (some { samples, deb }, [event cfg v tr next])

/-- One track; `on_track_removed` tells nothing. -/
def visit (o : Option (Hist F D)) : Act F D → Option (Hist F D) × List (Event F D)
  | .observe m tr => observe cfg o m tr
  | .remove .. => (none, [])

/-- The calls in order, from what `configure` leaves. -/
def run (calls : List (AnalyzerCall F D)) : Motion.Kept (Hist F D) D (Event F D) :=
  Motion.run cfg.classes (visit cfg) (Motion.start _ _ _) calls

/-- What has been told of a track, with the times. -/
def logOf (tid : UInt32) (calls : List (AnalyzerCall F D)) : List (D × Event F D) := toldOf tid (run cfg calls).2

/-! ## What it judges -/

/-- A track in a frame. -/
abbrev Sight (F D : Type) := FrameMeta F D × Track F D

def sample (x : Sight F D) : D × F × F := (x.1.tMonoS, place cfg x.1 x.2)

def judge : Judged.Judge (List (D × F × F)) (Sight F D) Pace (D × Track F D) D where
  start := []
  initial := .normal
  hold := cfg.holdS
  time x := x.1.tMonoS
  look samples x :=
    let samples := push cfg samples x.1.tMonoS (place cfg x.1 x.2)
    (samples, (speed cfg samples).map fun v => (paceOf cfg v, v, x.2))

/-- The sights of a track since it was last removed. -/
abbrev life (before : List (Act F D)) : List (Sight F D) := Judged.Judge.life look before

/-- The event of what is read. -/
def eventOf (pace : Pace) (info : D × Track F D) : Event F D := event cfg info.1 info.2 pace

variable {cfg} {m : FrameMeta F D} {tr : Track F D} {v : D} {pace : Pace} {before more : List (Act F D)} {x : Sight F D}
  {xs : List (Sight F D)}

omit [Num F] [Root D] [Num D] [Casts F D] in
@[simp] theorem pace_event : (event (F := F) cfg v tr pace).pace = pace := by
  cases pace <;> rfl

/-- What is kept of a track, as the judge has it. -/
def asJudged (o : Option (Hist F D)) : List (D × F × F) × Debounce Pace D :=
  ((o.getD (.new F D)).samples, (o.getD (.new F D)).deb)

variable (cfg) in
/-- **A track** is judged. -/
theorem seen_visit : (judge cfg).Seen look (eventOf cfg) (timed (visit (F := F) cfg)) asJudged none where
  start := rfl
  gone o a hlook := by
    cases a with
    | remove tid t => exact ⟨rfl, rfl⟩
    | observe m tr => cases hlook
  visited o a x hlook := by
    cases a with
    | remove tid t => cases hlook
    | observe m tr =>
      cases hlook
      have hkept : asJudged o = ((o.getD (.new F D)).samples, (o.getD (.new F D)).deb) := rfl
      rw [hkept, timed_eq, visit, observe, Judged.Judge.visit, judge]
      dsimp only
      cases speed cfg (push cfg (o.getD (.new F D)).samples m.tMonoS (place cfg m tr)) with
      | none => exact ⟨rfl, rfl⟩
      | some v =>
        rw [Option.map_some]
        dsimp only
        cases (o.getD (.new F D)).deb.step (paceOf cfg v) m.tMonoS cfg.holdS with
        | mk deb c => cases c <;> exact ⟨rfl, rfl⟩

/-- Numbers that differences go up and down with. All exact ones are such, and so
are doubles but NaN and the infinities. -/
structure Monotone (K : Type) [Num K] : Prop where
  refl : ∀ x : K, x ≤ x
  sub_le_sub : ∀ x x' y y' : K, x ≤ x' → y' ≤ y → x - y ≤ x' - y'
  lt_of_lt_of_le : ∀ x y z : K, x < y → y ≤ z → x < z

theorem monotone_rat : Monotone ℚ where
  refl := fun x => le_refl x
  sub_le_sub := fun _ _ _ _ h h' => sub_le_sub h h'
  lt_of_lt_of_le := fun _ _ _ h h' => lt_of_lt_of_le h h'

/-- **The window** holds what is not older than it of all the sights since the last removal. -/
theorem left_eq (hD : Monotone D) (htimes : (xs ++ [x]).Pairwise fun x y => x.1.tMonoS ≤ y.1.tMonoS) :
    (judge cfg).left (xs ++ [x]) = ((xs ++ [x]).map (sample cfg)).filter (!old cfg x.1.tMonoS ·) := by
  have hslide : (judge cfg).left (xs ++ [x]) = slide (sample cfg) (fun x => old cfg x.1.tMonoS) (xs ++ [x]) := rfl
  rw [hslide]
  refine slide_eq (R := fun x y => x.1.tMonoS ≤ y.1.tMonoS) (fun x a b hab hold => ?_) (fun x y a hxy hold => ?_) htimes
  · have hsub := hD.sub_le_sub x.1.tMonoS x.1.tMonoS _ _ (hD.refl _) hab
    exact decide_eq_true (hD.lt_of_lt_of_le _ _ _ (of_decide_eq_true hold) hsub)
  · have hsub := hD.sub_le_sub _ _ a.1 a.1 hxy (hD.refl _)
    exact decide_eq_true (hD.lt_of_lt_of_le _ _ _ (of_decide_eq_true hold) hsub)

omit [Num F] [Casts F D] [Root D] in
/-- The sights of a track since it was last removed are in the order of their times. -/
theorem life_times (h : (before ++ Act.observe m tr :: more).Pairwise fun a b => a.time ≤ b.time) :
    (life before ++ [(m, tr)]).Pairwise fun x y => x.1.tMonoS ≤ y.1.tMonoS := by
  have hlife : life before ++ [(m, tr)] <:+ (before ++ [Act.observe m tr]).filterMap look := by
    have hsnoc : life (before ++ [Act.observe m tr]) = life before ++ [(m, tr)] := Judged.Judge.life_some rfl
    rw [← hsnoc]
    exact Judged.Judge.life_suffix look _
  have hinit : (before ++ [Act.observe m tr]).Pairwise fun a b => a.time ≤ b.time := by
    rw [List.append_cons] at h
    exact (List.pairwise_append.mp h).1
  refine List.Pairwise.sublist hlife.sublist (List.pairwise_filterMap.mpr (hinit.imp ?_))
  intro a b hab x hx y hy
  cases a with
  | remove tid t => cases hx
  | observe m tr => cases b with
    | remove tid t => cases hy
    | observe m' tr' =>
      cases hx
      cases hy
      exact hab

end

/-- Two frame heights a second, against a limit of one, for a second. -/
example :
    let cfg : Cfg ℚ := { windowS := 1, maxSpeed := some 1, minSpeed := none, holdS := 1, anchor := "center", homography := none, classes := [] }
    let frames := [frameAt 0 [trackAt 7 0 0 0], frameAt 1 [trackAt 7 1 2 0], frameAt 2 [trackAt 7 2 4 0]]
    (logOf cfg 7 frames).map (fun x => (x.1, x.2.pace)) = [(2, .above)] := by
  decide +kernel

end RetailVision.Vb.SpeedAnalyzer
