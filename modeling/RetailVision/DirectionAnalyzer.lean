/-
The direction analyzer (`core-cpp/vb/src/analyzers/direction.cpp`) between two
configurations. Its events for a track come of a debouncer, whose transitions
never repeat a state; so `wrong_way` and `wrong_way_end` take turns
(`debounce_lawful`).
-/
import RetailVision.Debounce
import RetailVision.MotionUtil

set_option linter.all false

namespace RetailVision.Vb.DirectionAnalyzer

open Lib (after after_snoc toldOf)
open RetailVision.Analyzers (Zone)
open Motion (Root anchorPoint toH zoneOf visits timed run_visits visits_removed)

/-- The rest of `<cmath>` that is used. -/
class Trig (K : Type) extends Root K where
  fmod : K → K → K
  atan2 : K → K → K
  pi : K

/-- `Cfg` -/
structure Cfg (F D : Type) where
  expectedDeg : F
  toleranceDeg : F
  minTravel : F
  windowS : D
  holdS : D
  zones : List (Zone F)
  anchor : String
  classes : List Int

/-- A raw value. -/
inductive Way
  | ok
  | wrong
  deriving DecidableEq

instance : Inhabited Way := ⟨.ok⟩

structure Hist (F D : Type) where
  /-- `ts` and `pts`, which go together -/
  samples : List (D × F × F)
  deb : Debounce Way D
  wrong : Bool
  since : D

inductive Event (F D : Type)
  | wrongWay (angleDeg : D) (expectedDeg : F) (diffDeg travel : D) (zoneId : String) (classId : Int32) (score : F)
  | wrongWayEnd (durationS : D)

inductive EventType
  | wrongWay
  | wrongWayEnd
  deriving DecidableEq

variable {F D : Type}

def Event.type : Event F D → EventType
  | wrongWay .. => .wrongWay
  | wrongWayEnd _ => .wrongWayEnd

@[simp] theorem type_wrongWayEnd (d : D) : (Event.wrongWayEnd d : Event F D).type = .wrongWayEnd := rfl

section

variable [Num D]

def Hist.new (F D : Type) [Num D] : Hist F D where
  samples := []
  deb := .new .ok
  wrong := false
  since := 0.0

/-- `std::fabs`, but for the sign of zero. -/
def fabs (x : D) : D := if x < 0.0 then -x else x

def wrapDeg [Trig D] (a : D) : D :=
  let a := Trig.fmod a 360.0
  if a < 0.0 then a + 360.0 else a

def angDiff (a b : D) : D :=
  let d := fabs (a - b)
  if d > 180.0 then 360.0 - d else d

/-- The samples that are not older than the window. -/
def Hist.push (cfg : Cfg F D) (now : D) (p : F × F) (h : Hist F D) : Hist F D :=
  { h with samples := (h.samples ++ [(now, p)]).dropWhile fun sample => decide (now - sample.1 > cfg.windowS) }

variable [Num F] [Casts F D] [Trig D] (cfg : Cfg F D)

/-- How far a track has moved, and with what angle; nothing where the samples
are too few, or the track hardly moves. -/
def Hist.movement (h : Hist F D) : Option (D × D) :=
  match h.samples.head?, h.samples.getLast? with
  | some front, some back =>
    if h.samples.length < 2 then none
    else if back.1 - front.1 < 0.5 * cfg.windowS then none
    else
      let vx : D := Casts.toDouble back.2.1 - Casts.toDouble front.2.1
      let vy : D := Casts.toDouble back.2.2 - Casts.toDouble front.2.2
      let travel := Root.sqrt (vx * vx + vy * vy)
      if travel < Casts.toDouble cfg.minTravel then none
      else some (travel, wrapDeg (Trig.atan2 vy vx * 180.0 / Trig.pi))
  | _, _ => none

/-- `diff` and `raw` of an angle. -/
def judge (ang : D) : D × Way :=
  let diff := angDiff ang (Casts.toDouble cfg.expectedDeg)
  (diff, if diff > Casts.toDouble cfg.toleranceDeg then .wrong else .ok)

/-- A movement is judged, and told of where the debouncer commits. -/
def Hist.judged (h : Hist F D) (now travel ang : D) (zoneId : String) (tr : Track F D) : Hist F D × List (Event F D) :=
  let (diff, raw) := judge cfg ang
  match h.deb.step raw now cfg.holdS with
  | (deb, none) => ({ h with deb }, [])
  | (deb, some (_, .wrong)) =>
    ({ h with deb, wrong := true, since := now },
      [.wrongWay ang cfg.expectedDeg diff travel zoneId tr.det.classId tr.det.score])
  | (deb, some (_, .ok)) => ({ h with deb, wrong := false }, [.wrongWayEnd (now - h.since)])

/-- `zid` -/
def zoneIdOf (p : F × F) : String := if cfg.zones.isEmpty then "" else zoneOf cfg.zones p

/-- The body of the loop of `on_frame`, for a track that is processed. -/
def observe (o : Option (Hist F D)) (m : FrameMeta F D) (tr : Track F D) : Option (Hist F D) × List (Event F D) :=
  let p := anchorPoint tr m.geom cfg.anchor
  let zid := zoneIdOf cfg p
  if ¬ cfg.zones.isEmpty ∧ zid = "" then (o, [])
  else
    let h := (o.getD (.new F D)).push cfg m.tMonoS (toH m.geom p)
    match h.movement cfg with
    | none => (some h, [])
    | some (travel, ang) =>
      let (h, evs) := h.judged cfg m.tMonoS travel ang zid tr
      (some h, evs)

/-- `on_track_removed` -/
def remove (o : Option (Hist F D)) (t : D) : Option (Hist F D) × List (Event F D) :=
  match o with
  | none => (none, [])
  | some h => (none, if h.wrong then [.wrongWayEnd (t - h.since)] else [])

/-- One track. -/
def visit (o : Option (Hist F D)) : Act F D → Option (Hist F D) × List (Event F D)
  | .observe m tr => observe cfg o m tr
  | .remove _ t => remove o t

/-- The calls in order, from what `configure` leaves. -/
def run (calls : List (AnalyzerCall F D)) : Motion.Kept (Hist F D) D (Event F D) :=
  Motion.run cfg.classes (visit cfg) (Motion.start _ _ _) calls

/-- What has been told of a track, with the times. -/
def logOf (tid : UInt32) (calls : List (AnalyzerCall F D)) : List (D × Event F D) := toldOf tid (run cfg calls).2

end

/-! ## The events take turns -/

/-- The types of the events in a log. -/
def types (log : List (D × Event F D)) : List EventType := log.map (·.2.type)

/-- Every `wrong_way` has its end. -/
def Closed (log : List (D × Event F D)) : Prop := ∃ n, types log = (List.replicate n [.wrongWay, .wrongWayEnd]).flatten

/-- All but the last have. -/
def Opened (log : List (D × Event F D)) : Prop := ∃ init ev, log = init ++ [ev] ∧ Closed init ∧ ev.2.type = .wrongWay

def TakeTurns (log : List (D × Event F D)) : Prop := Closed log ∨ Opened log

theorem closed_nil : Closed ([] : List (D × Event F D)) := ⟨0, rfl⟩

theorem Opened.closed {log : List (D × Event F D)} (h : Opened log) (t d : D) : Closed (log ++ [(t, .wrongWayEnd d)]) := by
  obtain ⟨init, ev, rfl, ⟨n, hn⟩, hev⟩ := h
  refine ⟨n + 1, ?_⟩
  simp only [types] at hn
  simp [types, hn, hev, List.replicate_succ', List.flatten_append]

section

variable [Num D]

/-- What is kept of a track, against its log. -/
structure Inv (o : Option (Hist F D)) (log : List (D × Event F D)) : Prop where
  gone : o = none → Closed log
  ok : ∀ h, o = some h → h.wrong = false → h.deb.state = .ok ∧ Closed log
  wrong : ∀ h, o = some h → h.wrong = true → h.deb.state = .wrong ∧ Opened log

variable [Num F] [Casts F D] [Trig D] {cfg : Cfg F D} {h : Hist F D} {o : Option (Hist F D)} {log : List (D × Event F D)}

omit [Num F] [Casts F D] [Trig D] in
theorem inv_new : Inv (some (Hist.new F D)) ([] : List (D × Event F D)) where
  gone := by simp
  ok := fun h hh _ => by
    cases hh
    exact ⟨rfl, closed_nil⟩
  wrong := fun h hh hw => by
    cases hh
    cases hw

omit [Num F] [Casts F D] [Trig D] in
/-- A track that is new, or has been removed, starts anew. -/
theorem Inv.getD (hi : Inv o log) : Inv (some (o.getD (.new F D))) log := by
  cases o with
  | some h => exact hi
  | none =>
    refine ⟨by simp, fun h hh _ => ?_, fun h hh hw => ?_⟩
    · cases hh
      exact ⟨rfl, hi.gone rfl⟩
    · cases hh
      cases hw

omit [Num D] [Num F] [Casts F D] [Trig D] in
/-- Only the debouncer's state and the flag matter. -/
theorem Inv.same (hi : Inv (some h) log) {h' : Hist F D} (hstate : h'.deb.state = h.deb.state) (hwrong : h'.wrong = h.wrong) :
    Inv (some h') log := by
  refine ⟨by simp, fun x hx hw => ?_, fun x hx hw => ?_⟩
  · cases hx
    rw [hstate]
    exact hi.ok h rfl (hwrong ▸ hw)
  · cases hx
    rw [hstate]
    exact hi.wrong h rfl (hwrong ▸ hw)

variable (cfg h) in
omit [Num F] [Trig D] in
/-- What a judged movement does: nothing but for the debouncer; or the track
goes the wrong way from now on; or it no longer does. -/
theorem judged_cases (now travel ang : D) (zoneId : String) (tr : Track F D) :
    let x := h.judged cfg now travel ang zoneId tr
    (x.2 = [] ∧ x.1.deb.state = h.deb.state ∧ x.1.wrong = h.wrong) ∨
      (h.deb.state = .ok ∧ x.1.deb.state = .wrong ∧ x.1.wrong = true ∧ ∃ ev, x.2 = [ev] ∧ ev.type = .wrongWay) ∨
      (h.deb.state = .wrong ∧ x.1.deb.state = .ok ∧ x.1.wrong = false ∧ ∃ d, x.2 = [.wrongWayEnd d]) := by
  intro x
  obtain ⟨raw, hraw⟩ : ∃ raw, raw = (judge cfg ang).2 := ⟨_, rfl⟩
  obtain ⟨step, hstep⟩ : ∃ step, step = h.deb.step raw now cfg.holdS := ⟨_, rfl⟩
  obtain ⟨deb, c⟩ := step
  have hx : x = match (deb, c) with
      | (deb, none) => ({ h with deb }, [])
      | (deb, some (_, .wrong)) => ({ h with deb, wrong := true, since := now },
          [.wrongWay ang cfg.expectedDeg (judge cfg ang).1 travel zoneId tr.det.classId tr.det.score])
      | (deb, some (_, .ok)) => ({ h with deb, wrong := false }, [.wrongWayEnd (now - h.since)]) := by
    rw [hstep, hraw]
    rfl
  cases c with
  | none =>
    have hnone : (h.deb.step raw now cfg.holdS).2 = none := by rw [← hstep]
    have hkeeps := Debounce.step_keeps hnone
    rw [← hstep] at hkeeps
    rw [hx]
    exact .inl ⟨rfl, hkeeps, rfl⟩
  | some c =>
    have hsome : (h.deb.step raw now cfg.holdS).2 = some c := by rw [← hstep]
    obtain ⟨rfl, hne, hstate⟩ := Debounce.step_commits hsome
    rw [← hstep] at hstate
    rw [hx]
    cases raw with
    | wrong =>
      have hok : h.deb.state = .ok := by
        cases hs : h.deb.state with
        | ok => rfl
        | wrong => exact absurd hs.symm hne
      exact .inr (.inl ⟨hok, hstate, rfl, _, rfl, rfl⟩)
    | ok =>
      have hwrong : h.deb.state = .wrong := by
        cases hs : h.deb.state with
        | ok => exact absurd hs.symm hne
        | wrong => rfl
      exact .inr (.inr ⟨hwrong, hstate, rfl, _, rfl⟩)

omit [Num F] [Trig D] in
theorem Inv.judged (hi : Inv (some h) log) (now travel ang : D) (zoneId : String) (tr : Track F D) :
    Inv (some (h.judged cfg now travel ang zoneId tr).1) (log ++ (h.judged cfg now travel ang zoneId tr).2.map (now, ·)) := by
  obtain ⟨hevs, hstate, hflag⟩ | ⟨hbefore, hstate, hflag, ev, hevs, htype⟩ | ⟨hbefore, hstate, hflag, d, hevs⟩ :=
    judged_cases cfg h now travel ang zoneId tr
  · rw [hevs]
    simpa using hi.same hstate hflag
  · rw [hevs]
    have hwas : h.wrong = false := by
      cases hw : h.wrong with
      | false => rfl
      | true => simp [(hi.wrong h rfl hw).1] at hbefore
    refine ⟨by simp, fun x hx hw => ?_, fun x hx _ => ?_⟩
    · cases hx
      simp [hflag] at hw
    · cases hx
      exact ⟨hstate, log, (now, ev), rfl, (hi.ok h rfl hwas).2, htype⟩
  · rw [hevs]
    have hwas : h.wrong = true := by
      cases hw : h.wrong with
      | true => rfl
      | false => simp [(hi.ok h rfl hw).1] at hbefore
    refine ⟨by simp, fun x hx _ => ?_, fun x hx hw => ?_⟩
    · cases hx
      exact ⟨hstate, (hi.wrong h rfl hwas).2.closed now d⟩
    · cases hx
      simp [hflag] at hw

theorem Inv.observe (hi : Inv o log) (m : FrameMeta F D) (tr : Track F D) :
    Inv (observe cfg o m tr).1 (log ++ (observe cfg o m tr).2.map (m.tMonoS, ·)) := by
  have hpush : ∀ p, Inv (some ((o.getD (.new F D)).push cfg m.tMonoS p)) log := fun p => hi.getD.same rfl rfl
  rw [DirectionAnalyzer.observe]
  dsimp only
  split
  · simpa using hi
  · split
    · simpa using hpush _
    · exact (hpush _).judged _ _ _ _ _

omit [Num F] [Casts F D] [Trig D] in
theorem Inv.remove (hi : Inv o log) (t : D) : (DirectionAnalyzer.remove o t).1 = none ∧
    Closed (log ++ (DirectionAnalyzer.remove o t).2.map (t, ·)) := by
  cases o with
  | none => exact ⟨rfl, by simpa [DirectionAnalyzer.remove] using hi.gone rfl⟩
  | some h =>
    refine ⟨rfl, ?_⟩
    cases hw : h.wrong with
    | false => simpa [DirectionAnalyzer.remove, hw] using (hi.ok h rfl hw).2
    | true => simpa [DirectionAnalyzer.remove, hw] using (hi.wrong h rfl hw).2.closed t (t - h.since)

/-- **One visit** keeps the flag in step with the log. -/
theorem Inv.visit (hi : Inv o log) (a : Act F D) : Inv (timed (visit cfg) o a).1 (log ++ (timed (visit cfg) o a).2) := by
  cases a with
  | observe m tr => exact hi.observe m tr
  | remove tid t =>
    obtain ⟨hgone, hclosed⟩ := hi.remove t
    refine ⟨fun _ => hclosed, fun h hh => ?_, fun h hh => ?_⟩
    · exact absurd (hgone.symm.trans hh) (by simp)
    · exact absurd (hgone.symm.trans hh) (by simp)

theorem inv_after (as : List (Act F D)) : Inv (after (timed (visit cfg)) (none, []) as).1 (after (timed (visit cfg)) (none, []) as).2 := by
  induction as using List.reverseRecOn with
  | nil => exact ⟨fun _ => closed_nil, by simp, by simp⟩
  | append_singleton as a ih =>
    rw [after_snoc]
    exact ih.visit a

omit [Num D] [Num F] [Casts F D] [Trig D] in
theorem Inv.takeTurns (hi : Inv o log) : TakeTurns log := by
  cases o with
  | none => exact .inl (hi.gone rfl)
  | some h =>
    cases hw : h.wrong with
    | false => exact .inl (hi.ok h rfl hw).2
    | true => exact .inr (hi.wrong h rfl hw).2

/-- **The debouncer** commits to `s` with the second or a later sample of a
block of samples `s` that its history ends with, once the first of them is
`hold` old; it never commits to the state it is in. So the `wrong_way` and
`wrong_way_end` of a track take turns, and once the track is removed every
`wrong_way` has its end. -/
theorem debounce_lawful {α : Type} [DecidableEq α] [Inhabited α] (initial : α) (hold : D) (samples : List (α × D)) (cfg : Cfg F D)
    (calls : List (AnalyzerCall F D)) (tid : UInt32) :
    (∀ before x more, samples = before ++ x :: more → ∀ s,
      let w := (Debounce.run hold initial before).1
      (∃ prev, (w.1.step x.1 x.2 hold).2 = some (prev, s)) ↔ s ≠ w.1.state ∧ Debounce.Held hold s (w.2 ++ [x]) x.2) ∧
      (initial :: (Debounce.run hold initial samples).2.map (·.2)).IsChain (· ≠ ·) ∧
      TakeTurns (logOf cfg tid calls) ∧ ((∃ init t, calls = init ++ [.onTrackRemoved tid t]) → Closed (logOf cfg tid calls)) := by
  refine ⟨fun before x more _ s => (Debounce.inv_run hold initial before).commits_iff x s,
    (Debounce.moves_run hold initial samples).1, ?_, fun hremoved => ?_⟩
  · rw [logOf, run, run_visits]
    exact (inv_after _).takeTurns
  · obtain ⟨init, t, rfl⟩ := hremoved
    rw [logOf, run, run_visits, visits_removed, after_snoc]
    exact ((inv_after _).remove t).2

end

end RetailVision.Vb.DirectionAnalyzer
