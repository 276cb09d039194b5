/-
What the motion analyzers share (`core-cpp/vb/src/analyzers/motion_util.*`,
`core-cpp/vb/src/geom2d.cpp`), and the loop that those of them have in common
that keep something for each track: over the tracks that are seen in the frame
and whose class is listed. What is kept of a track, and told of it, come of the
frames in which it was processed and of its removals (`run_visits`).
-/
import RetailVision.ZoneAnalyzer
import Mathlib.Data.Rat.Sqrt

set_option linter.all false

namespace RetailVision.Vb.Motion

open Lib (after keyed toldOf after_keyed after_cons after_append)
open RetailVision.Analyzers (Zone)

/-- `std::sqrt` -/
class Root (K : Type) where
  sqrt : K → K

/-- The square root where it is a rational number. -/
instance : Root ℚ where
  sqrt := Rat.sqrt

variable {F D σ ε : Type}

section

variable [Num F]

/-- `anchor_point` -/
def anchorPoint (tr : Track F D) (g : LetterboxGeom F) (anchor : String) : F × F :=
  if anchor = "center" then g.toSourceNorm tr.det.cx tr.det.cy else g.toSourceNorm tr.det.cx (tr.det.cy + tr.det.h * 0.5)

/-- `to_h` -/
def toH (g : LetterboxGeom F) (p : F × F) : F × F := (p.1 * (g.srcW : F) / (g.srcH : F), p.2)

/-- `point_in_polygon`, by the rule of the zone analyzer. -/
def pointInPolygon (p : F × F) (poly : List (F × F)) : Bool := ZoneAnalyzer.pointInPoly p poly

/-- `zone_of`: the id of the first zone that the point is in; empty where there is none. -/
def zoneOf (zones : List (Zone F)) (p : F × F) : String :=
  match zones.find? (pointInPolygon p ·.poly) with
  | some z => z.id
  | none => ""

end

/-! ## The tracks of a frame, one by one -/

/-- The tracks that are seen in the frame. -/
def seen : AnalyzerCall F D → AnalyzerCall F D
  | .onFrame m tracks => .onFrame m (tracks.filter (·.misses == 0))
  | .onTrackRemoved tid t => .onTrackRemoved tid t

/-- What the calls tell. -/
def acts (classes : List Int) (calls : List (AnalyzerCall F D)) : List (Act F D) := Loops.acts classes (calls.map seen)

/-- What the calls tell of a track: the frames in which it is processed, and its removals. -/
def visits (classes : List Int) (tid : UInt32) (calls : List (AnalyzerCall F D)) : List (Act F D) :=
  (acts classes calls).filter (Act.tid · = tid)

/-- What is kept, by track, and what has been told. A `std::map` from track ids is a function. -/
abbrev Kept (σ D ε : Type) := (UInt32 → Option σ) × List (UInt32 × D × ε)

section

variable (classes : List Int) (visit : Option σ → Act F D → Option σ × List ε)

/-- What a visit leads to, with its time. -/
def timed (o : Option σ) (a : Act F D) : Option σ × List (D × ε) :=
  let (o, evs) := visit o a
  (o, evs.map (a.time, ·))

/-- A visit of the track that `a` is about. -/
def tell (x : Kept σ D ε) (a : Act F D) : Kept σ D ε :=
  let (st, out) := keyed (fun _ => timed visit) Act.tid x.1 a
  (st, x.2 ++ out)

/-- The body of the loop over the tracks of a frame. -/
def observe (m : FrameMeta F D) (x : Kept σ D ε) (tr : Track F D) : Kept σ D ε :=
  if tr.misses ≠ 0 then x
  else if Loops.classOk classes tr.det.classId then tell visit x (.observe m tr)
  else x

/-- `on_frame`, on what is kept and `out`. -/
def onFrame (m : FrameMeta F D) (tracks : List (Track F D)) (x : Kept σ D ε) : Kept σ D ε :=
  tracks.foldl (observe classes visit m) x

/-- `on_track_removed` -/
def onTrackRemoved (tid : UInt32) (t : D) (x : Kept σ D ε) : Kept σ D ε := tell visit x (.remove tid t)

/-- The calls in order, with the events there have been. -/
def run (x : Kept σ D ε) : List (AnalyzerCall F D) → Kept σ D ε
  | [] => x
  | .onFrame m tracks :: calls => run (onFrame classes visit m tracks x) calls
  | .onTrackRemoved tid t :: calls => run (onTrackRemoved visit tid t x) calls

/-- What `configure` leaves. -/
def start (σ D ε : Type) : Kept σ D ε := (fun _ => none, [])

variable {classes visit} {m : FrameMeta F D} {tracks : List (Track F D)} {x : Kept σ D ε} {calls : List (AnalyzerCall F D)}

theorem timed_eq (o : Option σ) (a : Act F D) : timed visit o a = ((visit o a).1, (visit o a).2.map (a.time, ·)) := rfl

theorem onFrame_eq : onFrame classes visit m tracks x = after (keyed (fun _ => timed visit) Act.tid) x
    (((tracks.filter (·.misses == 0)).filter fun tr => Loops.classOk classes tr.det.classId).map (.observe m ·)) := by
  induction tracks generalizing x with
  | nil => rfl
  | cons tr tracks ih =>
    have hcons : onFrame classes visit m (tr :: tracks) x = onFrame classes visit m tracks (observe classes visit m x tr) := rfl
    rw [hcons, ih, observe]
    by_cases hseen : tr.misses = 0
    · by_cases hok : Loops.classOk classes tr.det.classId = true
      · simp only [hseen, hok, ne_eq, not_true_eq_false, if_false, if_true, List.filter_cons, beq_self_eq_true, List.map_cons, after_cons]
        rfl
      · simp [hseen, hok]
    · simp [hseen]

theorem run_eq : run classes visit x calls = after (keyed (fun _ => timed visit) Act.tid) x (acts classes calls) := by
  induction calls generalizing x with
  | nil => rfl
  | cons c calls ih =>
    cases c with
    | onFrame m tracks =>
      rw [run, ih, onFrame_eq, ← after_append]
      rfl
    | onTrackRemoved tid t =>
      rw [run, ih]
      rfl

/-- **A track is a machine of its own.** -/
theorem run_visits (tid : UInt32) (calls : List (AnalyzerCall F D)) :
    toldOf tid (run classes visit (start σ D ε) calls).2 = (after (timed visit) (none, []) (visits classes tid calls)).2 := by
  rw [run_eq]
  exact (after_keyed (fun _ => timed visit) Act.tid tid _ _).2

end

variable {classes : List Int} {calls : List (AnalyzerCall F D)}

theorem visits_removed (tid : UInt32) (t : D) : visits classes tid (calls ++ [.onTrackRemoved tid t]) =
    visits classes tid calls ++ [.remove tid t] := by
  simp [visits, acts, Loops.acts_append, Loops.acts, seen, Act.tid]

theorem visits_append (tid : UInt32) (more : List (AnalyzerCall F D)) :
    visits classes tid (calls ++ more) = visits classes tid calls ++ visits classes tid more := by
  simp [visits, acts, Loops.acts_append]

/-- What there is to look at in a visit; nothing in a removal. -/
def look : Act F D → Option (FrameMeta F D × Track F D)
  | .observe m tr => some (m, tr)
  | .remove .. => none

/-- Where a track is not removed, there is something to look at. -/
theorem look_visits {tid : UInt32} (h : ∀ t, .onTrackRemoved tid t ∉ calls) : ∀ a ∈ visits classes tid calls, (look a).isSome := by
  intro a ha
  obtain ⟨hin, htid⟩ := List.mem_filter.mp ha
  have hremoved : ∀ (calls : List (AnalyzerCall F D)) (t : D), Act.remove tid t ∈ acts classes calls → .onTrackRemoved tid t ∈ calls := by
    intro calls t hmem
    induction calls with
    | nil => cases hmem
    | cons c calls ih =>
      cases c with
      | onFrame m tracks =>
        obtain hmem | hmem := List.mem_append.mp hmem
        · obtain ⟨tr, -, heq⟩ := List.mem_map.mp hmem
          cases heq
        · exact List.mem_cons_of_mem _ (ih hmem)
      | onTrackRemoved tid' t' =>
        obtain heq | hmem := List.mem_cons.mp hmem
        · cases heq
          exact List.mem_cons_self
        · exact List.mem_cons_of_mem _ (ih hmem)
  cases a with
  | observe m tr => rfl
  | remove tid' t =>
    obtain rfl : tid' = tid := of_decide_eq_true htid
    exact absurd (hremoved calls t hin) (h t)

theorem time_seen (c : AnalyzerCall F D) : (seen c).time = c.time := by
  cases c <;> rfl

/-- The times of the visits are those of the calls. -/
theorem times_visits {R : D → D → Prop} (hrefl : ∀ t, R t t) (htimes : (calls.map AnalyzerCall.time).Pairwise R) (tid : UInt32) :
    (visits classes tid calls).Pairwise fun a b => R a.time b.time := by
  have hseen : ((calls.map seen).map AnalyzerCall.time) = calls.map AnalyzerCall.time := by
    rw [List.map_map]
    exact List.map_congr_left fun c _ => time_seen c
  exact List.Pairwise.filter _ (Loops.acts_times hrefl (hseen ▸ htimes))

end RetailVision.Vb.Motion
