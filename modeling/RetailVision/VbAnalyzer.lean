/-
What an analyzer is told between two configurations (`vb/analyzer.h`), and the
loops that line_cross and zone have in common: over the tracks of a frame whose
class is listed, and for each over the lines or zones, which have nothing to do
with each other. So each line or zone is a machine of its own, that is told of
the tracks one by one (`run_at`).

Of a frame only the time and the geometry are used. An event goes out with the
number of its line or zone.
-/
import RetailVision.VbTracker
import RetailVision.Lib.Machines

set_option linter.all false

namespace RetailVision.Vb

open Lib (after numbered toldBy after_cons after_append after_numbered)

structure FrameMeta (F D : Type) where
  tMonoS : D
  geom : LetterboxGeom F

inductive AnalyzerCall (F D : Type)
  | onFrame (m : FrameMeta F D) (tracks : List (Track F D))
  | onTrackRemoved (tid : UInt32) (t : D)

/-- The calls, a track at a time. -/
inductive Act (F D : Type)
  | observe (m : FrameMeta F D) (tr : Track F D)
  | remove (tid : UInt32) (t : D)

variable {F D κ σ ε : Type}

def AnalyzerCall.time : AnalyzerCall F D → D
  | .onFrame m _ => m.tMonoS
  | .onTrackRemoved _ t => t

def Act.tid : Act F D → UInt32
  | .observe _ tr => tr.trackId
  | .remove tid _ => tid

def Act.time : Act F D → D
  | .observe m _ => m.tMonoS
  | .remove _ t => t

namespace Loops

/-- `class_ok` -/
def classOk (classes : List Int) (cid : Int32) : Bool := classes.isEmpty || cid.toInt ∈ classes

/-- What the calls tell each line or zone. -/
def acts (classes : List Int) : List (AnalyzerCall F D) → List (Act F D)
  | [] => []
  | .onFrame m tracks :: calls =>
    (tracks.filter fun tr => classOk classes tr.det.classId).map (.observe m ·) ++ acts classes calls
  | .onTrackRemoved tid t :: calls => .remove tid t :: acts classes calls

variable (classes : List Int) (next : κ → σ → Act F D → σ × List ε) (ks : List κ)

/-- The body of the loop over the tracks of a frame. -/
def observe (m : FrameMeta F D) (x : List σ × List (Nat × ε)) (tr : Track F D) : List σ × List (Nat × ε) :=
  if classOk classes tr.det.classId then
    let (st, out) := numbered next ks x.1 (.observe m tr)
    (st, x.2 ++ out)
  else x

/-- `on_frame`, on what is kept and `out`. -/
def onFrame (m : FrameMeta F D) (tracks : List (Track F D)) (x : List σ × List (Nat × ε)) : List σ × List (Nat × ε) :=
  tracks.foldl (observe classes next ks m) x

/-- `on_track_removed` -/
def onTrackRemoved (tid : UInt32) (t : D) (x : List σ × List (Nat × ε)) : List σ × List (Nat × ε) :=
  let (st, out) := numbered next ks x.1 (.remove tid t)
  (st, x.2 ++ out)

/-- The calls in order, with the events there have been. -/
def run (x : List σ × List (Nat × ε)) : List (AnalyzerCall F D) → List σ × List (Nat × ε)
  | [] => x
  | .onFrame m tracks :: calls => run (onFrame classes next ks m tracks x) calls
  | .onTrackRemoved tid t :: calls => run (onTrackRemoved next ks tid t x) calls

variable {classes next ks} {m : FrameMeta F D} {tracks : List (Track F D)} {x : List σ × List (Nat × ε)}
  {calls more : List (AnalyzerCall F D)} {i : Nat} {k : κ} {s : σ}

theorem onFrame_eq : onFrame classes next ks m tracks x =
    after (numbered next ks) x ((tracks.filter fun tr => classOk classes tr.det.classId).map (.observe m ·)) := by
  induction tracks generalizing x with
  | nil => rfl
  | cons tr tracks ih =>
    have hcons : onFrame classes next ks m (tr :: tracks) x = onFrame classes next ks m tracks (observe classes next ks m x tr) := rfl
    rw [hcons, ih]
    cases hok : classOk classes tr.det.classId with
    | false => rw [List.filter_cons_of_neg (by simp [hok]), observe, if_neg (by simp [hok])]
    | true => rw [List.filter_cons_of_pos (by exact hok), List.map_cons, after_cons, observe, if_pos hok]

theorem run_eq : run classes next ks x calls = after (numbered next ks) x (acts classes calls) := by
  induction calls generalizing x with
  | nil => rfl
  | cons c calls ih =>
    cases c with
    | onFrame m tracks => rw [run, ih, acts, after_append, onFrame_eq]
    | onTrackRemoved tid t =>
      rw [run, ih, acts, after_cons]
      rfl

/-- **A line or zone is a machine of its own**: what is kept for it, and its
events, come of what it is told and of nothing else. -/
theorem run_at (calls : List (AnalyzerCall F D)) (hk : ks[i]? = some k) (hs : x.1[i]? = some s) :
    (run classes next ks x calls).1[i]? = some (after (next k) (s, toldBy i x.2) (acts classes calls)).1 ∧
      toldBy i (run classes next ks x calls).2 = (after (next k) (s, toldBy i x.2) (acts classes calls)).2 := by
  rw [run_eq]
  exact after_numbered next x (acts classes calls) hk hs

theorem acts_append {classes : List Int} {calls more : List (AnalyzerCall F D)} :
    acts classes (calls ++ more) = acts classes calls ++ acts classes more := by
  induction calls with
  | nil => rfl
  | cons c calls ih =>
    cases c with
    | onFrame m tracks => simp only [List.cons_append, acts, ih, List.append_assoc]
    | onTrackRemoved tid t => simp only [List.cons_append, acts, ih]

theorem time_of_acts {classes : List Int} {calls : List (AnalyzerCall F D)} {a : Act F D} (ha : a ∈ acts classes calls) :
    a.time ∈ calls.map AnalyzerCall.time := by
  induction calls with
  | nil => cases ha
  | cons c calls ih =>
    cases c with
    | onFrame m tracks =>
      obtain ha | ha := List.mem_append.mp ha
      · obtain ⟨tr, -, rfl⟩ := List.mem_map.mp ha
        exact List.mem_cons_self
      · exact List.mem_cons_of_mem _ (ih ha)
    | onTrackRemoved tid t =>
      obtain rfl | ha := List.mem_cons.mp ha
      · exact List.mem_cons_self
      · exact List.mem_cons_of_mem _ (ih ha)

/-- What is told is told in the order of the calls. -/
theorem acts_times {classes : List Int} {R : D → D → Prop} (hrefl : ∀ t, R t t) {calls : List (AnalyzerCall F D)}
    (htimes : (calls.map AnalyzerCall.time).Pairwise R) : (acts classes calls).Pairwise fun a b => R a.time b.time := by
  induction calls with
  | nil => exact List.Pairwise.nil
  | cons c calls ih =>
    rw [List.map_cons, List.pairwise_cons] at htimes
    obtain ⟨hfirst, hrest⟩ := htimes
    cases c with
    | onFrame m tracks =>
      refine List.pairwise_append.mpr ⟨?_, ih hrest, fun a ha b hb => ?_⟩
      · refine List.pairwise_map.mpr (List.pairwise_of_forall fun tr tr' => ?_)
        exact hrefl m.tMonoS
      · obtain ⟨tr, -, rfl⟩ := List.mem_map.mp ha
        exact hfirst _ (time_of_acts hb)
    | onTrackRemoved tid t => exact List.pairwise_cons.mpr ⟨fun b hb => hfirst _ (time_of_acts hb), ih hrest⟩

end Loops

/-! ## Tracks to try an analyzer on -/

/-- What goes with a frame whose coordinates are those of the source. -/
def frameMeta (t : ℚ) : FrameMeta ℚ ℚ where
  tMonoS := t
  geom := { srcW := 1, srcH := 1, modelW := 1, modelH := 1, scale := 1, padX := 0, padY := 0, align := .center }

/-- A track that is at this point. -/
def trackAt (tid : UInt32) (t x y : ℚ) : Track ℚ ℚ where
  trackId := tid
  det := { cx := x, cy := y, w := 0, h := 0, score := 0.9, classId := 0, trackId := tid, kptOffset := 0, kptCount := 0 }
  kpts := []
  vx := 0
  vy := 0
  hits := 1
  misses := 0
  firstSeenS := 0
  lastSeenS := t

@[simp] theorem frameMeta_tMonoS (t : ℚ) : (frameMeta t).tMonoS = t := rfl
@[simp] theorem trackAt_trackId (tid : UInt32) (t x y : ℚ) : (trackAt tid t x y).trackId = tid := rfl

/-- A frame with these tracks. -/
def frameAt (t : ℚ) (tracks : List (Track ℚ ℚ)) : AnalyzerCall ℚ ℚ := .onFrame (frameMeta t) tracks

end RetailVision.Vb
