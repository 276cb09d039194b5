/-
The pose_angle analyzer (`core-cpp/vb/src/analyzers/pose_angle.cpp`) between two
configurations. It keeps a debouncer for each joint of each track, by the id of
the joint. So what it tells of a joint is settled by the sights of that joint in
which its keypoints are there and sure enough, since the track was last removed;
other joints and other tracks are of no concern (`pose_angle_lawful`).
-/
import RetailVision.Judged
import RetailVision.MotionUtil

set_option linter.all false

namespace RetailVision.Vb.PoseAngleAnalyzer

open Lib (after after_nil after_snoc after_append after_out toldOf Along)
open Motion (Root visits visits_append timed timed_eq run_visits visits_removed look)

/-- The rest of `<cmath>` that is used. -/
class Arc (K : Type) extends Root K where
  acos : K → K
  pi : K

/-- `Joint`, with the limits that it has. -/
structure Joint (D : Type) where
  id : String
  a : Nat
  b : Nat
  c : Nat
  minDeg : Option D
  maxDeg : Option D

/-- `Cfg` -/
structure Cfg (D : Type) where
  joints : List (Joint D)
  minConf : D
  holdS : D
  classes : List Int

/-- A raw value. -/
inductive Side
  | within
  | out
  deriving DecidableEq

instance : Inhabited Side := ⟨.within⟩

inductive Event (F D : Type)
  | angleOut (jointId : String) (angleDeg : D) (minDeg maxDeg : Option D) (classId : Int32) (score : F)
  | angleIn (jointId : String) (angleDeg : D)

variable {F D : Type}

def Event.side : Event F D → Side
  | angleOut .. => .out
  | angleIn .. => .within

def Event.jointId : Event F D → String
  | angleOut jointId .. => jointId
  | angleIn jointId _ => jointId

/-- `deb_`, as far as it is of one track. -/
abbrev Debouncers (D : Type) := String → Option (Debounce Side D)

/-- A joint of a track in a frame. -/
abbrev Sight (F D : Type) := FrameMeta F D × Track F D × Joint D

section

variable [Num D] [Num F] [Casts F D] [Arc D] (cfg : Cfg D)

/-- A keypoint in pixels of the source. -/
def pixel (g : LetterboxGeom F) (k : Keypoint F) : D × D :=
  let s := g.toSourceNorm k.x k.y
  (Casts.toDouble (s.1 * (g.srcW : F)), Casts.toDouble (s.2 * (g.srcH : F)))

/-- `ang`; nothing where a keypoint is missing or unsure, or two of them are in one place. -/
def angle (x : Sight F D) : Option D :=
  match x.2.1.kpts[x.2.2.a]?, x.2.1.kpts[x.2.2.b]?, x.2.1.kpts[x.2.2.c]? with
  | some A, some B, some C =>
    if Casts.toDouble A.conf < cfg.minConf ∨ Casts.toDouble B.conf < cfg.minConf ∨ Casts.toDouble C.conf < cfg.minConf then none
    else
      let a : D × D := pixel x.1.geom A
      let b : D × D := pixel x.1.geom B
      let c : D × D := pixel x.1.geom C
      let v1 := (a.1 - b.1, a.2 - b.2)
      let v2 := (c.1 - b.1, c.2 - b.2)
      let l1 := Root.sqrt (v1.1 * v1.1 + v1.2 * v1.2)
      let l2 := Root.sqrt (v2.1 * v2.1 + v2.2 * v2.2)
      if l1 < 1e-6 ∨ l2 < 1e-6 then none
      else
        let cosang := (v1.1 * v2.1 + v1.2 * v2.2) / (l1 * l2)
        let cosang := if cosang > 1.0 then 1.0 else cosang
        let cosang := if cosang < -1.0 then -1.0 else cosang
        some (Arc.acos cosang * 180.0 / Arc.pi)
  | _, _, _ => none

/-- `raw` -/
def sideOf (jt : Joint D) (ang : D) : Side :=
  if jt.minDeg.any (fun limit => decide (ang < limit)) ∨ jt.maxDeg.any (fun limit => decide (ang > limit)) then .out else .within

/-- The event of a transition to this side. -/
def event (x : Sight F D) (ang : D) : Side → Event F D
  | .out => .angleOut x.2.2.id ang x.2.2.minDeg x.2.2.maxDeg x.2.1.det.classId x.2.1.det.score
  | .within => .angleIn x.2.2.id ang

/-- The body of the loop over the joints. -/
def observeJoint (m : FrameMeta F D) (tr : Track F D) (s : Debouncers D × List (Event F D)) (jt : Joint D) : Debouncers D × List (Event F D) :=
  match angle cfg (m, tr, jt) with
  | none => s
  | some ang => match ((s.1 jt.id).getD (.new .within)).step (sideOf jt ang) m.tMonoS cfg.holdS with
    | (d, none) => (Function.update s.1 jt.id (some d), s.2)
    | (d, some (_, next)) => (Function.update s.1 jt.id (some d), s.2 ++ [event (m, tr, jt) ang next])

/-- One track. A removal erases its debouncers, and tells nothing. -/
def visit (o : Option (Debouncers D)) : Act F D → Option (Debouncers D) × List (Event F D)
  | .observe m tr =>
    let (ds, out) := cfg.joints.foldl (observeJoint cfg m tr) (o.getD fun _ => none, [])
    (some ds, out)
  | .remove .. => (none, [])

/-- The calls in order, from what `configure` leaves. -/
def run (calls : List (AnalyzerCall F D)) : Motion.Kept (Debouncers D) D (Event F D) :=
  Motion.run cfg.classes (visit cfg) (Motion.start _ _ _) calls

/-- What has been told of a joint of a track, with the times. -/
def logOf (tid : UInt32) (jointId : String) (calls : List (AnalyzerCall F D)) : List (D × Event F D) :=
  (toldOf tid (run cfg calls).2).filter (·.2.jointId = jointId)

/-! ## What it judges -/

def judge : Judged.Judge Unit (Sight F D) Side (D × Sight F D) D where
  start := ()
  initial := .within
  hold := cfg.holdS
  time x := x.1.tMonoS
  look _ x := ((), (angle cfg x).map fun ang => (sideOf x.2.2 ang, ang, x))

def eventOf (side : Side) (info : D × Sight F D) : Event F D := event info.2 info.1 side

/-- What a visit shows of the joints: each of them in its turn; of a removal nothing. -/
def sights (a : Act F D) : List (Option (Sight F D)) :=
  match look a with
  | none => [none]
  | some (m, tr) => cfg.joints.map fun jt => some (m, tr, jt)

/-- The sights of a joint of a track, and the removals. -/
def sightsOf (tid : UInt32) (jointId : String) (calls : List (AnalyzerCall F D)) : List (Option (Sight F D)) :=
  ((visits cfg.classes tid calls).flatMap (sights cfg)).filter (·.all fun x => x.2.2.id = jointId)

/-- One joint. -/
def visitJoint (o : Option (Debounce Side D)) : Option (Sight F D) → Option (Debounce Side D) × List (D × Event F D)
  | none => (none, [])
  | some x => match angle cfg x with
    | none => (o, [])
    | some ang => match (o.getD (.new .within)).step (sideOf x.2.2 ang) x.1.tMonoS cfg.holdS with
      | (d, none) => (some d, [])
      | (d, some (_, next)) => (some d, [(x.1.tMonoS, event x ang next)])

/-- The joints of a track, one after the other. -/
def visitJoints (ds : Debouncers D) : Option (Sight F D) → Debouncers D × List (D × Event F D)
  | none => (fun _ => none, [])
  | some x => (Function.update ds x.2.2.id (visitJoint cfg (ds x.2.2.id) (some x)).1, (visitJoint cfg (ds x.2.2.id) (some x)).2)

variable {cfg} {x : Sight F D} {ang : D} {side : Side} {m : FrameMeta F D} {tr : Track F D} {o : Option (Debounce Side D)}
  {jointId : String}

omit [Num D] [Num F] [Casts F D] [Arc D] in
@[simp] theorem side_event : (event x ang side).side = side := by
  cases side <;> rfl

omit [Num D] [Num F] [Casts F D] [Arc D] in
@[simp] theorem jointId_event : (event x ang side).jointId = x.2.2.id := by
  cases side <;> rfl

/-! ## Joint by joint -/

variable (cfg) in
/-- The loop over the joints is the joints one after the other. -/
theorem foldl_joints (m : FrameMeta F D) (tr : Track F D) (joints : List (Joint D)) (ds : Debouncers D) (out : List (Event F D)) :
    let looped := joints.foldl (observeJoint cfg m tr) (ds, out)
    (looped.1, looped.2.map (m.tMonoS, ·)) =
      after (visitJoints cfg) (ds, out.map (m.tMonoS, ·)) (joints.map fun jt => some (m, tr, jt)) := by
  induction joints generalizing ds out with
  | nil => rfl
  | cons jt joints ih =>
    have hjoint : ((observeJoint cfg m tr (ds, out) jt).1, (observeJoint cfg m tr (ds, out) jt).2.map (m.tMonoS, ·)) =
        ((visitJoints cfg ds (some (m, tr, jt))).1, out.map (m.tMonoS, ·) ++ (visitJoints cfg ds (some (m, tr, jt))).2) := by
      rw [observeJoint, visitJoints, visitJoint]
      cases angle cfg (m, tr, jt) with
      | none => simp [Function.update_eq_self]
      | some ang =>
        dsimp only
        cases ((ds jt.id).getD (.new .within)).step (sideOf jt ang) m.tMonoS cfg.holdS with
        | mk d c => cases c <;> simp
    obtain ⟨hds, hout⟩ := Prod.mk.inj hjoint
    intro looped
    rw [List.map_cons, Lib.after_cons, ← hds, ← hout]
    exact ih _ _

variable (cfg) in
/-- **A track** is its joints, one after the other. -/
theorem after_sights (as : List (Act F D)) :
    let kept := after (timed (visit cfg)) (none, []) as
    (kept.1.getD fun _ => none, kept.2) = after (visitJoints cfg) (fun _ => none, []) (as.flatMap (sights cfg)) := by
  intro kept
  have hkept : kept = after (timed (visit cfg)) (none, []) as := rfl
  clear_value kept
  subst hkept
  induction as using List.reverseRecOn with
  | nil => rfl
  | append_singleton as a ih =>
    rw [after_snoc, List.flatMap_append, after_append, ← ih]
    generalize after (timed (visit cfg)) (none, []) as = kept
    obtain ⟨o, log⟩ := kept
    cases a with
    | remove tid t => rfl
    | observe m tr =>
      have hloop := foldl_joints cfg m tr cfg.joints (o.getD fun _ => none) []
      rw [List.map_nil] at hloop
      have hsights : [Act.observe m tr].flatMap (sights cfg) = cfg.joints.map fun jt => some (m, tr, jt) := by simp [sights, look]
      dsimp only at hloop ⊢
      rw [hsights, after_out, ← hloop]
      rfl

theorem jointId_visitJoint {ev : D × Event F D} (h : ev ∈ (visitJoint cfg o (some x)).2) : ev.2.jointId = x.2.2.id := by
  rw [visitJoint] at h
  cases hangle : angle cfg x with
  | none => simp [hangle] at h
  | some ang =>
    rw [hangle] at h
    dsimp only at h
    cases hstep : (o.getD (.new .within)).step (sideOf x.2.2 ang) x.1.tMonoS cfg.holdS with
    | mk d c =>
      rw [hstep] at h
      cases c with
      | none => cases h
      | some c =>
        cases List.mem_singleton.mp h
        exact jointId_event

variable (cfg jointId) in
/-- **A joint is a machine of its own.** -/
theorem after_joint (ls : List (Option (Sight F D))) :
    let mine := ls.filter (·.all fun x => x.2.2.id = jointId)
    (after (visitJoints cfg) (fun _ => none, []) ls).1 jointId = (after (visitJoint cfg) (none, []) mine).1 ∧
      (after (visitJoints cfg) (fun _ => none, []) ls).2.filter (·.2.jointId = jointId) = (after (visitJoint cfg) (none, []) mine).2 := by
  intro mine
  have hmine : mine = ls.filter (·.all fun x => x.2.2.id = jointId) := rfl
  clear_value mine
  subst hmine
  induction ls using List.reverseRecOn with
  | nil => exact ⟨rfl, rfl⟩
  | append_singleton ls l ih =>
    obtain ⟨hstate, hout⟩ := ih
    rw [after_snoc, List.filter_append]
    cases l with
    | none =>
      rw [List.filter_cons_of_pos rfl, List.filter_nil, after_snoc]
      exact ⟨rfl, by simpa [visitJoints, visitJoint] using hout⟩
    | some x =>
      by_cases hid : x.2.2.id = jointId
      · subst hid
        rw [List.filter_cons_of_pos (by simp), List.filter_nil, after_snoc, ← hstate, ← hout, List.filter_append]
        refine ⟨by simp [visitJoints], congrArg _ (List.filter_eq_self.mpr fun ev hev => ?_)⟩
        exact decide_eq_true (jointId_visitJoint hev)
      · rw [List.filter_cons_of_neg (by simpa using hid), List.filter_nil, List.append_nil, List.filter_append]
        have hnone : (visitJoints cfg (after (visitJoints cfg) (fun _ => none, []) ls).1 (some x)).2.filter
            (·.2.jointId = jointId) = [] := by
          refine List.filter_eq_nil_iff.mpr fun ev hev => ?_
          rw [jointId_visitJoint hev]
          simpa using hid
        rw [hnone, List.append_nil]
        exact ⟨(Function.update_of_ne (Ne.symm hid) _ _).trans hstate, hout⟩

variable (cfg) in
/-- **A joint** is judged. -/
theorem seen_joint : (judge cfg).Seen id (eventOf (F := F)) (visitJoint cfg) (fun o => ((), o.getD (.new .within))) none where
  start := rfl
  gone o l hl := by
    cases hl
    exact ⟨rfl, rfl⟩
  visited o l x hl := by
    cases hl
    rw [visitJoint, Judged.Judge.visit, judge]
    dsimp only
    cases angle cfg x with
    | none => exact ⟨rfl, rfl⟩
    | some ang =>
      rw [Option.map_some]
      dsimp only
      cases (o.getD (.new .within)).step (sideOf x.2.2 ang) x.1.tMonoS cfg.holdS with
      | mk d c => cases c <;> exact ⟨rfl, rfl⟩

variable (cfg) in
theorem logOf_eq (tid : UInt32) (jointId : String) (calls : List (AnalyzerCall F D)) :
    logOf cfg tid jointId calls = (after (visitJoint cfg) (none, []) (sightsOf cfg tid jointId calls)).2 := by
  have hflat := congrArg Prod.snd (after_sights cfg (visits cfg.classes tid calls))
  dsimp only at hflat
  rw [logOf, run, run_visits, hflat]
  exact (after_joint cfg jointId _).2

/-- **The pose_angle analyzer**, for a joint of a track over any calls: at each
sight of the joint it tells of the side of the limits that its last angles have
been on for `hold_s`, where it is not the one it told of last; an angle is not
taken where the keypoints are not there or not sure enough, and that leaves
everything as it was. Between two removals `angle_out` and `angle_in` take turns,
`angle_out` first. -/
theorem pose_angle_lawful (cfg : Cfg D) (calls : List (AnalyzerCall F D)) (tid : UInt32) (jointId : String) :
    Along ((judge cfg).Told id eventOf) (sightsOf cfg tid jointId calls) (logOf cfg tid jointId calls) ∧
    (∀ before more, calls = before ++ more → (before = [] ∨ ∃ init t, before = init ++ [.onTrackRemoved tid t]) →
      (∀ t, .onTrackRemoved tid t ∉ more) →
      ∃ evs, logOf cfg tid jointId calls = logOf cfg tid jointId before ++ evs ∧ (.within :: evs.map (·.2.side)).IsChain (· ≠ ·)) := by
  refine ⟨?_, fun before more hcalls hstart hmore => ?_⟩
  · rw [logOf_eq]
    exact (seen_joint cfg).along _
  · subst hcalls
    have hgone : (after (visitJoint cfg) (none, []) (sightsOf cfg tid jointId before)).1 = none := by
      obtain rfl | ⟨init, t, rfl⟩ := hstart
      · rfl
      · have hlast : sightsOf cfg tid jointId (init ++ [.onTrackRemoved tid t]) = sightsOf cfg tid jointId init ++ [none] := by
          rw [sightsOf, visits_removed, List.flatMap_append, List.filter_append]
          rfl
        rw [hlast, after_snoc]
        rfl
    refine ⟨(after (visitJoint cfg) (none, []) (sightsOf cfg tid jointId more)).2, ?_, ?_⟩
    · have happend : sightsOf cfg tid jointId (before ++ more) = sightsOf cfg tid jointId before ++ sightsOf cfg tid jointId more := by
        rw [sightsOf, visits_append, List.flatMap_append, List.filter_append]
        rfl
      rw [logOf_eq, logOf_eq, happend, after_append, after_out, hgone]
    · refine (seen_joint cfg).chain Event.side (fun side info => side_event) fun l hl => ?_
      obtain ⟨a, ha, hla⟩ := List.mem_flatMap.mp (List.mem_filter.mp hl).1
      obtain ⟨⟨m, tr⟩, hlook⟩ := Option.isSome_iff_exists.mp (Motion.look_visits hmore a ha)
      rw [sights, hlook] at hla
      obtain ⟨jt, -, rfl⟩ := List.mem_map.mp hla
      rfl

end

end RetailVision.Vb.PoseAngleAnalyzer
