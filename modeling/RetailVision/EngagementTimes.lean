/-
The engagement time in the record of a removed track. It is counted from the
beginning of the track's last engagement, which leaving the engagement does not
take back. So the time after it is reported with it, and the record exceeds the
time the track was engaged exactly where that is longer than all engagements
before the last (`measured_iff`).
-/
import RetailVision.TrackStories
import RetailVision.Lib.Ordered
import Mathlib.Data.List.DropRight
import Mathlib.Tactic.Linarith

set_option linter.all false

namespace RetailVision.PersonTracker

open scoped RetailVision.Lib.Ordered

variable {K : Type} [Field K] [LinearOrder K]

/-- What a state that is held until `t` adds to the time in engagement. -/
def held (track : TrackedPerson K) (t : K) : K := if track.dwellState.IsEngaged then t - track.lastSeenTime else 0

/-- The time in engagement: each state is held until the next, and the last
until `t`. -/
def engagedTime : List (TrackedPerson K) → K → K
  | [], _ => 0
  | [last], t => held last t
  | track :: next :: story, t => held track next.lastSeenTime + engagedTime (next :: story) t

/-- The last engagement in a story. -/
def engagement (story : List (TrackedPerson K)) : List (TrackedPerson K) :=
  (story.rdropWhile fun track => ¬ track.dwellState.IsEngaged).rtakeWhile fun track => track.dwellState.IsEngaged

/-- What came before it. -/
def earlier (story : List (TrackedPerson K)) : List (TrackedPerson K) :=
  (story.rdropWhile fun track => ¬ track.dwellState.IsEngaged).rdropWhile fun track => track.dwellState.IsEngaged

/-- What came after it. -/
def later (story : List (TrackedPerson K)) : List (TrackedPerson K) :=
  story.rtakeWhile fun track => ¬ track.dwellState.IsEngaged

/-- When these states began, or `t` where there are none. -/
def begun (states : List (TrackedPerson K)) (t : K) : K := (states.head?.map (·.lastSeenTime)).getD t

/-- A track that has been engaged, and is removed at `t`, has been out of its
last engagement no longer than it was in the earlier ones. -/
def Measured (story : List (TrackedPerson K)) (t : K) : Prop :=
  engagement story ≠ [] → t - begun (later story) t ≤ engagedTime (earlier story) (begun (engagement story) t)

variable {hypot : K → K → K} {cfg : TrackerConfig K} {story : List (TrackedPerson K)} {last track : TrackedPerson K} {now t : K}

omit [LinearOrder K] in
theorem engagedTime_snoc (story : List (TrackedPerson K)) (last track : TrackedPerson K) (t : K) :
    engagedTime (story ++ [last] ++ [track]) t = engagedTime (story ++ [last]) track.lastSeenTime + held track t := by
  induction story with
  | nil => rfl
  | cons first story ih =>
    cases story with
    | nil => simp only [List.nil_append, List.cons_append, engagedTime, add_assoc]
    | cons second story =>
      simp only [List.cons_append, engagedTime] at ih ⊢
      rw [ih, add_assoc]

/-! ## A match -/

omit [Field K] [LinearOrder K] in
variable (story) in
/-- A track that is not engaged. -/
theorem parts_out (h : ¬ track.dwellState.IsEngaged) : engagement (story ++ [track]) = engagement story ∧
    earlier (story ++ [track]) = earlier story ∧ later (story ++ [track]) = later story ++ [track] := by
  have hd := List.rdropWhile_concat_pos (fun track : TrackedPerson K => decide ¬ track.dwellState.IsEngaged) story track
    (decide_eq_true h)
  refine ⟨by rw [engagement, hd, engagement], by rw [earlier, hd, earlier], ?_⟩
  exact List.rtakeWhile_concat_pos _ _ _ (decide_eq_true h)

omit [Field K] [LinearOrder K] in
theorem later_in (h : track.dwellState.IsEngaged) : later (story ++ [track]) = [] :=
  List.rtakeWhile_concat_neg _ _ _ (by simpa using h)

omit [Field K] [LinearOrder K] in
theorem dropped_in (h : track.dwellState.IsEngaged) :
    ((story ++ [track]).rdropWhile fun track => ¬ track.dwellState.IsEngaged) = story ++ [track] :=
  List.rdropWhile_concat_neg _ _ _ (by simpa using h)

omit [Field K] [LinearOrder K] in
variable (story) in
/-- A track that becomes engaged. -/
theorem parts_enters (hlast : ¬ last.dwellState.IsEngaged) (h : track.dwellState.IsEngaged) :
    engagement (story ++ [last] ++ [track]) = [track] ∧ earlier (story ++ [last] ++ [track]) = story ++ [last] := by
  rw [engagement, earlier, dropped_in h]
  simp only [List.rtakeWhile_concat, List.rdropWhile_concat]
  simp [h, hlast]

omit [Field K] [LinearOrder K] in
variable (story) in
/-- A track that goes on being engaged. -/
theorem parts_stays (hlast : last.dwellState.IsEngaged) (h : track.dwellState.IsEngaged) :
    engagement (story ++ [last] ++ [track]) = engagement (story ++ [last]) ++ [track] ∧
      earlier (story ++ [last] ++ [track]) = earlier (story ++ [last]) := by
  rw [engagement, earlier, engagement, earlier, dropped_in h, dropped_in hlast]
  simp only [List.rtakeWhile_concat, List.rdropWhile_concat]
  simp [h, hlast]

/-- What is kept of the engagements of a story that `last` is the last of. -/
structure EngagedInv (story : List (TrackedPerson K)) (last : TrackedPerson K) : Prop where
  seen : 0 < last.lastSeenTime
  engaged : last.dwellState.IsEngaged → engagement story ≠ []
  never : engagement story = [] → last.engagementStartTime = 0 ∧ ∀ t, engagedTime story t = 0
  start : engagement story ≠ [] → 0 < last.engagementStartTime ∧ ∀ t, last.engagementStartTime = begun (engagement story) t
  time : engagement story ≠ [] → ∀ t, engagedTime story t =
    engagedTime (earlier story) last.engagementStartTime + (begun (later story) t - last.engagementStartTime)

omit [Field K] [LinearOrder K] in
theorem begun_append (h : story ≠ []) (more : List (TrackedPerson K)) (t : K) : begun (story ++ more) t = begun story t := by
  obtain ⟨first, rest, rfl⟩ := List.exists_cons_of_ne_nil h
  rfl

theorem engagedInv_new {tid : Nat} {det : DetectionBox K} (hnow : 0 < now) :
    EngagedInv [Cpp.newTrack cfg tid det now] (Cpp.newTrack cfg tid det now) where
  seen := hnow
  engaged h := absurd h (by simp [Cpp.newTrack, DwellState.IsEngaged, DwellState.value])
  never _ := ⟨rfl, fun _ => rfl⟩
  start h := absurd rfl h
  time h := absurd rfl h

/-- **A match**: an engagement begins, or goes on, or there is none. -/
theorem EngagedInv.matched (h : EngagedInv (story ++ [last]) last) (hd : Dwells cfg last track now)
    (hseen : track.lastSeenTime = now) (hnow : last.lastSeenTime ≤ now) : EngagedInv (story ++ [last] ++ [track]) track := by
  have hpos : 0 < now := h.seen.trans_le hnow
  have hadd : ∀ t, engagedTime (story ++ [last] ++ [track]) t = engagedTime (story ++ [last]) now + held track t := by
    intro t
    rw [engagedTime_snoc, hseen]
  -- The start is set by an update that finds the track still, and engages it.
  have hset : track.engagementStartTime = if ¬ last.dwellState.IsEngaged ∧ track.dwellState.IsEngaged then now
      else last.engagementStartTime := by
    by_cases hstill : Still cfg track
    · exact (hd.still hstill).2.2.2
    · by_cases hzero : track.stationaryFrames = 0
      · obtain ⟨hstate, -, -, heq⟩ := hd.ends hstill hzero
        rw [heq, if_neg]
        rw [hstate]
        simp [DwellState.IsEngaged, DwellState.value]
      · obtain ⟨hstate, -, -, heq⟩ := hd.stays hstill hzero
        rw [heq, if_neg]
        rw [hstate]
        exact fun hboth => hboth.1 hboth.2
  by_cases hin : track.dwellState.IsEngaged
  · have hheld : ∀ t, held track t = t - now := fun t => by rw [held, if_pos hin, hseen]
    by_cases hlast : last.dwellState.IsEngaged
    · -- It goes on.
      rw [if_neg fun hnew => hnew.1 hlast] at hset
      obtain ⟨heng, hear⟩ := parts_stays story hlast hin
      have hne := h.engaged hlast
      have hne' : engagement (story ++ [last] ++ [track]) ≠ [] := by rw [heng]; simp
      obtain ⟨hstart, hbegun⟩ := h.start hne
      refine ⟨hseen ▸ hpos, fun _ => hne', fun hnil => absurd hnil hne', fun _ => ⟨hset ▸ hstart, fun t => ?_⟩,
        fun _ t => ?_⟩
      · rw [hset, heng, begun_append hne]
        exact hbegun t
      · rw [hadd, hheld, h.time hne, later_in hlast, later_in hin, hear, hset]
        simp only [begun, List.head?_nil, Option.map_none, Option.getD_none]
        ring
    · -- It begins.
      rw [if_pos ⟨hlast, hin⟩] at hset
      obtain ⟨heng, hear⟩ := parts_enters story hlast hin
      have hne' : engagement (story ++ [last] ++ [track]) ≠ [] := by rw [heng]; simp
      refine ⟨hseen ▸ hpos, fun _ => hne', fun hnil => absurd hnil hne', fun _ => ⟨hset ▸ hpos, fun t => ?_⟩,
        fun _ t => ?_⟩
      · rw [hset, heng, ← hseen]
        rfl
      · rw [hadd, hheld, later_in hin, hear, hset]
        rfl
  · rw [if_neg fun hnew => hin hnew.2] at hset
    obtain ⟨heng, hear, hlater⟩ := parts_out (story ++ [last]) hin
    have hheld : ∀ t, held track t = 0 := fun t => if_neg hin
    refine ⟨hseen ▸ hpos, fun h => absurd h hin, fun hnil => ?_, fun hne => ?_, fun hne t => ?_⟩
    · obtain ⟨hstart, hzero⟩ := h.never (heng ▸ hnil)
      exact ⟨hset.trans hstart, fun t => by rw [hadd, hheld, hzero, add_zero]⟩
    · rw [heng] at hne ⊢
      rw [hset]
      exact h.start hne
    · rw [heng] at hne
      rw [hadd, hheld, h.time hne, hear, hlater, hset, add_zero]
      -- What came after the engagement began before, or begins now.
      have hsame : begun (later (story ++ [last]) ++ [track]) t = begun (later (story ++ [last])) now := by
        cases later (story ++ [last]) with
        | nil => exact hseen
        | cons first rest => rfl
      rw [hsame]

variable [IsStrictOrderedRing K]

variable (cfg t) in
/-- **The record of a track** that was last seen as `last`. -/
theorem EngagedInv.record_iff (h : EngagedInv story last) :
    (Cpp.trackRecord cfg last t).engagementTime ≤ engagedTime story t ↔ Measured story t := by
  have htime : (Cpp.trackRecord cfg last t).engagementTime = if 0 < last.engagementStartTime then t - last.engagementStartTime
      else 0 := rfl
  by_cases hne : engagement story = []
  · obtain ⟨hstart, hzero⟩ := h.never hne
    rw [htime, hstart, if_neg (lt_irrefl _), hzero]
    exact ⟨fun _ hnot => absurd hne hnot, fun _ => le_refl _⟩
  · obtain ⟨hstart, hbegun⟩ := h.start hne
    rw [htime, if_pos hstart, h.time hne, Measured, ← hbegun t]
    constructor
    · intro hle _
      linarith
    · intro hle
      have := hle hne
      linarith

/-! ## Runs -/

/-- **A record reports no more than the time in engagement** exactly where the
track has not been out of its last engagement for longer than the earlier ones. -/
theorem measured_iff (hypot : K → K → K) (cfg : TrackerConfig K) (setup : Setup K) :
    (∀ frames : List (ClassedFrame K), InTime (frames.map (·.2)) →
      ∀ record ∈ (Cpp.updates hypot cfg (Cpp.start setup) frames).removed,
        let story := storyOf record.trackId (Cpp.states hypot cfg (Cpp.start setup) frames)
        record.engagementTime ≤ engagedTime story record.removalTime ↔ Measured story record.removalTime) ∧
    ∀ frames : List (Frame K), InTime (frames.map (·.2)) →
      ∀ record ∈ (Py.run hypot cfg (Py.start setup) frames).removed,
        let story := storyOf record.trackId (Py.states hypot cfg (Py.start setup) frames)
        record.engagementTime ≤ engagedTime story record.removalTime ↔ Measured story record.removalTime := by
  have hcpp : ∀ frames : List (ClassedFrame K), InTime (frames.map (·.2)) →
      ∀ record ∈ (Cpp.updates hypot cfg (Cpp.start setup) frames).removed,
        let story := storyOf record.trackId (Cpp.states hypot cfg (Cpp.start setup) frames)
        record.engagementTime ≤ engagedTime story record.removalTime ↔ Measured story record.removalTime := by
    intro frames htimes record hr
    obtain ⟨-, -, last, heq, htells⟩ := (told_run hypot cfg setup htimes).records record hr
    obtain ⟨story, hstory, hs⟩ := htells.story
    have hinv : EngagedInv (story ++ [last]) last :=
      hs.keeps (fun _ _ _ => engagedInv_new) fun _ _ _ _ h hd hseen hnow => h.matched hd hseen hnow
    rw [hstory]
    have hrecord := hinv.record_iff cfg record.removalTime
    rw [← heq] at hrecord
    exact hrecord
  refine ⟨hcpp, fun frames htimes record hr => ?_⟩
  obtain ⟨-, hremoved, hstories⟩ := py_run hypot cfg setup frames
  rw [hstories]
  exact hcpp _ (by rw [classed_times]; exact htimes) record (hremoved ▸ hr)

/-- A tracker that gives a track up as soon as it is lost. -/
def hasty : TrackerConfig ℚ := { TrackerConfig.default ℚ with maxLostFramesCenter := 0 }

/-- A person stands still until engaged. -/
def standing : List (Option ℚ) := List.replicate 8 (some 0.5)

/-- Of one who is engaged until the track is lost, no more is reported. -/
theorem measured_iff_standing :
    (Cpp.updates axisHypot hasty (Cpp.start ⟨none, none⟩) ((framesOf (standing ++ [none])).map Frame.classed)).removed.length = 1 ∧
      ∀ record ∈ (Cpp.updates axisHypot hasty (Cpp.start ⟨none, none⟩) ((framesOf (standing ++ [none])).map Frame.classed)).removed,
        record.engagementTime ≤ engagedTime (storyOf record.trackId (Cpp.states axisHypot hasty (Cpp.start ⟨none, none⟩)
          ((framesOf (standing ++ [none])).map Frame.classed))) record.removalTime := by
  refine ⟨by decide +kernel, fun record hr => ?_⟩
  refine ((measured_iff axisHypot hasty ⟨none, none⟩).1 _ ⟨by decide +kernel, by decide +kernel⟩ record hr).mpr ?_
  revert record
  unfold Measured
  decide +kernel

/-- One who walks on is reported to have been engaged while walking. -/
theorem not_measured :
    (∃ record ∈ (Cpp.updates axisHypot hasty (Cpp.start ⟨none, none⟩)
        ((framesOf (standing ++ [some 0.6, some 0.7, none])).map Frame.classed)).removed,
      engagedTime (storyOf record.trackId (Cpp.states axisHypot hasty (Cpp.start ⟨none, none⟩)
        ((framesOf (standing ++ [some 0.6, some 0.7, none])).map Frame.classed))) record.removalTime < record.engagementTime) ∧
    ∃ record ∈ (Py.run axisHypot hasty (Py.start ⟨none, none⟩) (framesOf (standing ++ [some 0.6, some 0.7, none]))).removed,
      engagedTime (storyOf record.trackId (Py.states axisHypot hasty (Py.start ⟨none, none⟩)
        (framesOf (standing ++ [some 0.6, some 0.7, none])))) record.removalTime < record.engagementTime := by
  decide +kernel

end RetailVision.PersonTracker
