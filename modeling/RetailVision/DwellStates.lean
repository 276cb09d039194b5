/-
The dwell of a track, over its story. The stationary frames, the start and the
state of a dwell are changed under different conditions, and a dwell that is
not confirmed is kept for as long as there are stationary frames left; all the
same they belong together (`coherent_run`).
-/
import RetailVision.TrackStories
import RetailVision.Lib.Ordered

set_option linter.all false

namespace RetailVision.PersonTracker

open scoped RetailVision.Lib.Ordered

variable {K : Type} [Field K] [LinearOrder K]

/-- The time of the last update that found the track still; there is none of
the frame in which it was new. -/
def lastStill (cfg : TrackerConfig K) (story : List (TrackedPerson K)) : Option K :=
  (story.tail.filter fun track => Still cfg track).getLast?.map (·.lastSeenTime)

/-- What is kept of the dwell of a track belongs together. -/
structure Coherent (cfg : TrackerConfig K) (story : List (TrackedPerson K)) (track : TrackedPerson K) : Prop where
  frames : 0 ≤ track.stationaryFrames
  out : track.dwellStartTime ≤ 0 → track.dwellState = .transient ∧ track.dwellDurationSec = 0
  dwell : 0 < track.dwellStartTime → (∃ t, lastStill cfg story = some t ∧ track.dwellDurationSec = t - track.dwellStartTime) ∧
    0 ≤ track.dwellDurationSec ∧ track.dwellState = classOf cfg track.dwellDurationSec

/-- A track that has left its dwell has no stationary frames left. -/
def Leaves (old track : TrackedPerson K) : Prop :=
  old.dwellState ≠ .transient → track.dwellState = .transient → 0 < old.stationaryFrames ∧ track.stationaryFrames = 0

variable {hypot : K → K → K} {cfg : TrackerConfig K} {story : List (TrackedPerson K)} {last track : TrackedPerson K} {now : K}

/-- The same of the last of a story, with what the next match needs. -/
structure StoryInv (cfg : TrackerConfig K) (story : List (TrackedPerson K)) (last : TrackedPerson K) : Prop
    extends Coherent cfg story last where
  seen : 0 < last.lastSeenTime
  started : last.dwellStartTime ≤ last.lastSeenTime
  some : 0 < last.dwellStartTime → 0 < last.stationaryFrames

omit [Field K] in
theorem lastStill_still (hne : story ≠ []) (h : Still cfg track) : lastStill cfg (story ++ [track]) = some track.lastSeenTime := by
  rw [lastStill, List.tail_append_of_ne_nil hne, List.filter_append, List.filter_singleton, decide_eq_true h]
  simp

omit [Field K] in
theorem lastStill_not (hne : story ≠ []) (h : ¬ Still cfg track) : lastStill cfg (story ++ [track]) = lastStill cfg story := by
  rw [lastStill, List.tail_append_of_ne_nil hne, List.filter_append, List.filter_singleton, decide_eq_false h]
  simp [lastStill]

omit [Field K] in
theorem classOf_ne (cfg : TrackerConfig K) (duration : K) : classOf cfg duration ≠ .transient := by
  unfold classOf
  split
  · nofun
  · split <;> nofun

variable [IsStrictOrderedRing K]

/-- **A match** keeps the dwell coherent. -/
theorem StoryInv.matched (h : StoryInv cfg (story ++ [last]) last) (hd : Dwells cfg last track now)
    (hseen : track.lastSeenTime = now) (hnow : last.lastSeenTime ≤ now) :
    StoryInv cfg (story ++ [last] ++ [track]) track ∧ Leaves last track := by
  have hpos : 0 < now := h.seen.trans_le hnow
  have hne : story ++ [last] ≠ [] := by simp
  have hframes : 0 ≤ track.stationaryFrames := by
    have hlast := h.frames
    by_cases hslow : track.speedPxS < cfg.dwellSpeedThreshold
    · have := hd.slow hslow
      omega
    · exact hd.fast hslow
  by_cases hstill : Still cfg track
  · -- The dwell goes on, or begins.
    obtain ⟨hstart, hduration, hstate, -⟩ := hd.still hstill
    have hsome : 0 < track.stationaryFrames := by
      have hlast := h.frames
      have := hd.slow hstill.1
      omega
    have hbegun : 0 < track.dwellStartTime ∧ track.dwellStartTime ≤ now := by
      rw [hstart]
      split
      next => exact ⟨hpos, le_refl _⟩
      next hlate => exact ⟨not_le.mp hlate, h.started.trans hnow⟩
    refine ⟨⟨⟨hframes, fun hle => absurd hbegun.1 (not_lt.mpr hle), fun _ => ⟨⟨now, ?_, hduration⟩, ?_, hstate⟩⟩, ?_, ?_, fun _ => hsome⟩,
      fun _ htransient => ?_⟩
    · rw [lastStill_still hne hstill, hseen]
    · rw [hduration]
      exact sub_nonneg.mpr hbegun.2
    · exact hseen ▸ hpos
    · exact hseen ▸ hbegun.2
    · rw [hstate] at htransient
      exact absurd htransient (classOf_ne cfg _)
  · by_cases hzero : track.stationaryFrames = 0
    · -- There are no stationary frames left: the dwell is over.
      obtain ⟨hstate, hstart, hduration, -⟩ := hd.ends hstill hzero
      refine ⟨⟨⟨hframes, fun _ => ⟨hstate, hduration⟩, fun hlt => ?_⟩, hseen ▸ hpos, ?_, fun hlt => ?_⟩, fun hold _ => ⟨?_, hzero⟩⟩
      · exact absurd hlt (by rw [hstart]; exact lt_irrefl _)
      · rw [hstart, hseen]
        exact hpos.le
      · exact absurd hlt (by rw [hstart]; exact lt_irrefl _)
      · exact h.some (not_le.mp fun hle => hold (h.out hle).1)
    · -- The grace period.
      obtain ⟨hstate, hstart, hduration, -⟩ := hd.stays hstill hzero
      refine ⟨⟨⟨hframes, fun hle => ?_, fun hlt => ?_⟩, hseen ▸ hpos, ?_, fun _ => by omega⟩, fun hold htransient => ?_⟩
      · rw [hstart] at hle
        rw [hstate, hduration]
        exact h.out hle
      · rw [hstart] at hlt
        rw [hstate, hduration, hstart, lastStill_not hne hstill]
        exact h.dwell hlt
      · rw [hstart, hseen]
        exact h.started.trans hnow
      · exact absurd (hstate ▸ htransient) hold

omit [IsStrictOrderedRing K] in
theorem storyInv_new {tid : Nat} {det : DetectionBox K} (hnow : 0 < now) :
    StoryInv cfg [Cpp.newTrack cfg tid det now] (Cpp.newTrack cfg tid det now) where
  frames := le_refl _
  out _ := ⟨rfl, rfl⟩
  dwell h := absurd h (lt_irrefl _)
  seen := hnow
  started := hnow.le
  some h := absurd h (lt_irrefl _)

theorem Tells.inv {states : List (Tracker K)} {tid : Nat} {t : K} (h : Tells hypot cfg states tid last t) :
    StoryInv cfg (storyOf tid states) last := by
  obtain ⟨story, hstory, hs⟩ := h.story
  rw [hstory]
  exact hs.keeps (fun _ _ _ => storyInv_new) fun _ _ _ _ hinv hd hseen hnow => (hinv.matched hd hseen hnow).1

/-- The dwells of the tracks after a frame, which brought the tracker from `s` to `s'`. -/
structure CoherentFrame (cfg : TrackerConfig K) (states : List (Tracker K)) (s s' : Tracker K) : Prop where
  coherent : ∀ tid track, (tid, track) ∈ s'.tracks → Coherent cfg (storyOf tid states) track
  leaves : ∀ tid old track, (tid, old) ∈ s.tracks → (tid, track) ∈ s'.tracks → Leaves old track

theorem Told.coherent {states : List (Tracker K)} {s : Tracker K} (h : Told hypot cfg states s) {tid : Nat}
    (hm : (tid, track) ∈ s.tracks) : Coherent cfg (storyOf tid states) track := by
  obtain ⟨last, lost, rfl, htells⟩ := h.tracks tid track hm
  exact ⟨htells.inv.frames, htells.inv.out, htells.inv.dwell⟩

/-- A frame takes a track out of its dwell when there are no stationary frames left. -/
theorem Told.leaves {states : List (Tracker K)} {s : Tracker K} (h : Told hypot cfg states s) {detections : List (DetectionBox K)}
    (hle : s.lastUpdate ≤ now) {tid : Nat} {old : TrackedPerson K} (hold : (tid, old) ∈ s.tracks)
    (hm : (tid, track) ∈ (Cpp.update hypot cfg s (persons detections) now).tracks) : Leaves old track := by
  obtain ⟨-, -, -, htracks, -⟩ := update_tracks hypot cfg detections now h.ordered
  obtain ⟨last, lost, rfl, htells⟩ := h.tracks tid old hold
  obtain ⟨old', det, hold', rfl⟩ | ⟨old', hold', rfl⟩ | ⟨hborn, -⟩ := htracks tid track hm
  · cases tracks_det h.ordered hold hold'
    rw [rematch_lost]
    obtain ⟨story, hstory, -⟩ := htells.story
    have hinv := hstory ▸ htells.inv
    obtain ⟨-, -, hseen, hd⟩ := rematch_spec hypot cfg last det (s.elapsed now) now
    exact (hinv.matched hd hseen (htells.seen.trans hle)).2
  · cases tracks_det h.ordered hold hold'
    exact fun hne heq => absurd heq hne
  · have hbelow := h.ordered.below tid (List.mem_map_of_mem hold)
    omega

/-- **The dwells of a run are coherent**, after every frame, in both trackers. -/
theorem coherent_run (hypot : K → K → K) (cfg : TrackerConfig K) (setup : Setup K) :
    (∀ (frames : List (ClassedFrame K)) (f : ClassedFrame K), InTime ((frames ++ [f]).map (·.2)) →
      CoherentFrame cfg (Cpp.states hypot cfg (Cpp.start setup) (frames ++ [f]))
        (Cpp.updates hypot cfg (Cpp.start setup) frames) (Cpp.updates hypot cfg (Cpp.start setup) (frames ++ [f]))) ∧
    ∀ (frames : List (Frame K)) (f : Frame K), InTime ((frames ++ [f]).map (·.2)) →
      CoherentFrame cfg (Py.states hypot cfg (Py.start setup) (frames ++ [f]))
        (Py.run hypot cfg (Py.start setup) frames) (Py.run hypot cfg (Py.start setup) (frames ++ [f])) := by
  have hcpp : ∀ (frames : List (ClassedFrame K)) (f : ClassedFrame K), InTime ((frames ++ [f]).map (·.2)) →
      CoherentFrame cfg (Cpp.states hypot cfg (Cpp.start setup) (frames ++ [f]))
        (Cpp.updates hypot cfg (Cpp.start setup) frames) (Cpp.updates hypot cfg (Cpp.start setup) (frames ++ [f])) := by
    intro frames f htimes
    refine ⟨fun tid track hm => (told_run hypot cfg setup htimes).coherent hm, fun tid old track hold hm => ?_⟩
    rw [updates_snoc, cpp_update_persons] at hm
    exact (told_run hypot cfg setup (inTime_init htimes)).leaves (updates_le setup htimes) hold hm
  refine ⟨hcpp, fun frames f htimes => ?_⟩
  have hclassed : InTime ((frames.map Frame.classed ++ [f.classed]).map (·.2)) := by
    rw [← classed_times, List.map_append] at htimes
    exact htimes
  obtain ⟨hcoherent, hleaves⟩ := hcpp _ _ hclassed
  rw [← List.map_singleton (f := Frame.classed), ← List.map_append] at hcoherent hleaves
  obtain ⟨htracks, -, hstories⟩ := py_run hypot cfg setup (frames ++ [f])
  obtain ⟨hbefore, -, -⟩ := py_run hypot cfg setup frames
  refine ⟨fun tid track hm => ?_, fun tid old track hold hm => ?_⟩
  · rw [htracks] at hm
    rw [hstories]
    exact hcoherent tid track hm
  · rw [htracks] at hm
    rw [hbefore] at hold
    exact hleaves tid old track hold hm

/-- A person stands still for two frames. -/
def standsStill : List (ClassedFrame ℚ) := (framesOf [some 0.5]).map Frame.classed

def standsOn : ClassedFrame ℚ := ([(personAt 0.5, 0)], 2)

theorem coherent_run_standing : InTime ((standsStill ++ [standsOn]).map (·.2)) ∧ CoherentFrame (.default ℚ)
    (Cpp.states axisHypot (.default ℚ) (Cpp.start ⟨none, none⟩) (standsStill ++ [standsOn]))
    (Cpp.updates axisHypot (.default ℚ) (Cpp.start ⟨none, none⟩) standsStill)
    (Cpp.updates axisHypot (.default ℚ) (Cpp.start ⟨none, none⟩) (standsStill ++ [standsOn])) := by
  have htimes : InTime ((standsStill ++ [standsOn]).map (·.2)) := ⟨by decide +kernel, by decide +kernel⟩
  exact ⟨htimes, (coherent_run axisHypot (.default ℚ) ⟨none, none⟩).1 _ _ htimes⟩

end RetailVision.PersonTracker
