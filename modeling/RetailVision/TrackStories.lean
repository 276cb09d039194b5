/-
What a track of the person trackers goes through. The story of a track is what
it was after each frame in which it was seen: first it is new, and then each
time what a match makes of what it was before (`Story`). A frame in which it is
not seen changes nothing but the number of frames it has been lost. Every track
that is there after a run has such a story, and so has every track of which a
run has made a record (`told_run`).
-/
import RetailVision.TrackerCounts

set_option linter.all false

namespace RetailVision.PersonTracker

/-- A frame as the C++ tracker gets it: of a detection the class id is beside
the box. -/
abbrev ClassedFrame (K : Type) := List (DetectionBox K × Int) × K

/-- What is left of it when the others than persons are put aside. -/
def ClassedFrame.persons {K : Type} (f : ClassedFrame K) : Frame K := ((f.1.filter (·.2 = 0)).map (·.1), f.2)

variable {K : Type} [Field K] [LinearOrder K]

section

variable (hypot : K → K → K) (cfg : TrackerConfig K)

/-- The tracker after some frames. -/
def Cpp.updates (s : Tracker K) (frames : List (ClassedFrame K)) : Tracker K :=
  frames.foldl (fun s f => update hypot cfg s f.1 f.2) s

/-- The tracker after each frame. -/
def Cpp.states (s : Tracker K) : List (ClassedFrame K) → List (Tracker K)
  | [] => []
  | f :: frames => update hypot cfg s f.1 f.2 :: states (update hypot cfg s f.1 f.2) frames

def Py.states (s : Tracker K) : List (Frame K) → List (Tracker K)
  | [] => []
  | f :: frames => update hypot cfg s f.1 f.2 :: states (update hypot cfg s f.1 f.2) frames

/-- What a track was after each frame in which it was seen. -/
def storyOf (tid : Nat) (states : List (Tracker K)) : List (TrackedPerson K) :=
  states.filterMap fun s => (s.tracks.lookup tid).filter (·.lostFrames = 0)

/-- What a match makes of a track. -/
def rematch (track : TrackedPerson K) (det : DetectionBox K) (dt now : K) : TrackedPerson K :=
  Cpp.updateDwellState cfg { Cpp.updateVelocity hypot cfg track det dt with
    detection := det
    lastSeenTime := now
    framesTracked := track.framesTracked + 1
    lostFrames := 0
    lastNearEdge := Cpp.isNearEdge cfg det } now

/-- A track is new, and then matched at times that do not go back. -/
inductive Story : List (TrackedPerson K) → Prop
  | new {now : K} (tid : Nat) (det : DetectionBox K) (hnow : 0 < now) : Story [Cpp.newTrack cfg tid det now]
  | matched {story : List (TrackedPerson K)} {last : TrackedPerson K} {now : K} (h : Story (story ++ [last]))
      (det : DetectionBox K) (dt : K) (hnow : last.lastSeenTime ≤ now) :
      Story (story ++ [last] ++ [rematch hypot cfg last det dt now])

/-- The story of a track that was last seen no later than `t`, when it was `last`. -/
structure Tells (states : List (Tracker K)) (tid : Nat) (last : TrackedPerson K) (t : K) : Prop where
  story : ∃ story, storyOf tid states = story ++ [last] ∧ Story hypot cfg (story ++ [last])
  trackId : last.trackId = tid
  seen : last.lastSeenTime ≤ t

/-- The states there have been tell of every track of the last of them, and of
every record. -/
structure Told (states : List (Tracker K)) (s : Tracker K) : Prop where
  ordered : s.Ordered
  unborn : ∀ tid, s.nextId ≤ tid → storyOf tid states = []
  tracks : ∀ tid track, (tid, track) ∈ s.tracks → ∃ last lost, track = { last with lostFrames := lost } ∧
    Tells hypot cfg states tid last s.lastUpdate
  records : ∀ record ∈ s.removed, record.trackId < s.nextId ∧ record.trackId ∉ s.ids ∧
    ∃ last, record = Cpp.trackRecord cfg last record.removalTime ∧
      Tells hypot cfg states record.trackId last record.removalTime

end

variable {hypot : K → K → K} {cfg : TrackerConfig K} {s s' : Tracker K} {states : List (Tracker K)}
  {detections : List (DetectionBox K)} {track last : TrackedPerson K} {now dt : K} {tid i d lost : Nat} {pairs : List (Nat × Nat)}

/-! ## What a match does to a track -/

/-- The state that a dwell of this length is in. -/
def classOf (cfg : TrackerConfig K) (duration : K) : DwellState :=
  if cfg.dwellAssistanceThreshold ≤ duration then .assistance
  else if cfg.dwellMinDuration ≤ duration then .engaged
  else .dwelling

/-- The track is engaged, or needs assistance. -/
def DwellState.IsEngaged (state : DwellState) : Prop := DwellState.engaged.value ≤ state.value

instance (state : DwellState) : Decidable state.IsEngaged := inferInstanceAs (Decidable (_ ≤ _))

/-- An update found the track still, for the frames it takes. -/
def Still (cfg : TrackerConfig K) (track : TrackedPerson K) : Prop :=
  track.speedPxS < cfg.dwellSpeedThreshold ∧ cfg.dwellMinFrames ≤ track.stationaryFrames

instance (track : TrackedPerson K) : Decidable (Still cfg track) := inferInstanceAs (Decidable (_ ∧ _))

omit [Field K] [LinearOrder K] in
variable (cfg track) in
/-- The frames of a track that is slow are one more, and those of one that is
not are fewer by a decay. -/
theorem updateStationaryFrames_eq (isStationary : Bool) : ∃ frames,
    Cpp.updateStationaryFrames cfg track isStationary = { track with stationaryFrames := frames } ∧
    (isStationary = true → frames = track.stationaryFrames + 1) ∧ (isStationary = false → 0 ≤ frames) := by
  unfold Cpp.updateStationaryFrames
  cases isStationary with
  | true => exact ⟨_, rfl, fun _ => rfl, nofun⟩
  | false =>
    simp only [Bool.false_eq_true, if_false]
    split
    · exact ⟨_, rfl, nofun, fun _ => le_max_left _ _⟩
    · exact ⟨_, rfl, nofun, fun _ => le_max_left _ _⟩

/-- **What an update of the dwell does.** A track that has come to a halt for
long enough goes on with its dwell, or begins one; another keeps it until there
are no stationary frames left. -/
theorem updateDwellState_cases (cfg : TrackerConfig K) (track : TrackedPerson K) (now : K) : ∃ frames : Int,
    (track.speedPxS < cfg.dwellSpeedThreshold → frames = track.stationaryFrames + 1) ∧
    (¬ track.speedPxS < cfg.dwellSpeedThreshold → 0 ≤ frames) ∧
    ((¬ (track.speedPxS < cfg.dwellSpeedThreshold ∧ cfg.dwellMinFrames ≤ frames) ∧
        ((frames = 0 ∧ Cpp.updateDwellState cfg track now = { track with
            stationaryFrames := 0, dwellState := .transient, dwellStartTime := 0, dwellDurationSec := 0 }) ∨
          (frames ≠ 0 ∧ Cpp.updateDwellState cfg track now = { track with stationaryFrames := frames }))) ∨
      ((track.speedPxS < cfg.dwellSpeedThreshold ∧ cfg.dwellMinFrames ≤ frames) ∧
        ∃ start, start = (if track.dwellStartTime ≤ 0 then now else track.dwellStartTime) ∧
          Cpp.updateDwellState cfg track now = { track with
            stationaryFrames := frames
            dwellStartTime := start
            dwellDurationSec := now - start
            dwellState := classOf cfg (now - start)
            engagementStartTime := if ¬ track.dwellState.IsEngaged ∧ (classOf cfg (now - start)).IsEngaged then now
              else track.engagementStartTime })) := by
  obtain ⟨frames, heq, hslow, hfast⟩ :=
    updateStationaryFrames_eq cfg track (decide (track.speedPxS < cfg.dwellSpeedThreshold))
  refine ⟨frames, fun h => hslow (decide_eq_true h), fun h => hfast (decide_eq_false h), ?_⟩
  unfold Cpp.updateDwellState
  dsimp only
  rw [heq]
  by_cases hstill : track.speedPxS < cfg.dwellSpeedThreshold ∧ cfg.dwellMinFrames ≤ frames
  · refine .inr ⟨hstill, _, rfl, ?_⟩
    have hb : (!(decide (track.speedPxS < cfg.dwellSpeedThreshold) && decide (frames ≥ cfg.dwellMinFrames))) = false := by
      simp [hstill]
    have hstart : (if track.dwellStartTime ≤ 0 then { track with stationaryFrames := frames, dwellStartTime := now }
        else { track with stationaryFrames := frames }) = { track with
          stationaryFrames := frames
          dwellStartTime := if track.dwellStartTime ≤ 0 then now else track.dwellStartTime } := by
      split <;> rfl
    rw [if_neg (by simp [hb]), hstart]
    simp only [DwellState.IsEngaged, not_le]
    by_cases hnew : track.dwellState.value < DwellState.engaged.value ∧ DwellState.engaged.value ≤
        (classOf cfg (now - if track.dwellStartTime ≤ 0 then now else track.dwellStartTime)).value
    · rw [if_pos hnew]
      exact if_pos hnew
    · rw [if_neg hnew]
      exact if_neg hnew
  · refine .inl ⟨hstill, ?_⟩
    have hb : (!(decide (track.speedPxS < cfg.dwellSpeedThreshold) && decide (frames ≥ cfg.dwellMinFrames))) = true := by
      rw [← Bool.decide_and, Bool.not_eq_true', decide_eq_false_iff_not]
      exact hstill
    rw [if_pos hb]
    by_cases hzero : frames = 0
    · subst hzero
      exact .inl ⟨rfl, rfl⟩
    · exact .inr ⟨hzero, if_neg hzero⟩

/-- The velocity is computed of the velocity and the detection before. -/
theorem updateVelocity_frame (hypot : K → K → K) (cfg : TrackerConfig K) (track : TrackedPerson K) (det : DetectionBox K) (dt : K) :
    (∃ vx vy px ms sum samples, Cpp.updateVelocity hypot cfg track det dt = { track with
      velocityX := vx, velocityY := vy, speedPxS := px, speedMS := ms, speedSum := sum, speedSamples := samples }) ∧
    ∀ lost, Cpp.updateVelocity hypot cfg { track with lostFrames := lost } det dt =
      { Cpp.updateVelocity hypot cfg track det dt with lostFrames := lost } := by
  unfold Cpp.updateVelocity
  dsimp only
  by_cases hdt : dt ≤ 0.001
  · rw [if_pos hdt]
    refine ⟨⟨_, _, _, _, _, _, rfl⟩, fun lost => ?_⟩
    rw [if_pos hdt]
  · rw [if_neg hdt]
    by_cases hslow : hypot ((det.x - track.detection.x) * cfg.frameWidth / dt)
        ((det.y - track.detection.y) * cfg.frameHeight / dt) < cfg.velocityZeroThreshold
    · rw [if_pos hslow]
      refine ⟨⟨_, _, _, _, _, _, rfl⟩, fun lost => ?_⟩
      rw [if_neg hdt, if_pos hslow]
    · rw [if_neg hslow]
      refine ⟨⟨_, _, _, _, _, _, rfl⟩, fun lost => ?_⟩
      simp only [if_neg hdt, if_neg hslow]

/-- How long a track has been lost is no part of what a match makes of it. -/
theorem rematch_lost (track : TrackedPerson K) (det : DetectionBox K) (dt now : K) (lost : Nat) :
    rematch hypot cfg { track with lostFrames := lost } det dt now = rematch hypot cfg track det dt now := by
  unfold rematch
  rw [(updateVelocity_frame hypot cfg track det dt).2]

/-- What a match makes of the dwell of a track that was `last`. -/
structure Dwells (cfg : TrackerConfig K) (last track : TrackedPerson K) (now : K) : Prop where
  slow : track.speedPxS < cfg.dwellSpeedThreshold → track.stationaryFrames = last.stationaryFrames + 1
  fast : ¬ track.speedPxS < cfg.dwellSpeedThreshold → 0 ≤ track.stationaryFrames
  /-- there are no stationary frames left -/
  ends : ¬ Still cfg track → track.stationaryFrames = 0 → track.dwellState = .transient ∧ track.dwellStartTime = 0 ∧
    track.dwellDurationSec = 0 ∧ track.engagementStartTime = last.engagementStartTime
  /-- the grace period -/
  stays : ¬ Still cfg track → track.stationaryFrames ≠ 0 → track.dwellState = last.dwellState ∧
    track.dwellStartTime = last.dwellStartTime ∧ track.dwellDurationSec = last.dwellDurationSec ∧
    track.engagementStartTime = last.engagementStartTime
  still : Still cfg track → track.dwellStartTime = (if last.dwellStartTime ≤ 0 then now else last.dwellStartTime) ∧
    track.dwellDurationSec = now - track.dwellStartTime ∧ track.dwellState = classOf cfg track.dwellDurationSec ∧
    track.engagementStartTime = if ¬ last.dwellState.IsEngaged ∧ track.dwellState.IsEngaged then now
      else last.engagementStartTime

/-- **What a match makes of a track.** -/
theorem rematch_spec (hypot : K → K → K) (cfg : TrackerConfig K) (last : TrackedPerson K) (det : DetectionBox K) (dt now : K) :
    (rematch hypot cfg last det dt now).trackId = last.trackId ∧ (rematch hypot cfg last det dt now).lostFrames = 0 ∧
      (rematch hypot cfg last det dt now).lastSeenTime = now ∧ Dwells cfg last (rematch hypot cfg last det dt now) now := by
  obtain ⟨vx, vy, px, ms, sum, samples, hv⟩ := (updateVelocity_frame hypot cfg last det dt).1
  unfold rematch
  rw [hv]
  obtain ⟨frames, hslow, hfast, ⟨hnot, ⟨hzero, he⟩ | ⟨hne, he⟩⟩ | ⟨hstill, start, hstart, he⟩⟩ := updateDwellState_cases cfg _ now
  · rw [he]
    subst hzero
    exact ⟨rfl, rfl, rfl, hslow, hfast, fun _ _ => ⟨rfl, rfl, rfl, rfl⟩, fun _ h => absurd rfl h, fun h => absurd h hnot⟩
  · rw [he]
    exact ⟨rfl, rfl, rfl, hslow, hfast, fun _ h => absurd h hne, fun _ _ => ⟨rfl, rfl, rfl, rfl⟩, fun h => absurd h hnot⟩
  · rw [he]
    exact ⟨rfl, rfl, rfl, hslow, hfast, fun h => absurd hstill h, fun h => absurd hstill h, fun _ => ⟨hstart, rfl, rfl, rfl⟩⟩

/-! ## Tracks by their ids -/

omit [Field K] [LinearOrder K] in
theorem lookup_iff (hs : s.Ordered) : s.tracks.lookup tid = some track ↔ (tid, track) ∈ s.tracks := by
  have hnodup : (s.tracks.map (·.1)).Nodup := hs.ascending.imp Nat.ne_of_lt
  generalize s.tracks = tracks at hnodup
  induction tracks with
  | nil => simp
  | cons kv tracks ih =>
    obtain ⟨i, tr⟩ := kv
    rw [List.map_cons, List.nodup_cons] at hnodup
    obtain ⟨hnot, hrest⟩ := hnodup
    by_cases hi : tid = i
    · subst hi
      have hno : (tid, track) ∉ tracks := fun h => hnot (List.mem_map.mpr ⟨_, h, rfl⟩)
      simp [hno, eq_comm]
    · have hbeq : (tid == i) = false := beq_eq_false_iff_ne.mpr hi
      rw [List.lookup_cons, hbeq]
      simp [hi, ih hrest]

omit [Field K] [LinearOrder K] in
theorem tracks_det (hs : s.Ordered) (h : (tid, track) ∈ s.tracks) (h' : (tid, last) ∈ s.tracks) : track = last :=
  Option.some.inj (((lookup_iff hs).mpr h).symm.trans ((lookup_iff hs).mpr h'))

omit [Field K] [LinearOrder K] in
theorem lookup_eq_none (h : tid ∉ s.ids) : s.tracks.lookup tid = none := by
  refine List.lookup_eq_none_iff.mpr fun kv hkv => bne_iff_ne.mpr fun he => h ?_
  exact he ▸ List.mem_map_of_mem hkv

omit [Field K] [LinearOrder K] in
theorem mem_ids : tid ∈ s.ids ↔ ∃ track, (tid, track) ∈ s.tracks := by
  simp [Tracker.ids]

omit [Field K] [LinearOrder K] in
theorem storyOf_snoc : storyOf tid (states ++ [s]) =
    storyOf tid states ++ ((s.tracks.lookup tid).filter (·.lostFrames = 0)).toList := by
  simp only [storyOf, List.filterMap_append]
  cases h : (s.tracks.lookup tid).filter (·.lostFrames = 0) <;> simp [h]

omit [Field K] [LinearOrder K] in
theorem storyOf_seen (hs : s.Ordered) (h : (tid, track) ∈ s.tracks) (hseen : track.lostFrames = 0) :
    storyOf tid (states ++ [s]) = storyOf tid states ++ [track] := by
  rw [storyOf_snoc, (lookup_iff hs).mpr h]
  simp [hseen]

omit [Field K] [LinearOrder K] in
theorem storyOf_lost (hs : s.Ordered) (h : (tid, track) ∈ s.tracks) (hlost : track.lostFrames ≠ 0) :
    storyOf tid (states ++ [s]) = storyOf tid states := by
  rw [storyOf_snoc, (lookup_iff hs).mpr h]
  simp [hlost]

omit [Field K] [LinearOrder K] in
theorem storyOf_gone (h : tid ∉ s.ids) : storyOf tid (states ++ [s]) = storyOf tid states := by
  rw [storyOf_snoc, lookup_eq_none h]
  simp

/-! ## What a frame does to the tracks -/

/-- A track is matched with a detection that is there. -/
def Matching.Within (m : Matching K) (n : Nat) : Prop := ∀ pair ∈ m.pairs, pair.2 < n

omit [Field K] [LinearOrder K] in
theorem Matching.Within.pair {m : Matching K} {n : Nat} (h : m.Within n) (hd : d < n) : (m.pair i d).Within n := by
  intro pair hp
  obtain hp | hp := List.mem_append.mp hp
  · exact h pair hp
  · cases List.mem_singleton.mp hp
    exact hd

omit [Field K] [LinearOrder K] in
theorem Matching.Within.foldl {α : Type} {m : Matching K} {n : Nat} {f : Matching K → α → Matching K} (h : m.Within n)
    (hf : ∀ m a, m.Within n → (f m a).Within n) (as : List α) : (as.foldl f m).Within n :=
  List.foldlRecOn as f h fun m hm a _ => hf m a hm

omit [Field K] [LinearOrder K] in
theorem scan_mem {better : K → K → Bool} {value : DetectionBox K → K} {used : List Bool} {best : K} {idx : Option Nat}
    {ds : List (DetectionBox K × Nat)} (h : scan better value used best idx ds = some d) :
    idx = some d ∨ ∃ det, (det, d) ∈ ds := by
  induction ds generalizing best idx with
  | nil => exact .inl h
  | cons kv ds ih =>
    obtain ⟨det, k⟩ := kv
    rw [scan] at h
    split at h
    · obtain hi | ⟨det', hm⟩ := ih h
      · exact .inl hi
      · exact .inr ⟨det', List.mem_cons_of_mem _ hm⟩
    split at h
    · obtain hi | ⟨det', hm⟩ := ih h
      · cases hi
        exact .inr ⟨det, List.mem_cons_self⟩
      · exact .inr ⟨det', List.mem_cons_of_mem _ hm⟩
    · obtain hi | ⟨det', hm⟩ := ih h
      · exact .inl hi
      · exact .inr ⟨det', List.mem_cons_of_mem _ hm⟩

omit [Field K] [LinearOrder K] in
theorem scan_lt {better : K → K → Bool} {value : DetectionBox K → K} {used : List Bool} {best : K}
    (h : scan better value used best none detections.zipIdx = some d) : d < detections.length := by
  obtain hn | ⟨det, hm⟩ := scan_mem h
  · cases hn
  · exact (List.mem_zipIdx' hm).1

theorem within_byIoU (cfg : TrackerConfig K) (m : Matching K) (t : Nat × TrackedPerson K) (h : m.Within detections.length) :
    (Cpp.matchByIoU cfg detections m t).Within detections.length := by
  unfold Cpp.matchByIoU
  split
  next hscan => exact h.pair (scan_lt hscan)
  next => exact h

theorem within_byDistance (hypot : K → K → K) (cfg : TrackerConfig K) (m : Matching K) (t : Nat × TrackedPerson K)
    (h : m.Within detections.length) :
    (Cpp.matchByDistance hypot cfg detections m t).Within detections.length := by
  unfold Cpp.matchByDistance
  split
  next => exact h
  next =>
    dsimp only
    split
    next hscan => exact h.pair (scan_lt hscan)
    next => exact h

theorem matched_lt {tracks : List (Nat × TrackedPerson K)} (h : (i, d) ∈ Cpp.matchDetections hypot cfg tracks detections) :
    d < detections.length := by
  unfold Cpp.matchDetections at h
  split at h
  · cases h
  · have hempty : (⟨[], detections.map fun _ => false, []⟩ : Matching K).Within detections.length :=
      fun pair hp => by cases hp
    have hiou := hempty.foldl (within_byIoU cfg) (tracks.insertionSort Cpp.older)
    exact hiou.foldl (within_byDistance hypot cfg) _ (i, d) h

omit [Field K] [LinearOrder K] in
theorem mem_put (h : (i, track) ∈ (s.put tid last).tracks) : (i = tid ∧ track = last) ∨ (i ≠ tid ∧ (i, track) ∈ s.tracks) := by
  obtain ⟨kv, hkv, he⟩ := List.mem_map.mp h
  split at he
  next => cases he; exact .inl ⟨rfl, rfl⟩
  next hne => cases he; exact .inr ⟨hne, hkv⟩

/-- The matches of a frame: a track that is matched is matched once. -/
theorem mem_foldl_moveTrack (hs : s.Ordered) (hn : (pairs.map (·.1)).Nodup) (hlt : ∀ pair ∈ pairs, pair.2 < detections.length)
    (h : (i, track) ∈ (pairs.foldl (moveTrack hypot cfg detections dt now) s).tracks) :
    (i ∉ pairs.map (·.1) ∧ (i, track) ∈ s.tracks) ∨
      (i ∈ pairs.map (·.1) ∧ ∃ old det, (i, old) ∈ s.tracks ∧ track = rematch hypot cfg old det dt now) := by
  induction pairs generalizing s with
  | nil => exact .inl ⟨List.not_mem_nil, h⟩
  | cons pair pairs ih =>
    rw [List.map_cons, List.nodup_cons] at hn
    obtain ⟨hnot, hn⟩ := hn
    have hd : pair.2 < detections.length := hlt pair List.mem_cons_self
    obtain ⟨hids, hnext, -⟩ := moveTrack_frame hypot cfg detections dt now s pair
    -- The first match puts its track, and leaves the others alone.
    have hfirst : ∀ tr, (i, tr) ∈ (moveTrack hypot cfg detections dt now s pair).tracks →
        (i = pair.1 ∧ ∃ old det, (i, old) ∈ s.tracks ∧ tr = rematch hypot cfg old det dt now) ∨
          (i ≠ pair.1 ∧ (i, tr) ∈ s.tracks) := by
      intro tr htr
      unfold moveTrack at htr
      rw [List.getElem?_eq_getElem hd] at htr
      cases hl : s.tracks.lookup pair.1 with
      | none =>
        rw [hl] at htr
        refine .inr ⟨fun he => ?_, htr⟩
        have hsome := (lookup_iff hs).mpr htr
        rw [he, hl] at hsome
        cases hsome
      | some old =>
        rw [hl] at htr
        obtain ⟨rfl, rfl⟩ | hother := mem_put htr
        · exact .inl ⟨rfl, old, _, (lookup_iff hs).mp hl, rfl⟩
        · exact .inr hother
    obtain ⟨hout, hm⟩ | ⟨hin, old, det, hold, rfl⟩ := ih (ordered_of_ids hs hids hnext) hn
      (fun p hp => hlt p (List.mem_cons_of_mem _ hp)) h
    · obtain ⟨rfl, hold⟩ | ⟨hne, hm⟩ := hfirst track hm
      · exact .inr ⟨List.mem_cons_self, hold⟩
      · exact .inl ⟨fun hmem => (List.mem_cons.mp hmem).elim hne hout, hm⟩
    · obtain ⟨rfl, -⟩ | ⟨-, hm⟩ := hfirst old hold
      · exact absurd hin hnot
      · exact .inr ⟨List.mem_cons_of_mem _ hin, old, det, hm, rfl⟩

theorem removeTrack_cases (cfg : TrackerConfig K) (now : K) (s : Tracker K) (i : Nat) :
    (s.tracks.lookup i = none ∧ Cpp.removeTrack cfg now s i = s) ∨
      ∃ track, s.tracks.lookup i = some track ∧ (Cpp.removeTrack cfg now s i).tracks = s.tracks.filter (·.1 ≠ i) ∧
        (Cpp.removeTrack cfg now s i).removed = s.removed ++ [Cpp.trackRecord cfg track now] ∧
        (Cpp.removeTrack cfg now s i).nextId = s.nextId ∧ (Cpp.removeTrack cfg now s i).lastUpdate = s.lastUpdate := by
  unfold Cpp.removeTrack
  cases hl : s.tracks.lookup i with
  | none => exact .inl ⟨rfl, rfl⟩
  | some track =>
    refine .inr ⟨track, rfl, ?_⟩
    dsimp only
    split
    · split
      · exact ⟨rfl, rfl, rfl, rfl⟩
      · split <;> exact ⟨rfl, rfl, rfl, rfl⟩
    · exact ⟨rfl, rfl, rfl, rfl⟩

variable (cfg now) in
/-- The tracks of these ids are removed, and there is a record of each. -/
theorem foldl_removeTrack (hs : s.Ordered) (is : List Nat) :
    let s' := is.foldl (Cpp.removeTrack cfg now) s
    (∀ i track, (i, track) ∈ s'.tracks → (i, track) ∈ s.tracks ∧ i ∉ is) ∧
      (∀ record ∈ s'.removed, record ∈ s.removed ∨
        ∃ i ∈ is, ∃ track, (i, track) ∈ s.tracks ∧ record = Cpp.trackRecord cfg track now) ∧
      s'.nextId = s.nextId ∧ s'.lastUpdate = s.lastUpdate := by
  induction is generalizing s with
  | nil => exact ⟨fun i track h => ⟨h, List.not_mem_nil⟩, fun record h => .inl h, rfl, rfl⟩
  | cons k is ih =>
    obtain ⟨htracks, hrecords, hnext, hlast⟩ := ih (ordered_removeTrack cfg now hs k)
    obtain ⟨hnone, heq⟩ | ⟨old, hold, hfilter, hremoved, hnext', hlast'⟩ := removeTrack_cases cfg now s k
    · rw [heq] at htracks hrecords hnext hlast
      rw [List.foldl_cons, heq]
      refine ⟨fun i track h => ?_, fun record h => ?_, hnext, hlast⟩
      · obtain ⟨hm, hout⟩ := htracks i track h
        refine ⟨hm, fun hmem => (List.mem_cons.mp hmem).elim (fun he => ?_) hout⟩
        rw [← lookup_iff hs, he, hnone] at hm
        cases hm
      · exact (hrecords record h).imp_right fun ⟨i, hi, hrest⟩ => ⟨i, List.mem_cons_of_mem _ hi, hrest⟩
    · have hmem : ∀ {i track}, (i, track) ∈ (Cpp.removeTrack cfg now s k).tracks → (i, track) ∈ s.tracks ∧ i ≠ k := by
        intro i track h
        rw [hfilter] at h
        obtain ⟨hm, hne⟩ := List.mem_filter.mp h
        exact ⟨hm, of_decide_eq_true hne⟩
      refine ⟨fun i track h => ?_, fun record h => ?_, hnext.trans hnext', hlast.trans hlast'⟩
      · obtain ⟨hm, hout⟩ := htracks i track h
        obtain ⟨hm, hne⟩ := hmem hm
        exact ⟨hm, fun hin => (List.mem_cons.mp hin).elim hne hout⟩
      · obtain hr | ⟨i, hi, track, hm, rfl⟩ := hrecords record h
        · rw [hremoved, List.mem_append, List.mem_singleton] at hr
          obtain hr | rfl := hr
          · exact .inl hr
          · exact .inr ⟨k, List.mem_cons_self, old, (lookup_iff hs).mp hold, rfl⟩
        · exact .inr ⟨i, List.mem_cons_of_mem _ hi, track, (hmem hm).1, rfl⟩

variable (cfg now) in
/-- What is added is new. -/
theorem foldl_addTrack (matched : List Nat) (ds : List (DetectionBox K × Nat)) (s : Tracker K) :
    let s' := ds.foldl (Cpp.addTrack cfg now matched) s
    (∀ i track, (i, track) ∈ s'.tracks → (i, track) ∈ s.tracks ∨
        s.nextId ≤ i ∧ ∃ det, track = Cpp.newTrack cfg i det now) ∧
      s'.removed = s.removed ∧ s.nextId ≤ s'.nextId ∧ s'.lastUpdate = s.lastUpdate := by
  induction ds generalizing s with
  | nil => exact ⟨fun i track h => .inl h, rfl, Nat.le_refl _, rfl⟩
  | cons d ds ih =>
    obtain ⟨htracks, hremoved, hnext, hlast⟩ := ih (Cpp.addTrack cfg now matched s d)
    by_cases hin : d.2 ∈ matched
    · have heq : Cpp.addTrack cfg now matched s d = s := by rw [Cpp.addTrack, if_pos hin]
      rw [List.foldl_cons, heq]
      rw [heq] at htracks hremoved hnext hlast
      exact ⟨htracks, hremoved, hnext, hlast⟩
    · unfold Cpp.addTrack at htracks hremoved hnext hlast
      rw [if_neg hin] at htracks hremoved hnext hlast
      rw [List.foldl_cons, Cpp.addTrack, if_neg hin]
      refine ⟨fun i track h => ?_, hremoved, Nat.le_of_succ_le hnext, hlast⟩
      obtain hm | ⟨hle, hnew⟩ := htracks i track h
      · obtain he | hm := (List.mem_orderedInsert _).mp hm
        · cases he
          exact .inr ⟨Nat.le_refl _, d.1, rfl⟩
        · exact .inl hm
      · exact .inr ⟨Nat.le_of_succ_le hle, hnew⟩

/-- What the matches leave alone. -/
theorem foldl_moveTrack_rest (s : Tracker K) (pairs : List (Nat × Nat)) :
    let s' := pairs.foldl (moveTrack hypot cfg detections dt now) s
    s'.removed = s.removed ∧ s'.nextId = s.nextId ∧ s'.lastUpdate = s.lastUpdate := by
  refine List.foldlRecOn (motive := fun t : Tracker K => t.removed = s.removed ∧ t.nextId = s.nextId ∧
    t.lastUpdate = s.lastUpdate) pairs _ ⟨rfl, rfl, rfl⟩ fun t ht pair _ => ?_
  unfold moveTrack
  split <;> exact ht

variable (hypot cfg detections now) in
/-- **What a frame does to the tracks.** One that is there after it has been
matched, or lost one frame more, or is new. Of one that is removed there is a
record. -/
theorem update_tracks (hs : s.Ordered) :
    let s' := Cpp.update hypot cfg s (persons detections) now
    s'.Ordered ∧ s'.lastUpdate = now ∧ s.nextId ≤ s'.nextId ∧
      (∀ i track, (i, track) ∈ s'.tracks →
        (∃ old det, (i, old) ∈ s.tracks ∧ track = rematch hypot cfg old det (s.elapsed now) now) ∨
        (∃ old, (i, old) ∈ s.tracks ∧ track = { old with lostFrames := old.lostFrames + 1 }) ∨
        s.nextId ≤ i ∧ ∃ det, track = Cpp.newTrack cfg i det now) ∧
      ∀ record ∈ s'.removed, record ∈ s.removed ∨ ∃ i old, (i, old) ∈ s.tracks ∧ i ∉ s'.ids ∧
        record = Cpp.trackRecord cfg old now := by
  intro s'
  obtain ⟨pairs, hpairs⟩ : ∃ pairs, pairs = Cpp.matchDetections hypot cfg s.tracks detections := ⟨_, rfl⟩
  obtain ⟨e, x, hs'⟩ : ∃ e x, s' = settle cfg detections now pairs ((frameOf hypot cfg s detections now).withCounts e x) :=
    ⟨_, _, (cpp_update hs).trans (by rw [hpairs])⟩
  have hn : (pairs.map (·.1)).Nodup := hpairs ▸ matched_nodup (ascending_of_ordered hs)
  have hlt : ∀ pair ∈ pairs, pair.2 < detections.length := fun pair hp => matched_lt (i := pair.1) (hpairs ▸ hp)
  -- The four stages: matched, lost, without those lost too long, and with the new ones.
  obtain ⟨moved, hmoved⟩ : ∃ moved, moved = (frameOf hypot cfg s detections now).withCounts e x := ⟨_, rfl⟩
  obtain ⟨hrest, hnext₁, hlast₁⟩ : moved.removed = s.removed ∧ moved.nextId = s.nextId ∧ moved.lastUpdate = now := by
    rw [hmoved]
    exact foldl_moveTrack_rest { s with lastUpdate := now } _
  have hordered₀ : ({ s with lastUpdate := now } : Tracker K).Ordered := ordered_of_ids hs rfl rfl
  have hordered₁ : moved.Ordered := hmoved ▸ ordered_of_ids (ordered_foldl_moveTrack hordered₀) rfl rfl
  have hmatch : ∀ i track, (i, track) ∈ moved.tracks → (i ∉ pairs.map (·.1) ∧ (i, track) ∈ s.tracks) ∨
      (i ∈ pairs.map (·.1) ∧ ∃ old det, (i, old) ∈ s.tracks ∧ track = rematch hypot cfg old det (s.elapsed now) now) := by
    intro i track h
    rw [hmoved, Tracker.tracks_withCounts, frameOf, ← hpairs] at h
    exact mem_foldl_moveTrack (s := { s with lastUpdate := now }) hordered₀ hn hlt h
  have hordered₂ : (moved.loseAll pairs).Ordered := ordered_of_ids hordered₁ ids_loseAll rfl
  have hlose : ∀ i track, (i, track) ∈ (moved.loseAll pairs).tracks →
      (∃ old det, (i, old) ∈ s.tracks ∧ track = rematch hypot cfg old det (s.elapsed now) now ∧ i ∈ pairs.map (·.1)) ∨
        ∃ old, (i, old) ∈ s.tracks ∧ track = { old with lostFrames := old.lostFrames + 1 } := by
    intro i track h
    obtain ⟨⟨j, tr⟩, hm, he⟩ := List.mem_map.mp h
    unfold Cpp.lose at he
    split at he
    next hin =>
      cases he
      obtain ⟨hout, -⟩ | ⟨-, old, det, hold, rfl⟩ := hmatch _ _ hm
      · exact absurd hin hout
      · exact .inl ⟨old, det, hold, rfl, hin⟩
    next hout =>
      cases he
      obtain ⟨-, hold⟩ | ⟨hin, -⟩ := hmatch _ _ hm
      · exact .inr ⟨tr, hold, rfl⟩
      · exact absurd hin hout
  obtain ⟨left, hleft⟩ : ∃ left, left = ((moved.loseAll pairs).overdue cfg pairs).foldl (Cpp.removeTrack cfg now)
    (moved.loseAll pairs) := ⟨_, rfl⟩
  obtain ⟨htracks₃, hrecords₃, hnext₃, hlast₃⟩ :=
    foldl_removeTrack cfg now hordered₂ ((moved.loseAll pairs).overdue cfg pairs)
  rw [← hleft] at htracks₃ hrecords₃ hnext₃ hlast₃
  obtain ⟨htracks₄, hremoved₄, hnext₄, hlast₄⟩ :=
    foldl_addTrack cfg now (pairs.map (·.2)) detections.zipIdx left
  have hs'' : s' = detections.zipIdx.foldl (Cpp.addTrack cfg now (pairs.map (·.2))) left := by
    rw [hs', ← hmoved, hleft]
    rfl
  rw [← hs''] at htracks₄ hremoved₄ hnext₄ hlast₄
  have hnext : left.nextId = s.nextId := hnext₃.trans hnext₁
  refine ⟨(setup_update hypot cfg detections now hs).2, ?_, hnext ▸ hnext₄, fun i track h => ?_, fun record h => ?_⟩
  · exact hlast₄.trans (hlast₃.trans hlast₁)
  · obtain hm | ⟨hle, hnew⟩ := htracks₄ i track h
    · obtain ⟨old, det, hold, rfl, -⟩ | hlost := hlose i track (htracks₃ i track hm).1
      · exact .inl ⟨old, det, hold, rfl⟩
      · exact .inr (.inl hlost)
    · exact .inr (.inr ⟨hnext ▸ hle, hnew⟩)
  · rw [hremoved₄] at h
    obtain hr | ⟨i, hi, track, hm, rfl⟩ := hrecords₃ record h
    · exact .inl (hrest ▸ hr)
    · have hover : i ∉ pairs.map (·.1) := by
        obtain ⟨⟨j, tr⟩, hj, rfl⟩ := List.mem_map.mp hi
        exact (of_decide_eq_true (List.mem_filter.mp hj).2).1
      obtain ⟨old, det, hold, rfl, hin⟩ | ⟨old, hold, rfl⟩ := hlose i track hm
      · exact absurd hin hover
      · refine .inr ⟨i, old, hold, fun hid => ?_, rfl⟩
        obtain ⟨tr, htr⟩ := mem_ids.mp hid
        obtain htr | ⟨hle, -⟩ := htracks₄ i tr htr
        · exact (htracks₃ i tr htr).2 hi
        · have hbelow := hs.below i (List.mem_map_of_mem hold)
          omega

/-! ## Stories -/

theorem Story.snoc {story : List (TrackedPerson K)} (h : Story hypot cfg (story ++ [last])) (det : DetectionBox K) (dt : K)
    (hnow : last.lastSeenTime ≤ now) : Story hypot cfg (story ++ [last] ++ [rematch hypot cfg last det dt now]) :=
  .matched h det dt hnow

/-- **What a new track has, and each match keeps**, the last of a story has. -/
theorem Story.keeps {I : List (TrackedPerson K) → TrackedPerson K → Prop} {story : List (TrackedPerson K)}
    (h : Story hypot cfg (story ++ [last]))
    (hnew : ∀ tid det now, 0 < now → I [Cpp.newTrack cfg tid det now] (Cpp.newTrack cfg tid det now))
    (hmatched : ∀ story last track now, I (story ++ [last]) last → Dwells cfg last track now → track.lastSeenTime = now →
      last.lastSeenTime ≤ now → I (story ++ [last] ++ [track]) track) : I (story ++ [last]) last := by
  obtain ⟨whole, hwhole⟩ : ∃ whole, whole = story ++ [last] := ⟨_, rfl⟩
  rw [← hwhole] at h ⊢
  induction h generalizing story last with
  | new tid det hnow =>
    obtain ⟨rfl, hl⟩ := @List.append_inj' _ [] _ _ _ hwhole rfl
    cases hl
    exact hnew tid det _ hnow
  | @matched before old now h det dt hnow ih =>
    obtain ⟨-, hl⟩ := List.append_inj' hwhole rfl
    cases hl
    obtain ⟨-, -, hseen, hd⟩ := rematch_spec hypot cfg old det dt now
    exact hmatched before old _ now (ih rfl) hd hseen hnow

theorem Tells.seen_again (h : Tells hypot cfg states tid last s.lastUpdate) (hle : s.lastUpdate ≤ now) (hs' : s'.Ordered)
    {det : DetectionBox K} (hm : (tid, rematch hypot cfg last det dt now) ∈ s'.tracks) :
    Tells hypot cfg (states ++ [s']) tid (rematch hypot cfg last det dt now) now := by
  obtain ⟨⟨story, hstory, hs⟩, hid, hseen⟩ := h
  obtain ⟨hid', hlost, htime, -⟩ := rematch_spec hypot cfg last det dt now
  refine ⟨⟨story ++ [last], ?_, hs.snoc det dt (hseen.trans hle)⟩, hid'.trans hid, le_of_eq htime⟩
  rw [storyOf_seen hs' hm hlost, hstory]

theorem Tells.same (h : Tells hypot cfg states tid last dt) (hle : dt ≤ now)
    (hstory : storyOf tid (states ++ [s']) = storyOf tid states) : Tells hypot cfg (states ++ [s']) tid last now :=
  ⟨hstory ▸ h.story, h.trackId, h.seen.trans hle⟩

variable (detections) in
/-- **A frame**: the story of each track goes on. -/
theorem Told.update (h : Told hypot cfg states s) (hpos : 0 < now) (hle : s.lastUpdate ≤ now) :
    Told hypot cfg (states ++ [Cpp.update hypot cfg s (persons detections) now])
      (Cpp.update hypot cfg s (persons detections) now) := by
  obtain ⟨hs', hlast, hnext, htracks, hrecords⟩ := update_tracks hypot cfg detections now h.ordered
  generalize Cpp.update hypot cfg s (persons detections) now = s' at hs' hlast hnext htracks hrecords
  refine ⟨hs', fun tid htid => ?_, fun tid track hm => ?_, fun record hr => ?_⟩
  · rw [storyOf_gone fun hin => absurd (hs'.below tid hin) (Nat.not_lt.mpr htid)]
    exact h.unborn tid (hnext.trans htid)
  · obtain ⟨old, det, hold, rfl⟩ | ⟨old, hold, rfl⟩ | ⟨hborn, det, rfl⟩ := htracks tid track hm
    · obtain ⟨last, lost, rfl, htells⟩ := h.tracks tid old hold
      rw [rematch_lost] at hm ⊢
      have hzero : (rematch hypot cfg last det (s.elapsed now) now).lostFrames = 0 :=
        (rematch_spec hypot cfg last det (s.elapsed now) now).2.1
      refine ⟨rematch hypot cfg last det (s.elapsed now) now, 0, ?_, ?_⟩
      · rw [← hzero]
      · rw [hlast]
        exact htells.seen_again hle hs' hm
    · obtain ⟨last, lost, rfl, htells⟩ := h.tracks tid old hold
      refine ⟨last, lost + 1, rfl, htells.same (hlast ▸ hle) ?_⟩
      exact storyOf_lost hs' hm (Nat.succ_ne_zero _)
    · refine ⟨_, 0, rfl, ⟨[], ?_, .new tid det hpos⟩, rfl, le_of_eq hlast.symm⟩
      rw [storyOf_seen hs' hm rfl, h.unborn tid hborn]
  · obtain hr | ⟨tid, old, hold, hgone, rfl⟩ := hrecords record hr
    · obtain ⟨hlt, hout, last, heq, htells⟩ := h.records record hr
      have hgone : record.trackId ∉ s'.ids := by
        intro hin
        obtain ⟨track, hm⟩ := mem_ids.mp hin
        obtain ⟨old, det, hold, -⟩ | ⟨old, hold, -⟩ | ⟨hborn, -⟩ := htracks _ track hm
        · exact hout (mem_ids.mpr ⟨old, hold⟩)
        · exact hout (mem_ids.mpr ⟨old, hold⟩)
        · omega
      exact ⟨hlt.trans_le hnext, hgone, last, heq, htells.same le_rfl (storyOf_gone hgone)⟩
    · obtain ⟨last, lost, rfl, htells⟩ := h.tracks tid old hold
      have hid : (Cpp.trackRecord cfg { last with lostFrames := lost } now).trackId = tid := htells.trackId
      rw [hid]
      have hlt := h.ordered.below tid (List.mem_map_of_mem hold)
      exact ⟨hlt.trans_le hnext, hgone, last, rfl, htells.same hle (storyOf_gone hgone)⟩

/-! ## Runs -/

/-- The frames come at positive times that do not go back. -/
def InTime (times : List K) : Prop := (∀ t ∈ times, 0 < t) ∧ times.Pairwise (· ≤ ·)

theorem cpp_update_persons (s : Tracker K) (f : ClassedFrame K) :
    Cpp.update hypot cfg s f.1 f.2 = Cpp.update hypot cfg s (persons f.persons.1) f.2 := by
  unfold Cpp.update
  rw [filter_persons]
  rfl

theorem inTime_init {frames : List (ClassedFrame K)} {f : ClassedFrame K} (h : InTime ((frames ++ [f]).map (·.2))) :
    InTime (frames.map (·.2)) := by
  rw [List.map_append] at h
  exact ⟨fun t ht => h.1 t (List.mem_append_left _ ht), (List.pairwise_append.mp h.2).1⟩

/-- What has been told after some frames goes on with more of them. -/
theorem told_states (frames : List (ClassedFrame K)) (h : Told hypot cfg states s)
    (htimes : InTime (frames.map (·.2))) (hfrom : ∀ t ∈ frames.map (·.2), s.lastUpdate ≤ t) :
    Told hypot cfg (states ++ Cpp.states hypot cfg s frames) (Cpp.updates hypot cfg s frames) := by
  induction frames generalizing s states with
  | nil => simpa [Cpp.states, Cpp.updates] using h
  | cons f frames ih =>
    rw [List.map_cons] at htimes hfrom
    obtain ⟨hpos, hpairwise⟩ := htimes
    obtain ⟨hfirst, hpairwise⟩ := List.pairwise_cons.mp hpairwise
    have hnext := h.update f.persons.1 (hpos f.2 List.mem_cons_self) (hfrom f.2 List.mem_cons_self)
    have hlast := (update_tracks hypot cfg f.persons.1 f.2 h.ordered).2.1
    rw [← cpp_update_persons] at hnext hlast
    have hrun : Cpp.updates hypot cfg s (f :: frames) = Cpp.updates hypot cfg (Cpp.update hypot cfg s f.1 f.2) frames := rfl
    rw [Cpp.states, hrun, ← List.singleton_append, ← List.append_assoc]
    refine ih hnext ⟨fun t ht => hpos t (List.mem_cons_of_mem _ ht), hpairwise⟩ fun t ht => ?_
    rw [hlast]
    exact hfirst t ht

omit [LinearOrder K] in
theorem start_lastUpdate (setup : Setup K) : (Cpp.start setup).lastUpdate = 0 := by
  obtain ⟨zone, line⟩ := setup
  cases zone <;> cases line <;> rfl

theorem told_start (setup : Setup K) : Told hypot cfg [] (Cpp.start setup) := by
  obtain ⟨htracks, hremoved⟩ : (Cpp.start setup).tracks = [] ∧ (Cpp.start setup).removed = [] := by
    obtain ⟨zone, line⟩ := setup
    cases zone <;> cases line <;> exact ⟨rfl, rfl⟩
  refine ⟨(start_facts setup).1, fun _ _ => rfl, fun tid track hm => ?_, fun record hr => ?_⟩
  · rw [htracks] at hm
    cases hm
  · rw [hremoved] at hr
    cases hr

variable (hypot cfg) in
/-- **The tracks and the records of a run have their stories.** -/
theorem told_run (setup : Setup K) {frames : List (ClassedFrame K)} (htimes : InTime (frames.map (·.2))) :
    Told hypot cfg (Cpp.states hypot cfg (Cpp.start setup) frames) (Cpp.updates hypot cfg (Cpp.start setup) frames) := by
  refine told_states frames (told_start setup) htimes fun t ht => ?_
  rw [start_lastUpdate]
  exact (htimes.1 t ht).le

theorem updates_snoc (s : Tracker K) (frames : List (ClassedFrame K)) (f : ClassedFrame K) :
    Cpp.updates hypot cfg s (frames ++ [f]) = Cpp.update hypot cfg (Cpp.updates hypot cfg s frames) f.1 f.2 :=
  List.foldl_concat _ _ _ _

/-- A frame does not come before the one that was last. -/
theorem updates_le (setup : Setup K) {frames : List (ClassedFrame K)} {f : ClassedFrame K}
    (htimes : InTime ((frames ++ [f]).map (·.2))) : (Cpp.updates hypot cfg (Cpp.start setup) frames).lastUpdate ≤ f.2 := by
  obtain rfl | ⟨before, f', rfl⟩ := List.eq_nil_or_concat' frames
  · rw [List.nil_append, List.map_singleton] at htimes
    exact (start_lastUpdate setup).trans_le (htimes.1 f.2 List.mem_cons_self).le
  · have hbefore := (told_run hypot cfg setup (inTime_init (inTime_init htimes))).ordered
    rw [updates_snoc, cpp_update_persons, (update_tracks hypot cfg _ _ hbefore).2.1]
    have hpairwise := htimes.2
    rw [List.map_append, List.pairwise_append] at hpairwise
    exact hpairwise.2.2 f'.2 (by simp) f.2 (by simp)

/-- A frame of persons, as the C++ tracker gets it. -/
def Frame.classed (f : Frame K) : ClassedFrame K := (PersonTracker.persons f.1, f.2)

omit [Field K] [LinearOrder K] in
theorem classed_times (frames : List (Frame K)) : (frames.map Frame.classed).map (·.2) = frames.map (·.2) := by
  rw [List.map_map]
  rfl

/-- The Python tracker and the C++ one differ in their counts at most. -/
def Alike (p c : Tracker K) : Prop := (∃ e x, p = c.withCounts e x) ∧ (c.lineEnabled = false → p = c)

variable (hypot cfg) in
/-- A frame keeps them alike. -/
theorem Alike.update {p c : Tracker K} (h : Alike p c) (hs : c.Ordered) (f : Frame K) :
    Alike (Py.update hypot cfg p f.1 f.2) (Cpp.update hypot cfg c f.classed.1 f.2) := by
  obtain ⟨⟨e, x, rfl⟩, heq⟩ := h
  have hsetup := (setup_update hypot cfg f.1 f.2 hs).1
  simp only [Tracker.setup, Prod.mk.injEq] at hsetup
  cases hline : c.lineEnabled with
  | true =>
    refine ⟨⟨_, _, (update_counts hypot cfg _ _ hs hline e x).1⟩, fun hfalse => ?_⟩
    rw [Frame.classed, hsetup.1, hline] at hfalse
    cases hfalse
  | false =>
    rw [heq hline, update_eq hs hline]
    exact ⟨⟨_, _, Tracker.withCounts_self _⟩, fun _ => rfl⟩

omit [Field K] [LinearOrder K] in
theorem storyOf_congr {states' : List (Tracker K)} (h : states.map Tracker.tracks = states'.map Tracker.tracks) (tid : Nat) :
    storyOf tid states = storyOf tid states' := by
  have hmap : ∀ ss : List (Tracker K), storyOf tid ss =
      (ss.map Tracker.tracks).filterMap fun tracks => (tracks.lookup tid).filter (·.lostFrames = 0) := by
    intro ss
    rw [List.filterMap_map]
    rfl
  rw [hmap, hmap, h]

variable (hypot cfg) in
/-- **A run of the Python tracker** has the tracks and the records of the C++ one. -/
theorem py_states (frames : List (Frame K)) {p c : Tracker K} (h : Alike p c) (hs : c.Ordered) :
    (Py.states hypot cfg p frames).map Tracker.tracks =
        (Cpp.states hypot cfg c (frames.map Frame.classed)).map Tracker.tracks ∧
      Alike (Py.run hypot cfg p frames) (Cpp.updates hypot cfg c (frames.map Frame.classed)) := by
  induction frames generalizing p c with
  | nil => exact ⟨rfl, h⟩
  | cons f frames ih =>
    have hnext := h.update hypot cfg hs f
    obtain ⟨hstates, hrun⟩ := ih hnext (setup_update hypot cfg _ _ hs).2
    refine ⟨?_, hrun⟩
    obtain ⟨e, x, heq⟩ := hnext.1
    rw [Py.states, List.map_cons, List.map_cons, Cpp.states, List.map_cons, hstates]
    rw [heq]
    rfl

variable (hypot cfg) in
/-- A run of both trackers from the start. -/
theorem py_run (setup : Setup K) (frames : List (Frame K)) :
    (Py.run hypot cfg (Py.start setup) frames).tracks =
        (Cpp.updates hypot cfg (Cpp.start setup) (frames.map Frame.classed)).tracks ∧
      (Py.run hypot cfg (Py.start setup) frames).removed =
        (Cpp.updates hypot cfg (Cpp.start setup) (frames.map Frame.classed)).removed ∧
      ∀ tid, storyOf tid (Py.states hypot cfg (Py.start setup) frames) =
        storyOf tid (Cpp.states hypot cfg (Cpp.start setup) (frames.map Frame.classed)) := by
  have halike : Alike (Py.start setup) (Cpp.start setup) :=
    ⟨⟨_, _, (start_eq setup).trans (Tracker.withCounts_self _).symm⟩, fun _ => start_eq setup⟩
  obtain ⟨hstates, ⟨e, x, heq⟩, -⟩ := py_states hypot cfg frames halike (start_facts setup).1
  refine ⟨?_, ?_, storyOf_congr hstates⟩
  · rw [heq]
    rfl
  · rw [heq]
    rfl

/-! ## A person to follow -/

/-- `hypot` of two legs one of which is zero. -/
def axisHypot (x y : ℚ) : ℚ := |x| + |y|

def personAt (x : ℚ) : DetectionBox ℚ := { x := x, y := 0.5, w := 0.2, h := 0.2, score := 0.9 }

/-- Frames with one person in each, or nobody, that come a second apart. -/
def framesOf (xs : List (Option ℚ)) : List (Frame ℚ) :=
  xs.zipIdx.map fun x => ((x.1.map personAt).toList, (x.2 : ℚ) + 1)

end RetailVision.PersonTracker
