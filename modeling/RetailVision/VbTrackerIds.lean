/-
The identity laws of `vb::Tracker`: what its ids are after any calls of
`update`. A call pairs each track with at most one detection and each detection
with at most one track (`Matching.Ok`), gives up tracks that have no detection,
and makes a new track of each detection that has none (`update_spec`); what one
call does to the ids is then followed through the calls (`calls_later`).
-/
import RetailVision.VbTracker
import RetailVision.Lib.Parallel
import Mathlib.Data.List.Nodup

set_option linter.all false

namespace RetailVision.Vb

variable {F D : Type} {cfg : TrackerConfig F} {tMonoS dt : D} {kpts : List (Keypoint F)}
  {tracks : List (Track F D)} {dets : List (Detection F)} {m : Matching F D} {tr : Track F D} {det : Detection F}
  {i d oi : Nat}

/-! ## Matching -/

/-- What the loop over the detections finds is a detection of the list, neither
used nor ruled out. -/
theorem scan_spec {better : F → F → Bool} {value : Detection F → F} {ok : Detection F → Bool}
    {used : List Bool} {bound : F} {best : Option Nat} {l : List (Detection F × Nat)}
    (h : scan better value ok used bound best l = some d) :
    best = some d ∨ ∃ det, (det, d) ∈ l ∧ used.getD d false = false ∧ ok det = true := by
  induction l generalizing bound best with
  | nil => exact .inl h
  | cons x l ih =>
    obtain ⟨det, e⟩ := x
    have hrest : ∀ {bound best}, scan better value ok used bound best l = some d →
        best = some d ∨ ∃ det', (det', d) ∈ (det, e) :: l ∧ used.getD d false = false ∧ ok det' = true := by
      intro bound best h
      refine (ih h).imp_right fun h => ?_
      obtain ⟨det', hm, h⟩ := h
      exact ⟨det', List.mem_cons_of_mem _ hm, h⟩
    rw [scan] at h
    split at h
    next => exact hrest h
    next hu =>
      split at h
      next => exact hrest h
      next hok =>
        split at h
        next =>
          refine (hrest h).elim (fun he => ?_) .inr
          cases he
          exact .inr ⟨det, List.mem_cons_self, by simpa using hu, by simpa using hok⟩
        next => exact hrest h

/-- Among the detections of a frame. -/
theorem scan_dets {better : F → F → Bool} {value : Detection F → F} {ok : Detection F → Bool}
    {used : List Bool} {bound : F} (h : scan better value ok used bound none dets.zipIdx = some d) :
    used.getD d false = false ∧ ∃ det, dets[d]? = some det ∧ ok det = true := by
  obtain he | ⟨det, hm, hu, hok⟩ := scan_spec h
  · cases he
  · exact ⟨hu, det, List.mem_zipIdx_iff_getElem?.mp hm, hok⟩

/-- `track_match` pairs the tracks with detections of their own. -/
structure Matched (cfg : TrackerConfig F) (tracks : List (Track F D)) (dets : List (Detection F)) (trackMatch : List (Option Nat)) :
    Prop where
  length : trackMatch.length = tracks.length
  inj : ∀ {i j d : Nat}, trackMatch[i]? = some (some d) → trackMatch[j]? = some (some d) → i = j
  classes : ∀ {i d : Nat} {tr : Track F D}, trackMatch[i]? = some (some d) → tracks[i]? = some tr →
    ∃ det, dets[d]? = some det ∧ classOk cfg tr.det det = true

/-- And `det_used` marks these detections. -/
structure Matching.Ok (cfg : TrackerConfig F) (tracks : List (Track F D)) (dets : List (Detection F)) (m : Matching F D) : Prop
    extends Matched cfg tracks dets m.trackMatch where
  used_length : m.detUsed.length = dets.length
  used : ∀ d : Nat, m.detUsed[d]? = some true ↔ ∃ i : Nat, m.trackMatch[i]? = some (some d)

/-- Tracks without a detection, each once. -/
structure Matching.Pending (tracks : List (Track F D)) (m : Matching F D) (l : List (Track F D × Nat)) : Prop where
  nodup : (l.map (·.2)).Nodup
  track : ∀ x ∈ l, tracks[x.2]? = some x.1
  unmatched : ∀ x ∈ l, m.trackMatch[x.2]? = some none

namespace Matching

theorem Pending.tail {x : Track F D × Nat} {l : List (Track F D × Nat)} (h : m.Pending tracks (x :: l)) : m.Pending tracks l where
  nodup := (List.nodup_cons.mp h.nodup).2
  track y hy := h.track y (List.mem_cons_of_mem _ hy)
  unmatched y hy := h.unmatched y (List.mem_cons_of_mem _ hy)

/-- The others are still without. -/
theorem Pending.pair {x : Track F D × Nat} {l : List (Track F D × Nat)} (h : m.Pending tracks (x :: l)) :
    (m.pair x.2 d).Pending tracks l where
  nodup := h.tail.nodup
  track := h.tail.track
  unmatched y hy := by
    have hne : x.2 ≠ y.2 := by
      intro he
      exact (List.nodup_cons.mp h.nodup).1 (List.mem_map.mpr ⟨y, hy, he.symm⟩)
    rw [Matching.pair, List.getElem?_set_ne hne]
    exact h.tail.unmatched y hy

theorem Ok.pair (h : m.Ok cfg tracks dets) (htrack : tracks[oi]? = some tr) (hoi : m.trackMatch[oi]? = some none)
    (hd : m.detUsed.getD d false = false) (hdet : dets[d]? = some det) (hclass : classOk cfg tr.det det = true) :
    (m.pair oi d).Ok cfg tracks dets := by
  have hoi_lt : oi < m.trackMatch.length := (List.getElem?_eq_some_iff.mp hoi).1
  have hd_lt : d < m.detUsed.length := by
    rw [h.used_length]
    exact (List.getElem?_eq_some_iff.mp hdet).1
  have hfree : ∀ i : Nat, m.trackMatch[i]? ≠ some (some d) := by
    intro i hi
    have hu := (h.used d).mpr ⟨i, hi⟩
    rw [List.getD_eq_getElem?_getD, hu] at hd
    cases hd
  have hset : ∀ {j e : Nat}, (m.trackMatch.set oi (some d))[j]? = some (some e) →
      j = oi ∧ e = d ∨ j ≠ oi ∧ e ≠ d ∧ m.trackMatch[j]? = some (some e) := by
    intro j e hj
    by_cases hjo : j = oi
    · subst hjo
      rw [List.getElem?_set_self hoi_lt] at hj
      exact .inl ⟨rfl, by simpa using hj.symm⟩
    · rw [List.getElem?_set_ne (Ne.symm hjo)] at hj
      exact .inr ⟨hjo, fun he => hfree j (he ▸ hj), hj⟩
  refine ⟨⟨?_, ?_, ?_⟩, ?_, ?_⟩
  · simp only [Matching.pair, List.length_set]
    exact h.length
  · intro i j e hi hj
    obtain ⟨hio, hie⟩ | ⟨_, hie, hi⟩ := hset hi <;> obtain ⟨hjo, hje⟩ | ⟨_, hje, hj⟩ := hset hj
    · rw [hio, hjo]
    · exact absurd hie hje
    · exact absurd hje hie
    · exact h.inj hi hj
  · intro i e tr' hi htr
    obtain ⟨rfl, rfl⟩ | ⟨_, _, hi⟩ := hset hi
    · rw [htrack] at htr
      cases htr
      exact ⟨det, hdet, hclass⟩
    · exact h.classes hi htr
  · simp only [Matching.pair, List.length_set]
    exact h.used_length
  · intro e
    simp only [Matching.pair]
    by_cases he : e = d
    · subst he
      rw [List.getElem?_set_self hd_lt]
      exact iff_of_true rfl ⟨oi, List.getElem?_set_self hoi_lt⟩
    · rw [List.getElem?_set_ne (Ne.symm he), h.used e]
      refine exists_congr fun i => ?_
      by_cases hio : i = oi
      · subst hio
        rw [hoi, List.getElem?_set_self hoi_lt]
        simp [Ne.symm he]
      · rw [List.getElem?_set_ne (Ne.symm hio)]

end Matching

/-- The order is one of all the tracks, each once. -/
theorem matchOrder_pending : Matching.Pending tracks
    { detUsed := dets.map fun _ => false, trackMatch := tracks.map fun _ => none, unmatched := [] } (matchOrder tracks) := by
  have hperm : (matchOrder tracks).Perm tracks.zipIdx := List.perm_insertionSort _ _
  have htrack : ∀ x ∈ matchOrder tracks, tracks[x.2]? = some x.1 := fun x hx =>
    List.mem_zipIdx_iff_getElem?.mp (hperm.mem_iff.mp hx)
  refine ⟨?_, htrack, fun x hx => ?_⟩
  · rw [(hperm.map _).nodup_iff, List.zipIdx_map_snd]
    exact List.nodup_range'
  · rw [List.getElem?_map, htrack x hx]
    rfl

section

variable [Num F] [Num D] [Casts F D]

/-- One track of the first pass. -/
theorem matchByIou_ok {x : Track F D × Nat} {l : List (Track F D × Nat)} (h : m.Ok cfg tracks dets)
    (hp : m.Pending tracks (x :: (m.unmatched ++ l))) :
    (matchByIou cfg tMonoS dets m x).Ok cfg tracks dets ∧
      (matchByIou cfg tMonoS dets m x).Pending tracks ((matchByIou cfg tMonoS dets m x).unmatched ++ l) := by
  have hx := hp.track x List.mem_cons_self
  have hoi := hp.unmatched x List.mem_cons_self
  simp only [matchByIou]
  split
  next best hb =>
    obtain ⟨hu, det, hdet, hok⟩ := scan_dets hb
    exact ⟨h.pair hx hoi hu hdet hok, hp.pair⟩
  next =>
    refine ⟨⟨h.toMatched, h.used_length, h.used⟩, ?_⟩
    have hperm : (m.unmatched ++ [x] ++ l).Perm (x :: (m.unmatched ++ l)) := by
      rw [List.append_assoc]
      exact List.perm_middle
    exact ⟨(hperm.map _).nodup_iff.mpr hp.nodup, fun y hy => hp.track y (hperm.mem_iff.mp hy),
      fun y hy => hp.unmatched y (hperm.mem_iff.mp hy)⟩

/-- One track of the second pass. -/
theorem matchByDistance_ok {x : Track F D × Nat} {l : List (Track F D × Nat)} (h : m.Ok cfg tracks dets)
    (hp : m.Pending tracks (x :: l)) :
    (matchByDistance cfg tMonoS dets m x).Ok cfg tracks dets ∧
      (matchByDistance cfg tMonoS dets m x).Pending tracks l := by
  have hx := hp.track x List.mem_cons_self
  have hoi := hp.unmatched x List.mem_cons_self
  simp only [matchByDistance]
  split
  · exact ⟨h, hp.tail⟩
  · split
    next best hb =>
      obtain ⟨hu, det, hdet, hok⟩ := scan_dets hb
      exact ⟨h.pair hx hoi hu hdet hok, hp.pair⟩
    next => exact ⟨h, hp.tail⟩

theorem firstPass_ok {l : List (Track F D × Nat)} (h : m.Ok cfg tracks dets) (hp : m.Pending tracks (m.unmatched ++ l)) :
    (l.foldl (matchByIou cfg tMonoS dets) m).Ok cfg tracks dets ∧
      (l.foldl (matchByIou cfg tMonoS dets) m).Pending tracks
        (l.foldl (matchByIou cfg tMonoS dets) m).unmatched := by
  induction l generalizing m with
  | nil => exact ⟨h, by simpa using hp⟩
  | cons x l ih =>
    have hperm : (m.unmatched ++ x :: l).Perm (x :: (m.unmatched ++ l)) := List.perm_middle
    have hp' : m.Pending tracks (x :: (m.unmatched ++ l)) :=
      ⟨(hperm.map _).nodup_iff.mp hp.nodup, fun y hy => hp.track y (hperm.mem_iff.mpr hy),
        fun y hy => hp.unmatched y (hperm.mem_iff.mpr hy)⟩
    rw [List.foldl_cons]
    exact ih (matchByIou_ok h hp').1 (matchByIou_ok h hp').2

theorem secondPass_ok {l : List (Track F D × Nat)} (h : m.Ok cfg tracks dets) (hp : m.Pending tracks l) :
    (l.foldl (matchByDistance cfg tMonoS dets) m).Ok cfg tracks dets := by
  induction l generalizing m with
  | nil => exact h
  | cons x l ih =>
    rw [List.foldl_cons]
    exact ih (matchByDistance_ok h hp).1 (matchByDistance_ok h hp).2

theorem matchTracks_ok (tracks : List (Track F D)) (dets : List (Detection F)) :
    (matchTracks cfg tMonoS tracks dets).Ok cfg tracks dets := by
  have hnone : ∀ {i d : Nat}, (tracks.map fun _ => (none : Option Nat))[i]? ≠ some (some d) := by
    intro i d h
    rw [List.getElem?_map] at h
    cases ht : tracks[i]? <;> rw [ht] at h <;> cases h
  have hfalse : ∀ d : Nat, (dets.map fun _ => false)[d]? ≠ some true := by
    intro d h
    rw [List.getElem?_map] at h
    cases hd : dets[d]? <;> rw [hd] at h <;> cases h
  have hinit : Matching.Ok cfg tracks dets
      { detUsed := dets.map fun _ => false, trackMatch := tracks.map fun _ => none, unmatched := [] } :=
    ⟨⟨by simp, fun h => absurd h hnone, fun h => absurd h hnone⟩, by simp,
      fun d => iff_of_false (hfalse d) fun h => hnone h.choose_spec⟩
  have hpending : Matching.Pending tracks
      { detUsed := dets.map fun _ => false, trackMatch := tracks.map fun _ => none, unmatched := [] }
      ([] ++ matchOrder tracks) := matchOrder_pending
  exact secondPass_ok (firstPass_ok hinit hpending).1 (firstPass_ok hinit hpending).2

end

/-! ## The matched tracks -/

@[simp] theorem updateVelocity_trackId [Num F] [Num D] [Casts F D] {x y : F} : (updateVelocity tr x y dt).trackId = tr.trackId := by
  simp only [updateVelocity]
  split
  · rfl
  · split <;> rfl

@[simp] theorem associate_trackId [Num F] [Num D] [Casts F D] : (associate tMonoS kpts dt tr det).trackId = tr.trackId :=
  updateVelocity_trackId

/-- A detection without its id. -/
def Detection.box (det : Detection F) : Detection F := { det with trackId := 0 }

/-- The same track later on: of the same id and, where classes count, of the
same class. -/
def Track.Same (cfg : TrackerConfig F) (tr tr' : Track F D) : Prop :=
  tr'.trackId = tr.trackId ∧ (cfg.classAware = true → tr'.det.classId = tr.det.classId)

theorem Track.Same.refl (tr : Track F D) : tr.Same cfg tr := ⟨rfl, fun _ => rfl⟩

theorem Track.Same.trans {tr' tr'' : Track F D} (h : tr.Same cfg tr') (h' : tr'.Same cfg tr'') : tr.Same cfg tr'' :=
  ⟨h'.1.trans h.1, fun hc => (h'.2 hc).trans (h.2 hc)⟩

/-- An id that is written changes nothing else. -/
theorem map_box_set (id : UInt32) (h : dets[d]? = some det) :
    (dets.set d { det with trackId := id }).map Detection.box = dets.map Detection.box := by
  obtain ⟨hd, rfl⟩ := List.getElem?_eq_some_iff.mp h
  have hd' : d < (dets.map Detection.box).length := by simpa using hd
  have hbox : Detection.box { dets[d] with trackId := id } = (dets.map Detection.box)[d] := by
    rw [List.getElem_map]
    rfl
  rw [List.map_set, hbox, List.set_getElem_self]

namespace Matched

variable {trackMatch : List (Option Nat)} {o : Option Nat}

theorem tail (h : Matched cfg (tr :: tracks) dets (o :: trackMatch)) : Matched cfg tracks dets trackMatch where
  length := by simpa using h.length
  inj {i j d} hi hj := by simpa using h.inj (i := i + 1) (j := j + 1) (d := d) hi hj
  classes {i _ _} hi htr := h.classes (i := i + 1) hi htr

/-- The classes of the detections are all that it looks at. -/
theorem congr {dets' : List (Detection F)} (h : Matched cfg tracks dets trackMatch)
    (hb : dets'.map Detection.box = dets.map Detection.box) : Matched cfg tracks dets' trackMatch where
  length := h.length
  inj := h.inj
  classes {i d tr'} hi htr := by
    obtain ⟨det, hdet, hok⟩ := h.classes hi htr
    have hd : (dets'.map Detection.box)[d]? = some det.box := by
      rw [hb, List.getElem?_map, hdet]
      rfl
    rw [List.getElem?_map, Option.map_eq_some_iff] at hd
    obtain ⟨det', hdet', he⟩ := hd
    have hclass : det'.classId = det.classId := congrArg (·.classId) he
    exact ⟨det', hdet', by rw [classOk, hclass]; exact hok⟩

/-- The detection of the first track is that of no other. -/
theorem head_ne (h : Matched cfg (tr :: tracks) dets (some d :: trackMatch)) : trackMatch[i]? ≠ some (some d) := by
  intro hi
  have := h.inj (i := 0) (j := i + 1) (d := d) rfl hi
  omega

end Matched

/-- What the loop over the matched tracks does: the tracks are the same, with
other detections; a detection that is matched gets the id of its track, and
the others are left alone. -/
structure MatchedUpdated (cfg : TrackerConfig F) (tracks : List (Track F D)) (trackMatch : List (Option Nat)) (dets : List (Detection F))
    (r : List (Track F D) × List (Detection F)) : Prop where
  same : List.Forall₂ (Track.Same cfg) tracks r.1
  box : r.2.map Detection.box = dets.map Detection.box
  matched : ∀ {i d : Nat} {tr : Track F D}, trackMatch[i]? = some (some d) → tracks[i]? = some tr →
    ∃ det, r.2[d]? = some det ∧ det.trackId = tr.trackId
  other : ∀ {d : Nat}, (∀ i : Nat, trackMatch[i]? ≠ some (some d)) → r.2[d]? = dets[d]?

theorem updateMatched_spec [Num F] [Num D] [Casts F D] {trackMatch : List (Option Nat)} (h : Matched cfg tracks dets trackMatch) :
    MatchedUpdated cfg tracks trackMatch dets (updateMatched tMonoS kpts dt tracks trackMatch dets) := by
  induction tracks generalizing trackMatch dets with
  | nil =>
    have htm : trackMatch = [] := by simpa using h.length
    subst htm
    exact ⟨.nil, rfl, fun hi => by simp at hi, fun _ => rfl⟩
  | cons tr tracks ih =>
    cases trackMatch with
    | nil => simpa using h.length
    | cons o trackMatch =>
      cases o with
      | none =>
        obtain ⟨hs, hb, hm, ho⟩ := ih h.tail
        refine ⟨.cons (.refl tr) hs, hb, fun {i d tr'} hi htr => ?_, fun {d} hd => ho fun i => hd (i + 1)⟩
        cases i with
        | zero => simp at hi
        | succ i => exact hm hi htr
      | some d =>
        obtain ⟨nd, hnd, hok⟩ := h.classes (i := 0) rfl rfl
        have hd : d < dets.length := (List.getElem?_eq_some_iff.mp hnd).1
        have hbox := map_box_set tr.trackId hnd
        obtain ⟨hs, hb, hm, ho⟩ := ih (h.tail.congr hbox)
        simp only [updateMatched, hnd]
        refine ⟨.cons ⟨associate_trackId, fun hc => ?_⟩ hs, hb.trans hbox, fun {i e tr'} hi htr => ?_, fun {e} he => ?_⟩
        · simp only [classOk, hc, Bool.not_true, Bool.false_or, beq_iff_eq] at hok
          exact hok.symm
        · cases i with
          | zero =>
            cases hi
            cases htr
            refine ⟨_, (ho fun i => h.head_ne).trans (List.getElem?_set_self hd), rfl⟩
          | succ i => exact hm hi htr
        · have hne : d ≠ e := by
            intro hde
            exact he 0 (by rw [hde]; rfl)
          rw [ho fun i => he (i + 1), List.getElem?_set_ne hne]

/-! ## The unmatched tracks -/

/-- What is kept of each element, where it is kept, is in the order of the
elements. -/
theorem filterMap_sublist_map {α β : Type} {f : α → Option β} {g : α → β} (h : ∀ x b, f x = some b → b = g x) :
    ∀ l : List α, (l.filterMap f).Sublist (l.map g)
  | [] => .slnil
  | x :: l => by
    rw [List.filterMap_cons, List.map_cons]
    cases hx : f x with
    | none => exact (filterMap_sublist_map h l).cons _
    | some b =>
      rw [h x b hx]
      exact (filterMap_sublist_map h l).cons_cons _

section

variable [Num F] [Num D] [Casts F D]

/-- What the loop makes of a track. -/
def aged (cfg : TrackerConfig F) (tMonoS : D) (x : Track F D × Option Nat) : Option (Track F D) :=
  if x.2.isSome then some x.1
  else if timedOut cfg tMonoS { x.1 with misses := x.1.misses + 1 } then none
  else some { x.1 with misses := x.1.misses + 1 }

/-- What it removes of it. -/
def gone (cfg : TrackerConfig F) (tMonoS : D) (x : Track F D × Option Nat) : Option UInt32 :=
  if (aged cfg tMonoS x).isSome then none else some x.1.trackId

/-- The two vectors stay in step: each track is aged by its own match. -/
theorem ageUnmatched_eq (passes : Nat) (pre rest : List (Track F D)) (preMatch restMatch : List (Option Nat))
    (removed : List UInt32) (hpre : preMatch.length = pre.length) (hrest : restMatch.length = rest.length)
    (hp : rest.length ≤ passes) :
    ageUnmatched cfg tMonoS passes pre.length (pre ++ rest) (preMatch ++ restMatch) removed =
      (pre ++ (rest.zip restMatch).filterMap (aged cfg tMonoS),
        removed ++ (rest.zip restMatch).filterMap (gone cfg tMonoS)) := by
  induction rest generalizing passes pre preMatch restMatch removed with
  | nil =>
    cases passes with
    | zero => simp [ageUnmatched]
    | succ passes => simp [ageUnmatched]
  | cons tr rest ih =>
    obtain _ | ⟨o, restMatch⟩ := restMatch
    · simp at hrest
    · obtain _ | passes := passes
      · simp at hp
      · have hlen : restMatch.length = rest.length := by simpa using hrest
        have hpasses : rest.length ≤ passes := by simpa using hp
        have hget : (pre ++ tr :: rest)[pre.length]? = some tr := by simp
        have hgetm : (preMatch ++ o :: restMatch).getD pre.length none = o := by simp [List.getD, ← hpre]
        have hkeep : ∀ tr', ageUnmatched cfg tMonoS passes (pre.length + 1) (pre ++ tr' :: rest)
            (preMatch ++ o :: restMatch) removed = (pre ++ tr' :: (rest.zip restMatch).filterMap (aged cfg tMonoS),
              removed ++ (rest.zip restMatch).filterMap (gone cfg tMonoS)) := by
          intro tr'
          simpa using ih passes (pre ++ [tr']) (preMatch ++ [o]) restMatch removed (by simp [hpre]) hlen hpasses
        rw [ageUnmatched, hget]
        simp only [hgetm, List.zip_cons_cons, List.filterMap_cons, gone, aged]
        cases o with
        | some d => simpa using hkeep tr
        | none =>
          simp only [Option.isSome_none, Bool.false_eq_true, if_false]
          split
          next =>
            have he : (pre ++ tr :: rest).eraseIdx pre.length = pre ++ rest := by
              rw [List.eraseIdx_append_of_length_le (Nat.le_refl _), Nat.sub_self]
              rfl
            have hem : (preMatch ++ none :: restMatch).eraseIdx pre.length = preMatch ++ restMatch := by
              rw [List.eraseIdx_append_of_length_le (by omega), hpre, Nat.sub_self]
              rfl
            rw [he, hem, ih passes pre preMatch restMatch _ hpre hlen hpasses]
            simp
          next =>
            have hset : (pre ++ tr :: rest).set pre.length { tr with misses := tr.misses + 1 } =
                pre ++ { tr with misses := tr.misses + 1 } :: rest := by simp
            rw [hset, hkeep]
            simp

theorem aged_same {x : Track F D × Option Nat} (h : aged cfg tMonoS x = some tr) : x.1.Same cfg tr := by
  simp only [aged] at h
  split at h
  · cases h
    exact .refl _
  · split at h
    · cases h
    · cases h
      exact ⟨rfl, fun _ => rfl⟩

theorem gone_eq_some {x : Track F D × Option Nat} {id : UInt32} :
    gone cfg tMonoS x = some id ↔ aged cfg tMonoS x = none ∧ x.1.trackId = id := by
  simp only [gone]
  cases aged cfg tMonoS x <;> simp

end

/-- What the loop over the unmatched tracks does: each track is kept or
removed, a matched one kept. -/
structure UnmatchedAged (cfg : TrackerConfig F) (tracks : List (Track F D)) (trackMatch : List (Option Nat))
    (r : List (Track F D) × List UInt32) : Prop where
  kept_ids : (r.1.map (·.trackId)).Sublist (tracks.map (·.trackId))
  removed_ids : r.2.Sublist (tracks.map (·.trackId))
  kept_or_removed : ∀ tr ∈ tracks, tr.trackId ∈ r.2 ∨ ∃ tr' ∈ r.1, tr.Same cfg tr'
  of_kept : ∀ tr' ∈ r.1, ∃ tr ∈ tracks, tr.Same cfg tr'
  not_both : ∀ tr' ∈ r.1, tr'.trackId ∉ r.2
  matched_kept : ∀ {i d : Nat} {tr : Track F D}, trackMatch[i]? = some (some d) → tracks[i]? = some tr → tr ∈ r.1

theorem ageUnmatched_spec [Num F] [Num D] [Casts F D] {trackMatch : List (Option Nat)} (hlen : trackMatch.length = tracks.length)
    (hn : (tracks.map (·.trackId)).Nodup) :
    UnmatchedAged cfg tracks trackMatch (ageUnmatched cfg tMonoS tracks.length 0 tracks trackMatch []) := by
  have heq : ageUnmatched cfg tMonoS tracks.length 0 tracks trackMatch [] =
      ((tracks.zip trackMatch).filterMap (aged cfg tMonoS), (tracks.zip trackMatch).filterMap (gone cfg tMonoS)) := by
    simpa using ageUnmatched_eq tracks.length [] tracks [] trackMatch [] rfl hlen le_rfl
  have hfst : (tracks.zip trackMatch).map (·.1) = tracks := List.map_fst_zip (by omega)
  have hids : (tracks.zip trackMatch).map (fun x => x.1.trackId) = tracks.map (·.trackId) := by
    conv_rhs => rw [← hfst, List.map_map]
    rfl
  have hmem : ∀ {x}, x ∈ tracks.zip trackMatch → x.1 ∈ tracks := fun hx => (List.of_mem_zip hx).1
  rw [heq]
  refine ⟨?_, ?_, fun tr htr => ?_, fun tr' htr' => ?_, fun tr' htr' hgone => ?_, fun {i d tr} hi htr => ?_⟩
  · rw [← hids, List.map_filterMap]
    refine filterMap_sublist_map (fun x id hx => ?_) _
    obtain ⟨tr', ha, rfl⟩ := Option.map_eq_some_iff.mp hx
    exact (aged_same ha).1
  · rw [← hids]
    exact filterMap_sublist_map (fun x id hx => (gone_eq_some.mp hx).2.symm) _
  · rw [← hfst, List.mem_map] at htr
    obtain ⟨x, hx, rfl⟩ := htr
    cases ha : aged cfg tMonoS x with
    | none => exact .inl (List.mem_filterMap.mpr ⟨x, hx, gone_eq_some.mpr ⟨ha, rfl⟩⟩)
    | some tr' => exact .inr ⟨tr', List.mem_filterMap.mpr ⟨x, hx, ha⟩, aged_same ha⟩
  · obtain ⟨x, hx, ha⟩ := List.mem_filterMap.mp htr'
    exact ⟨x.1, hmem hx, aged_same ha⟩
  · obtain ⟨x, hx, ha⟩ := List.mem_filterMap.mp htr'
    obtain ⟨y, hy, hg⟩ := List.mem_filterMap.mp hgone
    obtain ⟨hnone, hid⟩ := gone_eq_some.mp hg
    rw [← hids] at hn
    have hxy : y = x := List.inj_on_of_nodup_map hn hy hx (hid.trans (aged_same ha).1)
    rw [hxy, ha] at hnone
    cases hnone
  · refine List.mem_filterMap.mpr ⟨(tr, some d), ?_, rfl⟩
    exact List.mem_of_getElem? (List.getElem?_zip_eq_some.mpr ⟨htr, hi⟩)

/-! ## New tracks -/

/-- What the loop over the detections does: each that is not used gets an id of
its own, from the next one on, and a track of that id. -/
structure TracksCreated (nextId : UInt32) (dets : List (Detection F)) (detUsed : List Bool)
    (r : List (Track F D) × List (Detection F) × UInt32) : Prop where
  next : r.2.2.toNat = nextId.toNat + detUsed.count false
  bounds : ∀ tr ∈ r.1, nextId.toNat ≤ tr.trackId.toNat ∧ tr.trackId.toNat < r.2.2.toNat
  ascending : r.1.Pairwise (·.trackId < ·.trackId)
  box : r.2.1.map Detection.box = dets.map Detection.box
  used : ∀ {d : Nat}, detUsed[d]? = some true → r.2.1[d]? = dets[d]?
  unused : ∀ {d : Nat} {det : Detection F}, detUsed[d]? = some false → r.2.1[d]? = some det →
    ∃ tr ∈ r.1, tr.trackId = det.trackId
  distinct : ∀ {i j : Nat} {det det' : Detection F}, i < j → detUsed[i]? = some false → detUsed[j]? = some false →
    r.2.1[i]? = some det → r.2.1[j]? = some det' → det.trackId < det'.trackId

theorem createTracks_spec [Num F] [Num D] [Casts F D] {nextId : UInt32} {detUsed : List Bool} (hlen : detUsed.length = dets.length)
    (hw : nextId.toNat + detUsed.count false < 2 ^ 32) :
    TracksCreated nextId dets detUsed (createTracks tMonoS kpts nextId dets detUsed) := by
  induction dets generalizing nextId detUsed with
  | nil =>
    have hu : detUsed = [] := by simpa using hlen
    subst hu
    exact ⟨rfl, by simp [createTracks], by simp [createTracks], rfl, fun h => by simp at h, fun h => by simp at h,
      fun _ h => by simp at h⟩
  | cons det dets ih =>
    obtain _ | ⟨used, detUsed⟩ := detUsed
    · simp at hlen
    · have hlen' : detUsed.length = dets.length := by simpa using hlen
      cases used with
      | true =>
        rw [List.count_cons_of_ne (by decide)] at hw
        obtain ⟨hn, hb, ha, hbox, hu, hun, hd⟩ := ih hlen' hw
        rw [createTracks]
        refine ⟨?_, hb, ha, by simp [hbox], fun {d} h => ?_, fun {d det'} h hget => ?_, fun {i j e e'} hij hi hj hie hje => ?_⟩
        · rw [List.count_cons_of_ne (by decide)]
          exact hn
        · cases d with
          | zero => rfl
          | succ d => exact hu h
        · cases d with
          | zero => cases h
          | succ d => exact hun h hget
        · obtain _ | i := i
          · cases hi
          · obtain _ | j := j
            · omega
            · exact hd (by omega) hi hj hie hje
      | false =>
        rw [List.count_cons_self] at hw
        have hnext : (nextId + 1).toNat = nextId.toNat + 1 := by
          rw [UInt32.toNat_add, UInt32.toNat_one]
          omega
        have hw' : (nextId + 1).toNat + detUsed.count false < 2 ^ 32 := by omega
        obtain ⟨hn, hb, ha, hbox, hu, hun, hd⟩ := ih hlen' hw'
        rw [createTracks]
        refine ⟨?_, fun tr htr => ?_, List.pairwise_cons.mpr ⟨fun tr htr => ?_, ha⟩, by simp [hbox, Detection.box],
          fun {d} h => ?_, fun {d det'} h hget => ?_, fun {i j e e'} hij hi hj hie hje => ?_⟩
        · rw [List.count_cons_self]
          exact hn.trans (by omega)
        · simp only [Bool.false_eq_true, if_false] at htr ⊢
          obtain htr | htr := List.mem_cons.mp htr
          · rw [htr, newTrack, hn]
            exact ⟨le_rfl, by simp only []; omega⟩
          · have := hb tr htr
            omega
        · have hlo := (hb tr htr).1
          rw [UInt32.lt_iff_toNat_lt, newTrack]
          simp only []
          omega
        · cases d with
          | zero => cases h
          | succ d => exact hu h
        · cases d with
          | zero =>
            cases hget
            exact ⟨_, List.mem_cons_self, rfl⟩
          | succ d =>
            obtain ⟨tr, htr, he⟩ := hun h hget
            exact ⟨tr, List.mem_cons_of_mem _ htr, he⟩
        · obtain _ | j := j
          · omega
          · cases i with
            | zero =>
              cases hie
              obtain ⟨tr, htr, he⟩ := hun hj hje
              have hlo := (hb tr htr).1
              rw [UInt32.lt_iff_toNat_lt, ← he]
              simp only []
              omega
            | succ i => exact hd (by omega) hi hj hie hje

/-! ## A call -/

/-- The ids are in the order of the list, from `1` on, and below the next. -/
structure Tracker.Inv (s : Tracker F D) : Prop where
  next : 0 < s.nextId.toNat
  bounds : ∀ tr ∈ s.tracks, 0 < tr.trackId.toNat ∧ tr.trackId.toNat < s.nextId.toNat
  ascending : s.tracks.Pairwise (·.trackId < ·.trackId)

theorem Tracker.init_inv [Num D] : (Tracker.init cfg : Tracker F D).Inv :=
  ⟨Nat.one_pos, fun _ htr => absurd htr List.not_mem_nil, .nil⟩

theorem Tracker.Inv.nodup {s : Tracker F D} (h : s.Inv) : (s.tracks.map (·.trackId)).Nodup :=
  List.pairwise_map.mpr (h.ascending.imp UInt32.ne_of_lt)

theorem pairwise_trackId : tracks.Pairwise (·.trackId < ·.trackId) ↔ (tracks.map (·.trackId)).Pairwise (· < ·) :=
  List.pairwise_map.symm

/-- What holds of a call: of the tracker after it, and of what it leaves. -/
structure Frame (c : Call F D) (s : Tracker F D) (o : Updated F D) : Prop where
  ids_pos : ∀ tr ∈ s.tracks, 1 ≤ tr.trackId
  ascending : s.tracks.Pairwise (·.trackId < ·.trackId)
  boxes : o.dets.map Detection.box = c.dets.map Detection.box
  dets_live : ∀ det ∈ o.dets, det.trackId ≠ 0 ∧ ∃ tr ∈ s.tracks, tr.trackId = det.trackId
  dets_distinct : o.dets.Pairwise (·.trackId ≠ ·.trackId)
  alive_live : ∀ tr ∈ o.alive, tr ∈ s.tracks
  alive_ascending : o.alive.Pairwise (·.trackId < ·.trackId)
  removed_once : o.removed.Nodup
  removed_gone : ∀ tr ∈ s.tracks, tr.trackId ∉ o.removed

/-- How the tracks after a call come from those before. -/
structure Passes (s s' : Tracker F D) (o : Updated F D) : Prop where
  kept : ∀ tr ∈ s.tracks, tr.trackId ∈ o.removed ∨ ∃ tr' ∈ s'.tracks, tr.Same s.cfg tr'
  old_or_new : ∀ tr' ∈ s'.tracks, (∃ tr ∈ s.tracks, tr.Same s.cfg tr') ∨ s.nextId.toNat ≤ tr'.trackId.toNat
  removed_old : ∀ id ∈ o.removed, ∃ tr ∈ s.tracks, tr.trackId = id

theorem forall₂_ids {l l' : List (Track F D)} (h : List.Forall₂ (Track.Same cfg) l l') :
    l'.map (·.trackId) = l.map (·.trackId) := by
  induction h with
  | nil => rfl
  | cons h _ ih => simp only [List.map_cons, h.1, ih]

/-- The loops of a call, one after the other. -/
structure Stages (s : Tracker F D) (c : Call F D) (m : Matching F D) (r₁ : List (Track F D) × List (Detection F))
    (r₂ : List (Track F D) × List UInt32) (r₃ : List (Track F D) × List (Detection F) × UInt32) : Prop where
  matching : m.Ok s.cfg s.tracks c.dets
  matched : MatchedUpdated s.cfg s.tracks m.trackMatch c.dets r₁
  aged : UnmatchedAged s.cfg r₁.1 m.trackMatch r₂
  created : TracksCreated s.nextId r₁.2 m.detUsed r₃

theorem Tracker.update_stages [Num F] [Num D] [Casts F D] {s : Tracker F D} {c : Call F D} (hi : s.Inv) (hw : s.nextId.toNat + s.creates c < 2 ^ 32) :
    ∃ m r₁ r₂ r₃, Stages s c m r₁ r₂ r₃ ∧ s.creates c = m.detUsed.count false ∧ s.update c =
      ({ s with tracks := r₂.1 ++ r₃.1, nextId := r₃.2.2, lastT := c.tMonoS, hasT := true },
        { dets := r₃.2.1, alive := (r₂.1 ++ r₃.1).filter fun tr => tr.hits.toInt32 ≥ s.cfg.minHits, removed := r₂.2 }) := by
  have hm : (matchTracks s.cfg c.tMonoS s.tracks c.dets).Ok s.cfg s.tracks c.dets := matchTracks_ok _ _
  refine ⟨_, _, _, _, ⟨hm, updateMatched_spec hm.toMatched, ageUnmatched_spec ?_ ?_, createTracks_spec ?_ hw⟩, rfl, rfl⟩
  · exact (updateMatched_spec hm.toMatched).same.length_eq ▸ hm.length
  · rw [forall₂_ids (updateMatched_spec hm.toMatched).same]
    exact hi.nodup
  · rw [hm.used_length, ← List.length_map Detection.box, ← (updateMatched_spec hm.toMatched).box, List.length_map]

namespace Stages

variable {s : Tracker F D} {c : Call F D} {r₁ : List (Track F D) × List (Detection F)} {r₂ : List (Track F D) × List UInt32}
  {r₃ : List (Track F D) × List (Detection F) × UInt32}

/-- A detection that is used carries the id of a track that is kept. -/
theorem used (h : Stages s c m r₁ r₂ r₃) (hu : m.detUsed[d]? = some true) (hd : r₃.2.1[d]? = some det) :
    ∃ (i : Nat) (tr : Track F D), m.trackMatch[i]? = some (some d) ∧ s.tracks[i]? = some tr ∧ tr.trackId = det.trackId ∧
      ∃ tr' ∈ r₂.1, tr'.trackId = det.trackId := by
  obtain ⟨i, hi⟩ := (h.matching.used d).mp hu
  have hlt : i < s.tracks.length := h.matching.length ▸ (List.getElem?_eq_some_iff.mp hi).1
  have htr : s.tracks[i]? = some s.tracks[i] := List.getElem?_eq_getElem hlt
  obtain ⟨det', hdet', hid⟩ := h.matched.matched hi htr
  rw [h.created.used hu, hdet'] at hd
  cases hd
  have hlt' : i < r₁.1.length := h.matched.same.length_eq ▸ hlt
  have hsame : s.tracks[i].Same s.cfg r₁.1[i] := (List.forall₂_iff_get.mp h.matched.same).2 i hlt hlt'
  exact ⟨i, _, hi, htr, hid.symm, r₁.1[i], h.aged.matched_kept hi (List.getElem?_eq_getElem hlt'), hsame.1.trans hid.symm⟩

/-- Each detection that is left is one of the frame, used or not. -/
theorem used_or_unused (h : Stages s c m r₁ r₂ r₃) (hd : r₃.2.1[d]? = some det) :
    m.detUsed[d]? = some true ∨ m.detUsed[d]? = some false := by
  have hlen : r₃.2.1.length = m.detUsed.length := by
    rw [h.matching.used_length, ← List.length_map Detection.box, h.created.box, h.matched.box, List.length_map]
  have hlt : d < m.detUsed.length := hlen ▸ (List.getElem?_eq_some_iff.mp hd).1
  rw [List.getElem?_eq_getElem hlt]
  cases m.detUsed[d] <;> simp

theorem kept_below (h : Stages s c m r₁ r₂ r₃) (hi : s.Inv) : ∀ tr ∈ r₂.1, 0 < tr.trackId.toNat ∧ tr.trackId.toNat < s.nextId.toNat := by
  intro tr htr
  obtain ⟨tr₁, htr₁, hs₁⟩ := h.aged.of_kept tr htr
  obtain ⟨tr₀, htr₀, hs₀⟩ := Lib.forall₂_right h.matched.same tr₁ htr₁
  rw [hs₁.1, hs₀.1]
  exact hi.bounds tr₀ htr₀

theorem ascending (h : Stages s c m r₁ r₂ r₃) (hi : s.Inv) : (r₂.1 ++ r₃.1).Pairwise (·.trackId < ·.trackId) := by
  refine List.pairwise_append.mpr ⟨?_, h.created.ascending, fun tr htr tr' htr' => ?_⟩
  · refine pairwise_trackId.mpr (List.Pairwise.sublist h.aged.kept_ids ?_)
    rw [forall₂_ids h.matched.same]
    exact pairwise_trackId.mp hi.ascending
  · rw [UInt32.lt_iff_toNat_lt]
    exact (h.kept_below hi tr htr).2.trans_le (h.created.bounds tr' htr').1

/-- An id that is new is that of no track before. -/
theorem unused (h : Stages s c m r₁ r₂ r₃) (hu : m.detUsed[d]? = some false) (hd : r₃.2.1[d]? = some det) :
    s.nextId.toNat ≤ det.trackId.toNat ∧ ∃ tr ∈ r₃.1, tr.trackId = det.trackId := by
  obtain ⟨tr, htr, hid⟩ := h.created.unused hu hd
  exact ⟨hid ▸ (h.created.bounds tr htr).1, tr, htr, hid⟩

theorem used_below (h : Stages s c m r₁ r₂ r₃) (hi : s.Inv) (hu : m.detUsed[d]? = some true)
    (hd : r₃.2.1[d]? = some det) : 0 < det.trackId.toNat ∧ det.trackId.toNat < s.nextId.toNat := by
  obtain ⟨_, _, _, _, _, tr', htr', hid⟩ := h.used hu hd
  exact hid ▸ h.kept_below hi tr' htr'

/-- Two detections of the frame have different ids. -/
theorem dets_distinct (h : Stages s c m r₁ r₂ r₃) (hi : s.Inv) : r₃.2.1.Pairwise (·.trackId ≠ ·.trackId) := by
  rw [List.pairwise_iff_getElem]
  intro d e hd he hde heq
  have hd' : r₃.2.1[d]? = some r₃.2.1[d] := List.getElem?_eq_getElem hd
  have he' : r₃.2.1[e]? = some r₃.2.1[e] := List.getElem?_eq_getElem he
  obtain hu | hu := h.used_or_unused hd' <;> obtain hv | hv := h.used_or_unused he'
  · obtain ⟨i, tr, hmi, htr, hid, _⟩ := h.used hu hd'
    obtain ⟨j, tr', hmj, htr', hid', _⟩ := h.used hv he'
    obtain ⟨hlt, rfl⟩ := List.getElem?_eq_some_iff.mp htr
    obtain ⟨hlt', rfl⟩ := List.getElem?_eq_some_iff.mp htr'
    have hi_lt : i < (s.tracks.map (·.trackId)).length := by simpa using hlt
    have hj_lt : j < (s.tracks.map (·.trackId)).length := by simpa using hlt'
    have hids : (s.tracks.map (·.trackId))[i] = (s.tracks.map (·.trackId))[j] := by
      rw [List.getElem_map, List.getElem_map, hid, hid', heq]
    have hij : i = j := hi.nodup.getElem_inj_iff.mp hids
    subst hij
    rw [hmi] at hmj
    cases hmj
    omega
  · have := h.used_below hi hu hd'
    have := (h.unused hv he').1
    rw [heq] at *
    omega
  · have := h.used_below hi hv he'
    have := (h.unused hu hd').1
    rw [heq] at *
    omega
  · exact UInt32.ne_of_lt (h.created.distinct hde hu hv hd' he') heq

end Stages

theorem Tracker.update_spec [Num F] [Num D] [Casts F D] {s : Tracker F D} {c : Call F D} (hi : s.Inv) (hw : s.nextId.toNat + s.creates c < 2 ^ 32) :
    (s.update c).1.Inv ∧ (s.update c).1.cfg = s.cfg ∧
      (s.update c).1.nextId.toNat = s.nextId.toNat + s.creates c ∧
      Frame c (s.update c).1 (s.update c).2 ∧ Passes s (s.update c).1 (s.update c).2 := by
  obtain ⟨m, r₁, r₂, r₃, h, hc, he⟩ := Tracker.update_stages hi hw
  have hnext : r₃.2.2.toNat = s.nextId.toNat + s.creates c := hc ▸ h.created.next
  have hbounds : ∀ tr ∈ r₂.1 ++ r₃.1, 0 < tr.trackId.toNat ∧ tr.trackId.toNat < r₃.2.2.toNat := by
    intro tr htr
    obtain htr | htr := List.mem_append.mp htr
    · have := h.kept_below hi tr htr
      omega
    · have := h.created.bounds tr htr
      have := hi.next
      omega
  have hasc := h.ascending hi
  have hremoved : ∀ id ∈ r₂.2, ∃ tr ∈ s.tracks, tr.trackId = id := by
    intro id hid
    have hmem := h.aged.removed_ids.subset hid
    rw [forall₂_ids h.matched.same] at hmem
    exact List.mem_map.mp hmem
  rw [he]
  refine ⟨⟨?_, hbounds, hasc⟩, rfl, hnext, ⟨?_, hasc, ?_, ?_, h.dets_distinct hi, ?_, ?_, ?_, ?_⟩, ?_, ?_, hremoved⟩
  · have := hi.next
    exact hnext ▸ (by omega)
  · intro tr htr
    exact UInt32.le_iff_toNat_le.mpr (hbounds tr htr).1
  · exact h.created.box.trans h.matched.box
  · intro det hdet
    obtain ⟨d, hd⟩ := List.mem_iff_getElem?.mp hdet
    have hlive : ∃ tr ∈ r₂.1 ++ r₃.1, tr.trackId = det.trackId := by
      obtain hu | hu := h.used_or_unused hd
      · obtain ⟨_, _, _, _, _, tr, htr, hid⟩ := h.used hu hd
        exact ⟨tr, List.mem_append_left _ htr, hid⟩
      · obtain ⟨_, tr, htr, hid⟩ := h.unused hu hd
        exact ⟨tr, List.mem_append_right _ htr, hid⟩
    refine ⟨fun hz => ?_, hlive⟩
    obtain ⟨tr, htr, hid⟩ := hlive
    have := (hbounds tr htr).1
    rw [hid, hz] at this
    exact absurd this (by decide)
  · exact fun tr htr => List.mem_of_mem_filter htr
  · exact hasc.sublist List.filter_sublist
  · refine List.Nodup.sublist h.aged.removed_ids ?_
    rw [forall₂_ids h.matched.same]
    exact hi.nodup
  · intro tr htr hgone
    obtain htr | htr := List.mem_append.mp htr
    · exact h.aged.not_both tr htr hgone
    · obtain ⟨tr', htr', hid⟩ := hremoved _ hgone
      have hlo := (h.created.bounds tr htr).1
      have hhi := (hi.bounds tr' htr').2
      rw [hid] at hhi
      omega
  · intro tr htr
    obtain ⟨tr₁, htr₁, hs₁⟩ := Lib.forall₂_left h.matched.same tr htr
    obtain hgone | ⟨tr₂, htr₂, hs₂⟩ := h.aged.kept_or_removed tr₁ htr₁
    · exact .inl (hs₁.1 ▸ hgone)
    · exact .inr ⟨tr₂, List.mem_append_left _ htr₂, hs₁.trans hs₂⟩
  · intro tr' htr'
    obtain htr' | htr' := List.mem_append.mp htr'
    · obtain ⟨tr₁, htr₁, hs₁⟩ := h.aged.of_kept tr' htr'
      obtain ⟨tr, htr, hs⟩ := Lib.forall₂_right h.matched.same tr₁ htr₁
      exact .inl ⟨tr, htr, hs.trans hs₁⟩
    · exact .inr (h.created.bounds tr' htr').1

/-! ## Runs -/

/-- What holds of a call and one that comes later. -/
structure Later (cfg : TrackerConfig F) (u v : Tracker F D × Updated F D) : Prop where
  not_reused : ∀ tr' ∈ v.1.tracks, (∃ tr ∈ u.1.tracks, tr.trackId = tr'.trackId) ∨ ∀ tr ∈ u.1.tracks, tr.trackId < tr'.trackId
  classes : cfg.classAware = true → ∀ tr ∈ u.1.tracks, ∀ tr' ∈ v.1.tracks, tr'.trackId = tr.trackId →
    tr'.det.classId = tr.det.classId
  not_removed : ∀ id ∈ u.2.removed, id ∉ v.2.removed
  no_track : ∀ id ∈ u.2.removed, ∀ tr ∈ v.1.tracks, tr.trackId ≠ id
  no_detection : ∀ id ∈ u.2.removed, ∀ det ∈ v.2.dets, det.trackId ≠ id
  not_returned : ∀ id ∈ u.2.removed, ∀ tr ∈ v.2.alive, tr.trackId ≠ id

namespace Tracker

variable [Num F] [Num D] [Casts F D] {s : Tracker F D} {cs : List (Call F D)}

theorem calls_frame (hi : s.Inv) (hw : s.nextId.toNat + s.created cs < 2 ^ 32) :
    List.Forall₂ (fun c u => Frame c u.1 u.2) cs (s.calls cs) := by
  induction cs generalizing s with
  | nil => exact .nil
  | cons c cs ih =>
    rw [created] at hw
    obtain ⟨hi', _, hn, hf, _⟩ := update_spec hi (by omega : s.nextId.toNat + s.creates c < 2 ^ 32)
    exact .cons hf (ih hi' (by omega))

/-- What is there later was there already, or is new. -/
theorem calls_old_or_new (hi : s.Inv) (hw : s.nextId.toNat + s.created cs < 2 ^ 32) :
    ∀ v ∈ s.calls cs,
      (∀ tr' ∈ v.1.tracks, (∃ tr ∈ s.tracks, tr.Same s.cfg tr') ∨ s.nextId.toNat ≤ tr'.trackId.toNat) ∧
      ∀ id ∈ v.2.removed, (∃ tr ∈ s.tracks, tr.trackId = id) ∨ s.nextId.toNat ≤ id.toNat := by
  induction cs generalizing s with
  | nil => exact fun v hv => absurd hv List.not_mem_nil
  | cons c cs ih =>
    rw [created] at hw
    obtain ⟨hi', hcfg, hn, _, hp⟩ := update_spec hi (by omega : s.nextId.toNat + s.creates c < 2 ^ 32)
    intro v hv
    obtain rfl | hv := List.mem_cons.mp hv
    · exact ⟨hp.old_or_new, fun id hid => .inl (hp.removed_old id hid)⟩
    · obtain ⟨ht, hr⟩ := ih hi' (by omega) v hv
      rw [hcfg] at ht
      refine ⟨fun tr' htr' => ?_, fun id hid => ?_⟩
      · obtain ⟨tr₁, htr₁, hs₁⟩ | hnew := ht tr' htr'
        · obtain ⟨tr, htr, hs⟩ | hnew := hp.old_or_new tr₁ htr₁
          · exact .inl ⟨tr, htr, hs.trans hs₁⟩
          · exact .inr (hs₁.1 ▸ hnew)
        · exact .inr (by omega)
      · obtain ⟨tr₁, htr₁, rfl⟩ | hnew := hr id hid
        · obtain ⟨tr, htr, hs⟩ | hnew := hp.old_or_new tr₁ htr₁
          · exact .inl ⟨tr, htr, hs.1.symm⟩
          · exact .inr hnew
        · exact .inr (by omega)

/-- The same as in the calls of the tracker after `u`. -/
theorem later_of_calls {u : Tracker F D × Updated F D} {c : Call F D} (hi : u.1.Inv) (hf : Frame c u.1 u.2)
    (hr : ∀ id ∈ u.2.removed, id.toNat < u.1.nextId.toNat) (hw : u.1.nextId.toNat + u.1.created cs < 2 ^ 32) :
    ∀ v ∈ u.1.calls cs, Later u.1.cfg u v := by
  intro v hv
  obtain ⟨ht, hrv⟩ := calls_old_or_new hi hw v hv
  obtain ⟨_, hfv⟩ := List.forall₂_iff_get.mp (calls_frame hi hw)
  obtain ⟨i, hlt, rfl⟩ := List.mem_iff_getElem.mp hv
  have hfv := hfv i ((calls_frame hi hw).length_eq ▸ hlt) hlt
  have hno : ∀ id ∈ u.2.removed, ∀ tr ∈ (u.1.calls cs)[i].1.tracks, tr.trackId ≠ id := by
    intro id hid tr htr he
    obtain ⟨tr₀, htr₀, hs⟩ | hnew := ht tr htr
    · exact hf.removed_gone tr₀ htr₀ (by rw [← hs.1, he]; exact hid)
    · have := hr id hid
      rw [he] at hnew
      omega
  refine ⟨fun tr' htr' => ?_, fun hc tr htr tr' htr' he => ?_, fun id hid hid' => ?_, hno,
    fun id hid det hdet he => ?_, fun id hid tr htr => hno id hid tr (hfv.alive_live tr htr)⟩
  · refine (ht tr' htr').imp (fun h => ?_) fun hnew tr htr => ?_
    · obtain ⟨tr, htr, hs⟩ := h
      exact ⟨tr, htr, hs.1.symm⟩
    · exact UInt32.lt_iff_toNat_lt.mpr ((hi.bounds tr htr).2.trans_le hnew)
  · obtain ⟨tr₀, htr₀, hs⟩ | hnew := ht tr' htr'
    · have h0 : tr₀ = tr := List.inj_on_of_nodup_map hi.nodup htr₀ htr (hs.1.symm.trans he)
      exact h0 ▸ hs.2 hc
    · have := (hi.bounds tr htr).2
      rw [he] at hnew
      omega
  · obtain ⟨tr, htr, hid₀⟩ | hnew := hrv id hid'
    · exact hf.removed_gone tr htr (hid₀ ▸ hid)
    · have := hr id hid
      omega
  · obtain ⟨_, tr, htr, htid⟩ := hfv.dets_live det hdet
    exact hno id hid tr htr (htid.trans he)

theorem calls_later (hi : s.Inv) (hw : s.nextId.toNat + s.created cs < 2 ^ 32) :
    (s.calls cs).Pairwise (Later s.cfg) := by
  induction cs generalizing s with
  | nil => exact .nil
  | cons c cs ih =>
    rw [created] at hw
    obtain ⟨hi', hcfg, hn, hf, hp⟩ := update_spec hi (by omega : s.nextId.toNat + s.creates c < 2 ^ 32)
    have hw' : (s.update c).1.nextId.toNat + (s.update c).1.created cs < 2 ^ 32 := by omega
    refine List.pairwise_cons.mpr ⟨hcfg ▸ later_of_calls hi' hf (fun id hid => ?_) hw', hcfg ▸ ih hi' hw'⟩
    obtain ⟨tr, htr, rfl⟩ := hp.removed_old id hid
    have := (hi.bounds tr htr).2
    omega

/-- A track is held until it is removed. -/
theorem calls_held (hi : s.Inv) (hw : s.nextId.toNat + s.created cs < 2 ^ 32) {us vs : List (Tracker F D × Updated F D)}
    {v : Tracker F D × Updated F D} (h : s.calls cs = us ++ v :: vs) :
    ∀ t : Tracker F D, t = s ∨ (∃ u ∈ us, u.1 = t) → ∀ tr ∈ t.tracks,
      (∃ w ∈ us ++ [v], tr.trackId ∈ w.2.removed) ∨ ∃ tr' ∈ v.1.tracks, tr'.trackId = tr.trackId := by
  induction cs generalizing s us with
  | nil => simp [calls] at h
  | cons c cs ih =>
    rw [created] at hw
    obtain ⟨hi', hcfg, hn, hf, hp⟩ := update_spec hi (by omega : s.nextId.toNat + s.creates c < 2 ^ 32)
    have hw' : (s.update c).1.nextId.toNat + (s.update c).1.created cs < 2 ^ 32 := by omega
    cases us with
    | nil =>
      obtain ⟨rfl, _⟩ := List.cons.inj h
      intro t ht tr htr
      obtain rfl | ⟨u, hu, _⟩ := ht
      · obtain hgone | ⟨tr', htr', hs⟩ := hp.kept tr htr
        · exact .inl ⟨_, by simp, hgone⟩
        · exact .inr ⟨tr', htr', hs.1⟩
      · exact absurd hu List.not_mem_nil
    | cons u us =>
      obtain ⟨rfl, hcs⟩ := List.cons.inj h
      have hrest : ∀ t : Tracker F D, t = (s.update c).1 ∨ (∃ u ∈ us, u.1 = t) → ∀ tr ∈ t.tracks,
          (∃ w ∈ s.update c :: us ++ [v], tr.trackId ∈ w.2.removed) ∨
            ∃ tr' ∈ v.1.tracks, tr'.trackId = tr.trackId := by
        intro t ht tr htr
        refine (ih hi' hw' hcs t ht tr htr).imp_left fun hw => ?_
        obtain ⟨w, hmem, hid⟩ := hw
        exact ⟨w, List.mem_cons_of_mem _ hmem, hid⟩
      intro t ht tr htr
      obtain rfl | ⟨u, hu, rfl⟩ := ht
      · obtain hgone | ⟨tr', htr', hs⟩ := hp.kept tr htr
        · exact .inl ⟨_, by simp, hgone⟩
        · exact hs.1 ▸ hrest _ (.inl rfl) tr' htr'
      · obtain rfl | hu := List.mem_cons.mp hu
        · exact hrest _ (.inl rfl) tr htr
        · exact hrest _ (.inr ⟨u, hu, rfl⟩) tr htr

/-- A detection of a class, in the middle of the frame. -/
def centred (classId : Int32) : Detection ℚ where
  cx := 0.5
  cy := 0.5
  w := 0.2
  h := 0.4
  score := 0.9
  classId := classId
  trackId := 0
  kptOffset := 0
  kptCount := 0

/-- Two detections of two classes, and then one of the first and one of a third. -/
def threeClasses : List (Call ℚ ℚ) :=
  [{ dets := [centred 0, centred 1], kpts := [], tMonoS := 0 }, { dets := [centred 2, centred 0], kpts := [], tMonoS := 1 }]

end Tracker

end RetailVision.Vb
