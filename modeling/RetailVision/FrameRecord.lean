/-
`ContextPool::encode_frame_record` (`core-cpp/vb/src/pool.cpp`): the record of a
frame from the tracks that are alive. The keypoints are sent if the tracks have
equally many, none if the counts differ. A track without keypoints is passed
over when the counts are compared and fills nothing when the keypoints are put
together; so with such a track beside others that have equally many the encoder
refuses the record (`reported_iff`).
-/
import RetailVision.VbTracker
import RetailVision.WireFrames
import RetailVision.Writer
import Mathlib.Algebra.Order.Ring.Nat
import Mathlib.Data.List.Induction

set_option linter.all false

namespace RetailVision.FrameRecord

open RetailVision.Wire

variable {D π : Type}

/-- A track of the frame, with its floats as words. -/
abbrev Track (D : Type) := Vb.Track F32 D

/-- What is read of the stream, the frame and its result. -/
structure Frame where
  streamIndex : UInt32
  seq : UInt64
  wallMs : F64Word
  w : Int32
  h : Int32
  geom : Vb.LetterboxGeom F32
  preprocessMs : F32
  inferenceMs : F32
  postprocessMs : F32
  /-- what the clock gives -/
  queueDelayMs : F32

def vbr1CountsOk (kptPerDet attrPerDet : Nat) : Except String Unit :=
  if kptPerDet > 255 then .error ("keypoint count " ++ toString kptPerDet ++ " exceeds the 255 cap of VBR1")
  else if attrPerDet > 255 then .error ("attribute count " ++ toString attrPerDet ++ " exceeds the 255 cap of VBR1")
  else .ok ()

/-- `static_cast<size_t>(-1)` -/
def differ : Nat := 2 ^ 64 - 1

/-- One turn of the loop that compares the counts. -/
def kptTurn (kptN : Nat) (t : Track D) : Nat :=
  if t.kpts = [] then kptN
  else if kptN = 0 then t.kpts.length
  else if t.kpts.length ≠ kptN then differ
  else kptN

def kptCount (alive : List (Track D)) : Nat :=
  let kptN := alive.foldl kptTurn 0
  if kptN = differ then 0 else kptN

def wireDet (t : Track D) : WireDet where
  cx := t.det.cx
  cy := t.det.cy
  w := t.det.w
  h := t.det.h
  score := t.det.score
  classId := t.det.classId
  trackId := t.trackId

def wireKpts (t : Track D) : List F32 := t.kpts.flatMap fun k => [k.x, k.y, k.conf]

def alignByte : Vb.Align → UInt8
  | .center => 0
  | .topLeft => 1

/-- The record, `add` being the sum of two floats. -/
def frameRec (add : F32 → F32 → F32) (f : Frame) (alive : List (Track D)) (attrs : List F32) (attrTotal kptN : Nat) :
    WireFrameRec where
  streamIndex := f.streamIndex
  seq := f.seq
  wallMs := f.wallMs
  srcW := f.w
  srcH := f.h
  modelW := Int32.ofInt f.geom.modelW
  modelH := Int32.ofInt f.geom.modelH
  scale := f.geom.scale
  padX := f.geom.padX
  padY := f.geom.padY
  align := alignByte f.geom.align
  kptPerDet := UInt8.ofNat kptN
  inferenceMs := add (add f.preprocessMs f.inferenceMs) f.postprocessMs
  queueDelayMs := f.queueDelayMs
  attrPerDet := UInt8.ofNat attrTotal
  dets := alive.map wireDet
  kpts := alive.flatMap fun t => if kptN > 0 ∧ t.kpts.length = kptN then wireKpts t else []
  attrs := attrs

/-- What comes of a frame: what is returned, `err`, the writer, and the record
that `on_frame_rec` is called with. -/
structure Encoded (π : Type) where
  ok : Bool
  err : String
  writer : Writer.State π Bytes
  told : Option WireFrameRec

def encodeFrameRecord (cfg : Writer.WriterConfig) (writer : Writer.State π Bytes) (add : F32 → F32 → F32) (f : Frame)
    (alive : List (Track D)) (attrs : List F32) (attrTotal : Nat) : Encoded π :=
  let kptN := kptCount alive
  match vbr1CountsOk kptN attrTotal with
  | .error err => ⟨false, err, writer, none⟩
  | .ok () =>
    let r := frameRec add f alive attrs attrTotal kptN
    match wireEncodeVbr1 r [] with
    | (false, _, err) => ⟨false, err, writer, none⟩
    | (true, bytes, err) => ⟨true, err, (Writer.pushFrame cfg bytes writer).2, some r⟩

/-! ## The counts -/

/-- All tracks have this many keypoints. -/
def Uniform (alive : List (Track D)) (k : Nat) : Prop := alive ≠ [] ∧ 0 < k ∧ ∀ t ∈ alive, t.kpts.length = k

/-- Some tracks have no keypoints, and the others equally many. -/
def Partial (alive : List (Track D)) : Prop :=
  (∃ t ∈ alive, t.kpts = []) ∧ ∃ k, 0 < k ∧ (∃ t ∈ alive, t.kpts.length = k) ∧
    ∀ t ∈ alive, t.kpts ≠ [] → t.kpts.length = k

variable {alive : List (Track D)} {t u : Track D} {kptN k : Nat}

/-- The count after the loop: that of no track, of each that has keypoints, or
the mark of two that differ. -/
inductive Counted (alive : List (Track D)) : Nat → Prop
  | none (h : ∀ t ∈ alive, t.kpts = []) : Counted alive 0
  | same {k : Nat} (hpos : 0 < k) (hle : k ≤ 255) (hsome : ∃ t ∈ alive, t.kpts.length = k)
      (h : ∀ t ∈ alive, t.kpts ≠ [] → t.kpts.length = k) : Counted alive k
  | mixed (h : ∃ t ∈ alive, ∃ u ∈ alive, t.kpts ≠ [] ∧ u.kpts ≠ [] ∧ t.kpts.length ≠ u.kpts.length) : Counted alive differ

theorem ne_nil_of_length {α : Type} {l : List α} (hpos : 0 < k) (h : l.length = k) : l ≠ [] :=
  List.ne_nil_of_length_pos (h ▸ hpos)

theorem Counted.turn (h : Counted alive kptN) (ht : t.kpts.length ≤ 255) : Counted (alive ++ [t]) (kptTurn kptN t) := by
  unfold kptTurn
  by_cases hnil : t.kpts = []
  · -- passed over
    rw [if_pos hnil]
    have hkeep : ∀ {P : Track D → Prop}, (∀ u ∈ alive, u.kpts ≠ [] → P u) → ∀ u ∈ alive ++ [t], u.kpts ≠ [] → P u := by
      intro P hP u hu hne
      rcases List.mem_append.mp hu with hu | hu
      · exact hP u hu hne
      · exact absurd (List.mem_singleton.mp hu ▸ hnil) hne
    cases h with
    | none h => exact .none fun u hu => by_contra fun hne => hkeep (fun v hv hne => hne (h v hv)) u hu hne
    | same hpos hle hsome h =>
      obtain ⟨u, hu, hk⟩ := hsome
      exact .same hpos hle ⟨u, List.mem_append_left _ hu, hk⟩ (hkeep h)
    | mixed h =>
      obtain ⟨u, hu, v, hv, hne⟩ := h
      exact .mixed ⟨u, List.mem_append_left _ hu, v, List.mem_append_left _ hv, hne⟩
  · rw [if_neg hnil]
    have hlen : 0 < t.kpts.length := List.length_pos_iff.mpr hnil
    cases h with
    | none h =>
      rw [if_pos rfl]
      refine .same hlen ht ⟨t, by simp, rfl⟩ fun u hu hne => ?_
      rcases List.mem_append.mp hu with hu | hu
      · exact absurd (h u hu) hne
      · rw [List.mem_singleton.mp hu]
    | same hpos hle hsome h =>
      obtain ⟨u, hu, hk⟩ := hsome
      rw [if_neg hpos.ne']
      by_cases hsame : t.kpts.length = kptN
      · rw [if_neg (not_not.mpr hsame)]
        refine .same hpos hle ⟨u, List.mem_append_left _ hu, hk⟩ fun v hv hne => ?_
        rcases List.mem_append.mp hv with hv | hv
        · exact h v hv hne
        · rw [List.mem_singleton.mp hv, hsame]
      · rw [if_pos hsame]
        refine .mixed ⟨u, List.mem_append_left _ hu, t, by simp, ne_nil_of_length hpos hk, hnil, ?_⟩
        rw [hk]
        exact Ne.symm hsame
    | mixed h =>
      obtain ⟨u, hu, v, hv, hne⟩ := h
      have hcap : t.kpts.length ≠ differ := by
        have : differ = 2 ^ 64 - 1 := rfl
        omega
      rw [if_neg (by decide), if_pos hcap]
      exact .mixed ⟨u, List.mem_append_left _ hu, v, List.mem_append_left _ hv, hne⟩

theorem counted (h : ∀ t ∈ alive, t.kpts.length ≤ 255) : Counted alive (alive.foldl kptTurn 0) := by
  induction alive using List.reverseRecOn with
  | nil => exact .none (by simp)
  | append_singleton alive t ih =>
    rw [List.foldl_append, List.foldl_cons, List.foldl_nil]
    exact (ih fun u hu => h u (List.mem_append_left _ hu)).turn (h t (by simp))

/-! ## The keypoints -/

theorem length_wireKpts : (wireKpts t).length = t.kpts.length * 3 := by
  unfold wireKpts
  induction t.kpts with
  | nil => rfl
  | cons k ks ih =>
    rw [List.flatMap_cons, List.length_append, ih]
    simp
    omega

section

variable {α β : Type} {f : α → List β} {l : List α} {c : Nat}

theorem length_flatMap_le (h : ∀ a ∈ l, (f a).length ≤ c) : (l.flatMap f).length ≤ l.length * c := by
  induction l with
  | nil => simp
  | cons a l ih =>
    have ha := h a List.mem_cons_self
    have hrest := ih fun b hb => h b (List.mem_cons_of_mem _ hb)
    rw [List.flatMap_cons, List.length_append, List.length_cons, Nat.succ_mul]
    omega

theorem length_flatMap_lt (h : ∀ a ∈ l, (f a).length ≤ c) (hlt : ∃ a ∈ l, (f a).length < c) :
    (l.flatMap f).length < l.length * c := by
  obtain ⟨a, ha, hlt⟩ := hlt
  obtain ⟨before, after, rfl⟩ := List.append_of_mem ha
  have hbefore := length_flatMap_le fun b hb => h b (List.mem_append_left _ hb)
  have hafter := length_flatMap_le fun b hb => h b (List.mem_append_right _ (List.mem_cons_of_mem _ hb))
  simp only [List.flatMap_append, List.flatMap_cons, List.length_append, List.length_cons, Nat.add_mul, Nat.one_mul]
  omega

theorem length_flatMap_eq (h : ∀ a ∈ l, (f a).length = c) : (l.flatMap f).length = l.length * c := by
  induction l with
  | nil => simp
  | cons a l ih =>
    have hrest := ih fun b hb => h b (List.mem_cons_of_mem _ hb)
    rw [List.flatMap_cons, List.length_append, h a List.mem_cons_self, hrest, List.length_cons, Nat.succ_mul, Nat.add_comm]

end

/-! ## The record -/

theorem validate_of_valid {r : WireFrameRec} (h : Valid r) : vbr1Validate r = .ok () := by
  have hdets : ¬ r.dets.length > 0xFFFF := not_lt.mpr h.dets
  simp only [vbr1Validate, if_neg hdets, h.kpts, h.attrs, ne_eq, not_true_eq_false, if_false]

theorem countsOk {attrTotal : Nat} (hk : kptN ≤ 255) (ha : attrTotal ≤ 255) : vbr1CountsOk kptN attrTotal = .ok () := by
  rw [vbr1CountsOk, if_neg (not_lt.mpr hk), if_neg (not_lt.mpr ha)]

theorem pushFrame_last {cfg : Writer.WriterConfig} {bytes : Bytes} {writer : Writer.State π Bytes} (h : writer.running = true) :
    (Writer.pushFrame cfg bytes writer).2.q.getLast? = some ⟨true, bytes⟩ := by
  simp [Writer.pushFrame, h]

/-- The frame is reported: its record is queued, and `on_frame_rec` is called
with it. It has all the detections, and the keypoints if the tracks have equally
many. -/
def Reported (cfg : Writer.WriterConfig) (writer : Writer.State π Bytes) (alive : List (Track D)) (attrs : List F32)
    (out : Encoded π) : Prop :=
  ∃ r, out = ⟨true, "", (Writer.pushFrame cfg (wireEncodeVbr1 r []).2.1 writer).2, some r⟩ ∧
    (writer.running = true → out.writer.q.getLast? = some ⟨true, (wireEncodeVbr1 r []).2.1⟩) ∧
    (wireEncodeVbr1 r []).1 = true ∧ r.dets = alive.map wireDet ∧ r.attrs = attrs ∧
    (∀ k, Uniform alive k → r.kptPerDet.toNat = k ∧ r.kpts = alive.flatMap wireKpts) ∧
    ((∀ k, ¬ Uniform alive k) → r.kptPerDet = 0 ∧ r.kpts = [])

section

variable {cfg : Writer.WriterConfig} {writer : Writer.State π Bytes} {add : F32 → F32 → F32} {f : Frame}
  {attrs : List F32} {attrTotal : Nat}

theorem encode_of_valid (hk : kptCount alive ≤ 255) (ha : attrTotal ≤ 255)
    (hv : Valid (frameRec add f alive attrs attrTotal (kptCount alive))) :
    encodeFrameRecord cfg writer add f alive attrs attrTotal =
      ⟨true, "", (Writer.pushFrame cfg (wireEncodeVbr1 (frameRec add f alive attrs attrTotal (kptCount alive)) []).2.1 writer).2,
        some (frameRec add f alive attrs attrTotal (kptCount alive))⟩ := by
  simp only [encodeFrameRecord, countsOk hk ha, encode_eq hv (validate_of_valid hv)]

theorem encode_of_not_valid (cfg : Writer.WriterConfig) (writer : Writer.State π Bytes)
    (hv : ¬ Valid (frameRec add f alive attrs attrTotal (kptCount alive))) :
    (encodeFrameRecord cfg writer add f alive attrs attrTotal).ok = false := by
  unfold encodeFrameRecord
  dsimp only
  cases vbr1CountsOk (kptCount alive) attrTotal with
  | error err => rfl
  | ok _ =>
    rcases validate_cases (frameRec add f alive attrs attrTotal (kptCount alive)) with h | ⟨why, hwhy⟩
    · exact absurd h.2 hv
    · simp only [wireEncodeVbr1, hwhy]

theorem toNat_count {n : Nat} (h : n ≤ 255) : (UInt8.ofNat n).toNat = n := UInt8.toNat_ofNat_of_lt (Nat.lt_succ_of_le h)

theorem valid_of_kpts (hlen : alive.length ≤ 65535) (hk : kptCount alive ≤ 255) (ha : attrTotal ≤ 255)
    (hattrs : attrs.length = alive.length * attrTotal)
    (hkpts : (frameRec add f alive attrs attrTotal (kptCount alive)).kpts.length = alive.length * (kptCount alive * 3)) :
    Valid (frameRec add f alive attrs attrTotal (kptCount alive)) where
  dets := by simpa [frameRec] using hlen
  kpts := by
    rw [hkpts, frameRec, List.length_map, toNat_count hk, Nat.mul_assoc]
  attrs := by
    rw [frameRec, List.length_map, toNat_count ha, hattrs]

/-- A valid record is queued, with what it was made of. -/
theorem reported_of_valid (hk : kptCount alive ≤ 255) (ha : attrTotal ≤ 255)
    (hv : Valid (frameRec add f alive attrs attrTotal (kptCount alive)))
    (huniform : ∀ k, Uniform alive k → (frameRec add f alive attrs attrTotal (kptCount alive)).kptPerDet.toNat = k ∧
      (frameRec add f alive attrs attrTotal (kptCount alive)).kpts = alive.flatMap wireKpts)
    (hnone : (∀ k, ¬ Uniform alive k) → (frameRec add f alive attrs attrTotal (kptCount alive)).kptPerDet = 0 ∧
      (frameRec add f alive attrs attrTotal (kptCount alive)).kpts = []) :
    Reported cfg writer alive attrs (encodeFrameRecord cfg writer add f alive attrs attrTotal) := by
  refine ⟨_, encode_of_valid hk ha hv, fun hrun => ?_, ?_, rfl, rfl, huniform, hnone⟩
  · rw [encode_of_valid hk ha hv]
    exact pushFrame_last hrun
  · rw [encode_eq hv (validate_of_valid hv)]

/-- Without keypoints to send, the record is sent without. -/
theorem reported_none (hlen : alive.length ≤ 65535) (ha : attrTotal ≤ 255) (hattrs : attrs.length = alive.length * attrTotal)
    (h : kptCount alive = 0) (huniform : ∀ k, ¬ Uniform alive k) :
    Reported cfg writer alive attrs (encodeFrameRecord cfg writer add f alive attrs attrTotal) := by
  have hk : kptCount alive ≤ 255 := by omega
  have hv : Valid (frameRec add f alive attrs attrTotal (kptCount alive)) :=
    valid_of_kpts hlen hk ha hattrs (by simp [frameRec, h])
  exact reported_of_valid hk ha hv (fun k hu => absurd hu (huniform k)) fun _ => by simp [frameRec, h]

theorem reported_uniform (hlen : alive.length ≤ 65535) (ha : attrTotal ≤ 255) (hattrs : attrs.length = alive.length * attrTotal)
    (hu : Uniform alive k) (hk : kptCount alive = k) (hle : k ≤ 255) :
    Reported cfg writer alive attrs (encodeFrameRecord cfg writer add f alive attrs attrTotal) := by
  obtain ⟨hsome, hpos, hall⟩ := hu
  subst hk
  have hkpts : (frameRec add f alive attrs attrTotal (kptCount alive)).kpts = alive.flatMap wireKpts :=
    List.flatMap_congr fun t ht => if_pos ⟨hpos, hall t ht⟩
  have hv : Valid (frameRec add f alive attrs attrTotal (kptCount alive)) := by
    refine valid_of_kpts hlen hle ha hattrs ?_
    rw [hkpts]
    exact length_flatMap_eq fun t ht => by rw [length_wireKpts, hall t ht]
  refine reported_of_valid hle ha hv (fun j hj => ⟨?_, hkpts⟩) fun hno => absurd ⟨hsome, hpos, hall⟩ (hno _)
  obtain ⟨t, ht⟩ := List.exists_mem_of_ne_nil _ hsome
  rw [frameRec, toNat_count hle, ← hall t ht, hj.2.2 t ht]

/-- With a track that has none beside others, too few keypoints are put
together. -/
theorem not_reported_partial (hpos : 0 < kptCount alive) (hle : kptCount alive ≤ 255) (hnone : ∃ t ∈ alive, t.kpts = []) :
    ¬ Reported cfg writer alive attrs (encodeFrameRecord cfg writer add f alive attrs attrTotal) := by
  have hv : ¬ Valid (frameRec add f alive attrs attrTotal (kptCount alive)) := fun hv => by
    have hkpts := hv.kpts
    have hlt : (alive.flatMap fun t => if kptCount alive > 0 ∧ t.kpts.length = kptCount alive then wireKpts t else []).length <
        alive.length * (kptCount alive * 3) := by
      refine length_flatMap_lt (fun t _ => ?_) ?_
      · split_ifs with hsame
        · rw [length_wireKpts, hsame.2]
        · simp
      · obtain ⟨t, ht, hnil⟩ := hnone
        refine ⟨t, ht, ?_⟩
        rw [if_neg (by simp [hnil]; omega)]
        simp
        omega
    rw [frameRec, List.length_map, toNat_count hle, Nat.mul_assoc] at hkpts
    exact absurd hkpts hlt.ne
  rintro ⟨r, hr, -⟩
  have hok := encode_of_not_valid cfg writer hv
  rw [hr] at hok
  cases hok

/-- **A frame is reported** unless some of its tracks have no keypoints and the
others equally many. -/
theorem reported_iff (hlen : alive.length ≤ 65535) (hkpts : ∀ t ∈ alive, t.kpts.length ≤ 255) (ha : attrTotal ≤ 255)
    (hattrs : attrs.length = alive.length * attrTotal) :
    Reported cfg writer alive attrs (encodeFrameRecord cfg writer add f alive attrs attrTotal) ↔ ¬ Partial alive := by
  have hcounted := counted hkpts
  have hcount : kptCount alive = if alive.foldl kptTurn 0 = differ then 0 else alive.foldl kptTurn 0 := rfl
  generalize alive.foldl kptTurn 0 = kptN at hcounted hcount
  cases hcounted with
  | none h =>
    refine iff_of_true (reported_none hlen ha hattrs hcount fun k hu => ?_) ?_
    · obtain ⟨t, ht⟩ := List.exists_mem_of_ne_nil _ hu.1
      exact ne_nil_of_length hu.2.1 (hu.2.2 t ht) (h t ht)
    · rintro ⟨-, k, hpos, ⟨t, ht, hk⟩, -⟩
      exact ne_nil_of_length hpos hk (h t ht)
  | same hpos hle hsome h =>
    have hne : kptN ≠ differ := by
      have : differ = 2 ^ 64 - 1 := rfl
      omega
    rw [if_neg hne] at hcount
    by_cases hnone : ∃ t ∈ alive, t.kpts = []
    · refine iff_of_false ?_ (not_not.mpr ⟨hnone, kptN, hpos, hsome, h⟩)
      exact not_reported_partial (hcount ▸ hpos) (hcount ▸ hle) hnone
    · have hu : Uniform alive kptN := by
        obtain ⟨t, ht, -⟩ := hsome
        exact ⟨List.ne_nil_of_mem ht, hpos, fun u hu => h u hu fun hnil => hnone ⟨u, hu, hnil⟩⟩
      exact iff_of_true (reported_uniform hlen ha hattrs hu hcount hle) fun hp => hnone hp.1
  | mixed h =>
    rw [if_pos rfl] at hcount
    obtain ⟨t, ht, u, hu, htne, hune, hdiffer⟩ := h
    refine iff_of_true (reported_none hlen ha hattrs hcount fun k huniform => hdiffer ?_) ?_
    · rw [huniform.2.2 t ht, huniform.2.2 u hu]
    · rintro ⟨-, k, -, -, hk⟩
      exact hdiffer ((hk t ht htne).trans (hk u hu hune).symm)

end

/-- A track with so many keypoints. -/
def person (trackId : UInt32) (kpts : Nat) : Track F64Word where
  trackId := trackId
  det := ⟨0, 0, 0, 0, 0, 0, trackId, 0, 0⟩
  kpts := List.replicate kpts ⟨0, 0, 0⟩
  vx := 0
  vy := 0
  hits := 1
  misses := 0
  firstSeenS := 0
  lastSeenS := 0

def blank : Frame := ⟨0, 0, 0, 0, 0, ⟨0, 0, 0, 0, 0, 0, 0, .center⟩, 0, 0, 0, 0⟩

theorem reported_two :
    Reported {} (Writer.initial Unit Bytes) [person 1 2, person 2 2] []
        (encodeFrameRecord {} (Writer.initial Unit Bytes) (· + ·) blank [person 1 2, person 2 2] [] 0) ↔
      ¬ Partial [person 1 2, person 2 2] :=
  reported_iff (by decide) (by decide) (by decide) rfl

/-- A track without keypoints beside one with two. -/
theorem not_reported :
    ¬ ∀ (cfg : Writer.WriterConfig) (writer : Writer.State Unit Bytes) (add : F32 → F32 → F32) (f : Frame)
      (alive : List (Track F64Word)) (attrs : List F32) (attrTotal : Nat), alive.length ≤ 65535 →
        (∀ t ∈ alive, t.kpts.length ≤ 255) → attrTotal ≤ 255 → attrs.length = alive.length * attrTotal →
          Reported cfg writer alive attrs (encodeFrameRecord cfg writer add f alive attrs attrTotal) := by
  intro h
  obtain ⟨r, hr, -⟩ :=
    h {} (Writer.initial Unit Bytes) (· + ·) blank [person 1 0, person 2 2] [] 0 (by decide) (by decide) (by decide) rfl
  have hok : (encodeFrameRecord {} (Writer.initial Unit Bytes) (· + ·) blank [person 1 0, person 2 2] [] 0).ok = true :=
    congrArg Encoded.ok hr
  revert hok
  decide +kernel

end RetailVision.FrameRecord
