/-
The `vb.frame/1` payload of a VBR1 record, as the native runtime builds it
(`vb/src/out/event_json.cpp`) and as the host does (`vision_base/apps.py`, with
`runtime_client.py` and `letterbox.py`). Numbers are exact, and both round by
the same rules (`Numbers`). An object of JSON is a structure, or a function
where its keys are made. With no names of attributes the two payloads are the
same (`payload_eq`).
-/
import RetailVision.WireFrames
import Mathlib.Algebra.Field.Defs
import Mathlib.Logic.Function.Basic
import Mathlib.Order.Lattice

set_option linter.all false

namespace RetailVision.FrameJson

open Wire

/-- The numbers that words stand for, and how numbers are rounded. -/
structure Numbers (K : Type) where
  ofFloat : F32 → K
  ofDouble : F64Word → K
  /-- to 6 decimals: `num6`, `_num6` -/
  round6 : K → K
  /-- to an integer, halves to the even one -/
  roundEven : K → Int

@[ext]
structure DetectionPayload (K : Type) where
  trackId : Nat
  classId : Int
  score : K
  box : List K
  keypoints : Option (List (List K))
  attrs : Option (String → Option K)

structure FramePayload (K : Type) where
  schema : String
  deviceId : String
  streamId : String
  seq : Nat
  tsMs : Int
  inferenceMs : K
  detections : List (DetectionPayload K)

/-- `o[key] = v` -/
def setKey {K : Type} (o : String → Option K) (key : String) (v : K) : String → Option K := Function.update o key (some v)

variable {K : Type} [Field K] [LinearOrder K] (nums : Numbers K)

/-! ## `event_json.cpp` -/

def clamp01 (v : K) : K := if v < 0 then 0 else if v > 1 then 1 else v

structure InvGeom (K : Type) where
  srcW : K
  srcH : K
  modelW : K
  modelH : K
  scale : K
  padX : K
  padY : K

def InvGeom.ofRec (r : WireFrameRec) : InvGeom K where
  srcW := r.srcW.toInt
  srcH := r.srcH.toInt
  modelW := r.modelW.toInt
  modelH := r.modelH.toInt
  scale := nums.ofFloat r.scale
  padX := nums.ofFloat r.padX
  padY := nums.ofFloat r.padY

def InvGeom.x (g : InvGeom K) (mx : K) : K := ((mx * g.modelW - g.padX) / g.scale) / g.srcW
def InvGeom.y (g : InvGeom K) (my : K) : K := ((my * g.modelH - g.padY) / g.scale) / g.srcH
def InvGeom.w (g : InvGeom K) (mw : K) : K := mw * g.modelW / (g.scale * g.srcW)
def InvGeom.h (g : InvGeom K) (mh : K) : K := mh * g.modelH / (g.scale * g.srcH)

/-- The body of the loop over the detections. -/
def detJson (r : WireFrameRec) (d : WireDet) (i : Nat) : DetectionPayload K :=
  let kn := r.kptPerDet.toNat
  let an := r.attrPerDet.toNat
  let ig : InvGeom K := .ofRec nums r
  let scx := ig.x (nums.ofFloat d.cx)
  let scy := ig.y (nums.ofFloat d.cy)
  let sw := ig.w (nums.ofFloat d.w)
  let sh := ig.h (nums.ofFloat d.h)
  { trackId := d.trackId.toNat
    classId := d.classId.toInt
    score := nums.round6 (nums.ofFloat d.score)
    box := [nums.round6 (clamp01 (scx - sw / 2.0)), nums.round6 (clamp01 (scy - sh / 2.0)), nums.round6 (clamp01 (scx + sw / 2.0)),
      nums.round6 (clamp01 (scy + sh / 2.0))]
    keypoints := if kn > 0 then
        some ((List.range kn).map fun k =>
          let mx := nums.ofFloat (r.kpts.getD ((i * kn + k) * 3) 0)
          let my := nums.ofFloat (r.kpts.getD ((i * kn + k) * 3 + 1) 0)
          let mc := nums.ofFloat (r.kpts.getD ((i * kn + k) * 3 + 2) 0)
          [nums.round6 (clamp01 (ig.x mx)), nums.round6 (clamp01 (ig.y my)), nums.round6 mc])
      else none
    attrs := if an > 0 then
        some ((List.range an).foldl (fun o a => setKey o ("attr_" ++ toString a)
          (nums.round6 (nums.ofFloat (r.attrs.getD (i * an + a) 0)))) fun _ => none)
      else none }

def frameJson (deviceId streamId : String) (r : WireFrameRec) : FramePayload K where
  schema := "vb.frame/1"
  deviceId := deviceId
  streamId := streamId
  seq := r.seq.toNat
  tsMs := nums.roundEven (nums.ofDouble r.wallMs)
  inferenceMs := nums.round6 (nums.ofFloat r.inferenceMs)
  detections := r.dets.zipIdx.map fun x => detJson nums r x.1 x.2

/-! ## `runtime_client.py`, `letterbox.py` and `apps.py` -/

structure LetterboxGeom where
  srcW : Int
  srcH : Int
  modelW : Int
  modelH : Int
  scale : F32
  padX : F32
  padY : F32
  align : String

/-- `Detection` of `types.py`: the keypoints are flat. -/
structure Detection where
  cx : F32
  cy : F32
  w : F32
  h : F32
  score : F32
  classId : Int
  trackId : Nat
  keypoints : List F32
  attrs : List F32

structure FrameResult where
  streamId : String
  seq : Nat
  wallMs : F64Word
  geom : LetterboxGeom
  detections : List Detection
  inferenceMs : F32
  queueDelayMs : F32

/-- `_ALIGN.get(align, "center")` -/
def alignName (align : Nat) : String := if align = 1 then "top_left" else "center"

def LetterboxGeom.ofDict (d : Result) : LetterboxGeom where
  srcW := d.srcW
  srcH := d.srcH
  modelW := d.modelW
  modelH := d.modelH
  scale := d.scale
  padX := d.padX
  padY := d.padY
  align := alignName d.align

def Detection.ofDict (x : Wire.Detection) : Detection where
  cx := x.cx
  cy := x.cy
  w := x.w
  h := x.h
  score := x.score
  classId := x.classId
  trackId := x.trackId
  keypoints := x.keypoints.flatMap fun (x, y, c) => [x, y, c]
  attrs := x.attrs

/-- The stream's index, and its result with no id yet. -/
def decodeFrame (body : Bytes) : Except Raised (Nat × FrameResult) := do
  let d ← decodeResult body
  .ok (d.streamIndex, {
    streamId := ""
    seq := d.seq
    wallMs := d.wallMs
    geom := .ofDict d
    detections := d.detections.map .ofDict
    inferenceMs := d.inferenceMs
    queueDelayMs := d.queueDelayMs })

def toSourceNorm (geom : LetterboxGeom) (mx my : K) : K × K :=
  let px := mx * geom.modelW
  let py := my * geom.modelH
  (((px - nums.ofFloat geom.padX) / nums.ofFloat geom.scale) / geom.srcW,
    ((py - nums.ofFloat geom.padY) / nums.ofFloat geom.scale) / geom.srcH)

def boxToSourceNorm (geom : LetterboxGeom) (cx cy w h : K) : K × K × K × K :=
  let (scx, scy) := toSourceNorm nums geom cx cy
  let sw := w * geom.modelW / (nums.ofFloat geom.scale * geom.srcW)
  let sh := h * geom.modelH / (nums.ofFloat geom.scale * geom.srcH)
  (scx, scy, sw, sh)

def clip01 (v : K) : K := if v < 0 then 0 else if v > 1 then 1 else v

/-- `range(0, stop, 3)` -/
def rangeByThree (stop : Nat) : List Nat := (List.range ((stop + 2) / 3)).map (· * 3)

/-- The body of the loop over the detections. -/
def detectionPayload (geom : LetterboxGeom) (attrNames : List String) (d : Detection) : DetectionPayload K :=
  let (scx, scy, sw, sh) := boxToSourceNorm nums geom (nums.ofFloat d.cx) (nums.ofFloat d.cy) (nums.ofFloat d.w) (nums.ofFloat d.h)
  let names := if attrNames = [] then (List.range d.attrs.length).map fun i => "attr_" ++ toString i else attrNames
  { trackId := d.trackId
    classId := d.classId
    score := nums.round6 (nums.ofFloat d.score)
    box := [nums.round6 (clip01 (scx - sw / 2.0)), nums.round6 (clip01 (scy - sh / 2.0)), nums.round6 (clip01 (scx + sw / 2.0)),
      nums.round6 (clip01 (scy + sh / 2.0))]
    keypoints := if d.keypoints = [] then none
      else some ((rangeByThree (d.keypoints.length - 2)).map fun i =>
        let (sx, sy) := toSourceNorm nums geom (nums.ofFloat (d.keypoints.getD i 0)) (nums.ofFloat (d.keypoints.getD (i + 1) 0))
        [nums.round6 (clip01 sx), nums.round6 (clip01 sy), nums.round6 (nums.ofFloat (d.keypoints.getD (i + 2) 0))])
    attrs := if d.attrs = [] then none
      else some (d.attrs.zipIdx.foldl (fun o x => match names[x.2]? with
        | some name => setKey o name (nums.round6 (nums.ofFloat x.1))
        | none => o) fun _ => none) }

def framePayload (deviceId : String) (res : FrameResult) (attrNames : List String) : FramePayload K where
  schema := "vb.frame/1"
  deviceId := deviceId
  streamId := res.streamId
  seq := res.seq
  tsMs := nums.roundEven (nums.ofDouble res.wallMs)
  inferenceMs := nums.round6 (nums.ofFloat res.inferenceMs)
  detections := res.detections.map (detectionPayload nums res.geom attrNames)

/-! ## The same payload -/

/-- Blocks of one length, one after the other. -/
theorem getD_flatMap {α β : Type} {f : α → List β} {n : Nat} {l : List α} {x : α} {i a : Nat} {z : β}
    (hlen : ∀ y ∈ l, (f y).length = n) (hi : l[i]? = some x) (ha : a < n) :
    (l.flatMap f).getD (i * n + a) z = (f x).getD a z := by
  induction l generalizing i with
  | nil =>
    cases hi
  | cons y l ih =>
    have hy := hlen y List.mem_cons_self
    rw [List.flatMap_cons, List.getD_eq_getElem?_getD, List.getD_eq_getElem?_getD]
    cases i with
    | zero =>
      obtain rfl : y = x := by simpa using hi
      rw [Nat.zero_mul, Nat.zero_add, List.getElem?_append_left (by omega)]
    | succ i =>
      have hrest := ih (fun y hm => hlen y (List.mem_cons_of_mem _ hm)) hi
      rw [List.getD_eq_getElem?_getD, List.getD_eq_getElem?_getD] at hrest
      have hoff : (i + 1) * n + a - n = i * n + a := by
        rw [Nat.succ_mul]
        omega
      rw [List.getElem?_append_right (by rw [hy, Nat.succ_mul]; omega), hy, hoff, hrest]

variable {nums} {r : WireFrameRec} {d : Result} {x : Wire.Detection} {w : WireDet} {i k c a : Nat}

theorem rangeByThree_eq {n : Nat} : rangeByThree (n * 3 - 2) = (List.range n).map (· * 3) := by
  have hlen : (n * 3 - 2 + 2) / 3 = n := by omega
  rw [rangeByThree, hlen]

theorem length_keypoints : (Detection.ofDict x).keypoints.length = x.keypoints.length * 3 := by
  simp [Detection.ofDict, List.length_flatMap, List.map_const', List.sum_replicate_nat]

theorem keypoints_getD (hs : Shows r d) (hx : d.detections[i]? = some x) (hk : k < r.kptPerDet.toNat) (hc : c < 3) :
    (Detection.ofDict x).keypoints.getD (k * 3 + c) 0 = r.kpts.getD ((i * r.kptPerDet.toNat + k) * 3 + c) 0 := by
  have hlen : ∀ y ∈ d.detections, (Detection.ofDict y).keypoints.length = r.kptPerDet.toNat * 3 := fun y hy => by
    rw [length_keypoints, (hs.counts y hy).1]
  have hflat : r.kpts = d.detections.flatMap fun y => (Detection.ofDict y).keypoints := hs.keypoints.symm
  have hoff : (i * r.kptPerDet.toNat + k) * 3 + c = i * (r.kptPerDet.toNat * 3) + (k * 3 + c) := by
    rw [Nat.add_mul, Nat.mul_assoc, Nat.add_assoc]
  rw [hflat, hoff, getD_flatMap hlen hx (by omega)]

theorem attrs_getD (hs : Shows r d) (hx : d.detections[i]? = some x) (ha : a < r.attrPerDet.toNat) :
    x.attrs.getD a 0 = r.attrs.getD (i * r.attrPerDet.toNat + a) 0 := by
  have hflat : r.attrs = d.detections.flatMap fun y => y.attrs := hs.attrs.symm
  rw [hflat, getD_flatMap (fun y hy => (hs.counts y hy).2) hx ha]

theorem keypoints_eq (hs : Shows r d) (hx : d.detections[i]? = some x) :
    (detectionPayload nums (.ofDict d) [] (.ofDict x)).keypoints = (detJson nums r w i).keypoints := by
  have hlen := (hs.counts x (List.mem_of_getElem? hx)).1
  have hflat : (Detection.ofDict x).keypoints.length = r.kptPerDet.toNat * 3 := by rw [length_keypoints, hlen]
  simp only [detectionPayload, detJson, hflat, rangeByThree_eq]
  by_cases hk : r.kptPerDet.toNat = 0
  · have hnil : (Detection.ofDict x).keypoints = [] := List.length_eq_zero_iff.mp (by omega)
    rw [if_pos hnil, if_neg (by omega)]
  · have hne : (Detection.ofDict x).keypoints ≠ [] := fun h => by
      rw [h, List.length_nil] at hflat
      omega
    rw [if_neg hne, if_pos (by omega), List.map_map]
    congr 1
    refine List.map_congr_left fun k hk => ?_
    have hk : k < r.kptPerDet.toNat := List.mem_range.mp hk
    have hx0 := keypoints_getD (c := 0) hs hx hk (by omega)
    have hx1 := keypoints_getD (c := 1) hs hx hk (by omega)
    have hx2 := keypoints_getD (c := 2) hs hx hk (by omega)
    rw [Nat.add_zero, Nat.add_zero] at hx0
    simp only [Function.comp_apply, hx0, hx1, hx2, toSourceNorm, LetterboxGeom.ofDict, hs.srcW, hs.srcH, hs.modelW, hs.modelH,
      hs.scale, hs.padX, hs.padY]
    rfl

theorem zipIdx_eq {vs : List F32} : vs.zipIdx = (List.range vs.length).map fun a => (vs.getD a 0, a) := by
  refine List.ext_getElem (by simp) fun a h h' => ?_
  have ha : a < vs.length := by simpa using h
  simp [ha]

theorem attrs_eq (hs : Shows r d) (hx : d.detections[i]? = some x) :
    (detectionPayload nums (.ofDict d) [] (.ofDict x)).attrs = (detJson nums r w i).attrs := by
  have hlen : x.attrs.length = r.attrPerDet.toNat := (hs.counts x (List.mem_of_getElem? hx)).2
  simp only [detectionPayload, detJson, Detection.ofDict, if_true]
  by_cases ha : r.attrPerDet.toNat = 0
  · have hnil : x.attrs = [] := List.length_eq_zero_iff.mp (by omega)
    rw [if_pos hnil, if_neg (by omega)]
  · have hne : x.attrs ≠ [] := fun h => by
      rw [h, List.length_nil] at hlen
      omega
    rw [if_neg hne, if_pos (by omega), zipIdx_eq, List.foldl_map, hlen]
    congr 1
    refine List.foldl_ext _ _ _ fun o a ha => ?_
    have ha : a < r.attrPerDet.toNat := List.mem_range.mp ha
    simp only [attrs_getD hs hx ha]
    simp [ha]

theorem detection_eq (hs : Shows r d) (hx : d.detections[i]? = some x) (hw : r.dets[i]? = some w) :
    detectionPayload nums (.ofDict d) [] (.ofDict x) = detJson nums r w i := by
  have hbare : x.bare = plain w := by
    have h := congrArg (·[i]?) hs.detections
    simpa [hx, hw] using h
  simp only [Detection.bare, plain, Wire.Detection.mk.injEq] at hbare
  obtain ⟨hcx, hcy, hdw, hdh, hscore, hclass, htrack, -⟩ := hbare
  refine DetectionPayload.ext htrack hclass ?_ ?_ (keypoints_eq hs hx) (attrs_eq hs hx)
  · simp only [detectionPayload, detJson, Detection.ofDict, hscore]
  · simp only [detectionPayload, detJson, Detection.ofDict, boxToSourceNorm, toSourceNorm, LetterboxGeom.ofDict, hs.srcW, hs.srcH,
      hs.modelW, hs.modelH, hs.scale, hs.padX, hs.padY, hcx, hcy, hdw, hdh]
    rfl

variable (nums) in
/-- With no names of attributes either side publishes the same of a body that
both decode, for the same device and stream. -/
theorem payload_eq {body : Bytes} (hr : decodeVbr1 body = some r) : ∃ res, decodeFrame body = .ok (r.streamIndex.toNat, res) ∧
    ∀ deviceId streamId, framePayload nums deviceId { res with streamId } [] = frameJson nums deviceId streamId r := by
  have hagree := decoders_agree body
  rw [hr] at hagree
  cases hd : decodeResult body with
  | error e =>
    rw [hd] at hagree
    exact hagree.elim
  | ok d =>
    rw [hd] at hagree
    have hs : Shows r d := hagree
    refine ⟨_, by rw [decodeFrame, hd, ← hs.streamIndex]; rfl, fun deviceId streamId => ?_⟩
    have hlen : d.detections.length = r.dets.length := by simpa using congrArg List.length hs.detections
    have hdets : (d.detections.map .ofDict).map (detectionPayload nums (.ofDict d) []) =
        r.dets.zipIdx.map fun x => detJson nums r x.1 x.2 := by
      refine List.ext_getElem (by simp [hlen]) fun i h h' => ?_
      have hi : i < d.detections.length := by simpa using h
      have hi' : i < r.dets.length := by simpa using h'
      simp only [List.getElem_map, List.getElem_zipIdx, Nat.zero_add]
      exact detection_eq hs (List.getElem?_eq_getElem hi) (List.getElem?_eq_getElem hi')
    simp only [framePayload, frameJson, hdets, hs.seq, hs.wallMs, hs.inferenceMs]

end RetailVision.FrameJson
