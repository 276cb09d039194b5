/-
What the YOLO decoders share (`core-cpp/vb/src/post/yolov8_decode.cpp` and
`tensor_check.h`): the checks of a tensor, the grids of the strides, the role
that a name hints at, and the distances of a DFL head.
-/
import RetailVision.Lib.PerKey
import RetailVision.Nms
import RetailVision.VbFloats
import Mathlib.Data.List.Dedup
import Mathlib.Data.List.Infix

set_option linter.all false

namespace RetailVision.Vb

/-- What the decoders read of it, as `parse_spec` lets it through. -/
structure DecodeSpec where
  numClasses : Nat
  regMax : Nat
  strides : List Nat
  keypoints : Nat
  numClasses_pos : 0 < numClasses
  regMax_pos : 0 < regMax
  strides_pos : ∀ s ∈ strides, 0 < s

/-- `data` is what can be read from the pointer on, unless it is null. -/
structure TensorView (F : Type) where
  data : Option (List F)
  count : Nat
  dims : List Int
  name : String

namespace Yolo

variable {F : Type}

/-- `std::numeric_limits<size_t>::max()` -/
def sizeMax : Nat := 2 ^ 64 - 1

def shapeLoop : Nat → List Int → Option Nat
  | elem, [] => some elem
  | elem, d :: dims =>
    if d ≤ 0 then none
    else if d.toNat > sizeMax / elem then none
    else shapeLoop (elem * d.toNat) dims

def shapeElements (t : TensorView F) : Option Nat := if t.dims = [] then none else shapeLoop 1 t.dims

/-- The data of the tensor. -/
def checkView (t : TensorView F) (ctx : String) : Except String (List F) :=
  match t.data with
  | none => .error (ctx ++ ": tensor data is null")
  | some data =>
    match shapeElements t with
    | none => .error (ctx ++ ": tensor dims are empty, non-positive or overflow")
    | some elem =>
      if t.count ≠ elem then
        .error (ctx ++ ": tensor holds " ++ toString t.count ++ " elements but its dims describe " ++ toString elem)
      else .ok data

def checkCanvas (modelW modelH : Int) (ctx : String) : Except String Unit :=
  if modelW ≤ 0 ∨ modelH ≤ 0 then .error (ctx ++ ": model canvas must be positive") else .ok ()

def noteDropped (ctx : String) (dropped : Nat) : Option String :=
  if dropped = 0 then none else some (ctx ++ ": dropped " ++ toString dropped ++ " non-finite candidate(s)")

def matchStride (spec : DecodeSpec) (modelW modelH H W : Int) : Nat :=
  (spec.strides.find? fun s : Nat =>
    modelH % (s : Int) == 0 && modelH / (s : Int) == H && modelW % (s : Int) == 0 && modelW / (s : Int) == W).getD 0

def roleHint (name : String) : Int :=
  let n := name.toList.map Char.toLower
  let has := fun needle : String => decide (needle.toList <:+: n)
  let box := has "box" || has "bbox" || has "reg" || has "dfl"
  let cls := has "cls" || has "class" || has "score" || has "prob" || has "conf"
  if box = cls then 0 else if box then 1 else -1

/-- What the tensors of a stride give, with the size of its grid. -/
structure Level (L : Type) where
  H : Int
  W : Int
  slots : L

/-- One turn of the loop over the tensors. `levels` is a map, ordered by the
stride; `fill` takes `C`, `H`, `W`, the name and the data. -/
def place {L : Type} (ctx dimsErr : String) (empty : L)
    (fill : L → Int → Int → Int → String → List F → Except String L) (spec : DecodeSpec) (modelW modelH : Int)
    (levels : Nat → Option (Level L)) (t : TensorView F) : Except String (Nat → Option (Level L)) :=
  match checkView t ctx with
  | .error err => .error err
  | .ok data =>
    match t.dims with
    | [C, H, W] =>
      let stride := matchStride spec modelW modelH H W
      if stride = 0 then .error (ctx ++ ": output HxW does not match a stride")
      else
        let lv := (levels stride).getD ⟨0, 0, empty⟩
        if lv.H ≠ 0 ∧ (lv.H ≠ H ∨ lv.W ≠ W) then .error (ctx ++ ": one stride got two spatial sizes")
        else
          match fill lv.slots C H W t.name data with
          | .error err => .error err
          | .ok slots => .ok (Function.update levels stride (some ⟨H, W, slots⟩))
    | _ => .error dimsErr

/-- The levels in the order of the map. -/
def ascending {L : Type} (spec : DecodeSpec) (levels : Nat → Option (Level L)) : List (Nat × Level L) :=
  (spec.strides.dedup.insertionSort (· ≤ ·)).filterMap fun s => (levels s).map fun lv => (s, lv)

/-- A cell of a grid: dropped because a number is not finite, below the
threshold, or a detection with its keypoints. -/
inductive Candidate (F : Type)
  | dropped
  | below
  | found (det : Detection F) (kpts : List (Keypoint F))

structure Candidates (F : Type) where
  dets : List (Detection F)
  kpts : List (Keypoint F)
  dropped : Nat

def Candidates.push (out : Candidates F) : Candidate F → Candidates F
  | .dropped => { out with dropped := out.dropped + 1 }
  | .below => out
  | .found det kpts =>
    { out with
      dets := out.dets ++ [{ det with kptOffset := UInt32.ofNat out.kpts.length }]
      kpts := out.kpts ++ kpts }

/-- The cells of a grid, row by row, as `(gy, gx)`. -/
def cells (H W : Int) : List (Nat × Nat) :=
  (List.range H.toNat).flatMap fun gy => (List.range W.toNat).map fun gx => (gy, gx)

/-- What `decode` leaves when it returns true: the detections, and the note in
`err`. -/
structure Decoded (F : Type) where
  dets : List (Detection F)
  kpts : List (Keypoint F)
  note : Option String

section

variable [Floats F]

def finish (ctx : String) (nmsTh : F) (out : Candidates F) : Decoded F :=
  let kept := Nms.nms nmsTh true out.dets out.kpts
  ⟨kept.1, kept.2, noteDropped ctx out.dropped⟩

def sigmoid (x : F) : F := 1.0 / (1.0 + Floats.exp (-x))

/-- The best score and its index. -/
def bestClass : List F → F × Nat
  | [] => (0.0, 0)
  | score :: scores =>
    (scores.zipIdx 1).foldl (fun best s => if s.1 > best.1 then s else best) (score, 0)

def dflDistance (bins : List F) (rm plane : Nat) : Option F :=
  let vs := (List.range rm).map fun k => bins.getD (k * plane) 0.0
  if vs.all Floats.isfinite = false then none
  else
    let mx := vs.foldl stdMax (-Floats.infinity)
    if Floats.isfinite mx = false then none
    else
      let sums := vs.zipIdx.foldl
        (fun (sums : F × F) v =>
          let e := Floats.exp (v.1 - mx)
          (sums.1 + e, sums.2 + e * ((v.2 : Int) : F)))
        (0.0, 0.0)
      if Floats.isfinite sums.1 = false ∨ sums.1 ≤ 0.0 ∨ Floats.isfinite sums.2 = false then none
      else
        let dist := sums.2 / sums.1
        if Floats.isfinite dist then some dist else none

/-- The distances to the four sides. -/
def dflDistances (box : List F) (rm plane cell : Nat) : Option (F × F × F × F) := do
  let left ← dflDistance (box.drop (0 * rm * plane + cell)) rm plane
  let top ← dflDistance (box.drop (1 * rm * plane + cell)) rm plane
  let right ← dflDistance (box.drop (2 * rm * plane + cell)) rm plane
  let bottom ← dflDistance (box.drop (3 * rm * plane + cell)) rm plane
  return (left, top, right, bottom)

/-- The detection of a cell. -/
def gridBox (modelW modelH : Int) (stride : Nat) (dist : F × F × F × F) (gy gx : Nat) (score : F) (classId : Nat) :
    Detection F :=
  let centre := fun g : Nat => ((g : Int) : F) + 0.5
  let x0 := (centre gx - dist.1) * ((stride : Int) : F)
  let x1 := (centre gx + dist.2.2.1) * ((stride : Int) : F)
  let y0 := (centre gy - dist.2.1) * ((stride : Int) : F)
  let y1 := (centre gy + dist.2.2.2) * ((stride : Int) : F)
  { cx := (x0 + x1) * 0.5 / (modelW : F)
    cy := (y0 + y1) * 0.5 / (modelH : F)
    w := (x1 - x0) / (modelW : F)
    h := (y1 - y0) / (modelH : F)
    score := score
    classId := Int32.ofNat classId
    trackId := 0
    kptOffset := 0
    kptCount := 0 }

end

/-! ## The strides, one by one

What the loop over the tensors does for a stride, it does from the tensors of
that stride alone. -/

section

variable {L : Type} {ctx dimsErr : String} {empty : L} {fill : L → Int → Int → Int → String → List F → Except String L}
  {spec : DecodeSpec} {modelW modelH H W : Int} {levels : Nat → Option (Level L)} {t : TensorView F} {s : Nat}

def channels (t : TensorView F) : Int := t.dims.headD 0

/-- The stride of a tensor, 0 if it has none. -/
def strideOf (spec : DecodeSpec) (modelW modelH : Int) (t : TensorView F) : Nat :=
  match t.dims with
  | [_, H, W] => matchStride spec modelW modelH H W
  | _ => 0

/-- What a tensor does to the level of its stride. -/
def turn (ctx dimsErr : String) (empty : L) (fill : L → Int → Int → Int → String → List F → Except String L)
    (spec : DecodeSpec) (modelW modelH : Int) (lv : Option (Level L)) (t : TensorView F) : Except String (Level L) :=
  match checkView t ctx with
  | .error err => .error err
  | .ok data =>
    match t.dims with
    | [C, H, W] =>
      if matchStride spec modelW modelH H W = 0 then .error (ctx ++ ": output HxW does not match a stride")
      else
        let lv := lv.getD ⟨0, 0, empty⟩
        if lv.H ≠ 0 ∧ (lv.H ≠ H ∨ lv.W ≠ W) then .error (ctx ++ ": one stride got two spatial sizes")
        else (fill lv.slots C H W t.name data).map fun slots => ⟨H, W, slots⟩
    | _ => .error dimsErr

theorem place_eq :
    place ctx dimsErr empty fill spec modelW modelH levels t =
      Lib.PerKey.place (strideOf spec modelW modelH) (turn ctx dimsErr empty fill spec modelW modelH) levels t := by
  unfold place Lib.PerKey.place turn
  cases checkView t ctx with
  | error err => rfl
  | ok data =>
    dsimp only
    split
    · next C H W hdims =>
      have hkey : strideOf spec modelW modelH t = matchStride spec modelW modelH H W := by simp [strideOf, hdims]
      simp only [hkey]
      split_ifs
      · rfl
      · rfl
      · cases fill ((levels (matchStride spec modelW modelH H W)).getD ⟨0, 0, empty⟩).slots C H W t.name data <;> rfl
    · rfl

theorem turn_of_none (hs : strideOf spec modelW modelH t = 0) {lv : Option (Level L)} {lv' : Level L} :
    turn ctx dimsErr empty fill spec modelW modelH lv t ≠ .ok lv' := by
  unfold turn
  cases checkView t ctx with
  | error err => exact fun h => by cases h
  | ok data =>
    dsimp only
    split
    · next C H W hdims =>
      have hkey : matchStride spec modelW modelH H W = 0 := by
        rw [← hs]
        simp [strideOf, hdims]
      rw [if_pos hkey]
      exact fun h => by cases h
    · exact fun h => by cases h

theorem shapeLoop_pos {elem n : Nat} {dims : List Int} (h : shapeLoop elem dims = some n) : ∀ d ∈ dims, 0 < d := by
  induction dims generalizing elem with
  | nil => simp
  | cons d dims ih =>
    simp only [shapeLoop] at h
    split_ifs at h with hd
    exact List.forall_mem_cons.mpr ⟨not_le.mp hd, ih h⟩

theorem checkView_pos {data : List F} (h : checkView t ctx = .ok data) : ∀ d ∈ t.dims, 0 < d := by
  unfold checkView at h
  split at h
  · cases h
  · split at h
    · cases h
    · next elem helem =>
      unfold shapeElements at helem
      split_ifs at helem
      exact shapeLoop_pos helem

theorem matchStride_spec (hs : matchStride spec modelW modelH H W = s) (hne : s ≠ 0) :
    s ∈ spec.strides ∧ modelH / (s : Int) = H ∧ modelW / (s : Int) = W := by
  unfold matchStride at hs
  cases hf : spec.strides.find? fun s : Nat =>
      modelH % (s : Int) == 0 && modelH / (s : Int) == H && modelW % (s : Int) == 0 && modelW / (s : Int) == W with
  | none =>
    rw [hf] at hs
    exact absurd hs.symm hne
  | some s' =>
    rw [hf, Option.getD_some] at hs
    subst hs
    have hp := List.find?_some hf
    simp only [Bool.and_eq_true, beq_iff_eq] at hp
    exact ⟨List.mem_of_find?_eq_some hf, hp.1.1.2, hp.2⟩

theorem strideOf_spec (hs : strideOf spec modelW modelH t = s) (hne : s ≠ 0) :
    s ∈ spec.strides ∧ t.dims = [channels t, modelH / (s : Int), modelW / (s : Int)] := by
  unfold strideOf at hs
  split at hs
  · next C H W hdims =>
    obtain ⟨hmem, rfl, rfl⟩ := matchStride_spec hs hne
    exact ⟨hmem, by simp [channels, hdims]⟩
  · exact absurd hs.symm hne

end

end Yolo

end RetailVision.Vb
