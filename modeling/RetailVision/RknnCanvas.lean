/-
The canvas of an NPU context (`core-cpp/vb/backends/rknn/hybrid_rga_rknn.cpp`): it is
filled with the grey of the letterbox when the context is created, and each frame is
put into its rectangle; what is around the rectangle is not filled again. A context
serves the frames of all streams, one after the other.

So around a frame the model sees what frames before it have left there (`canvas_run`):
the grey, if they were all of one size. RGA scales and converts; what it puts at a
point is a parameter.
-/
import RetailVision.Letterbox
import Mathlib.Data.List.Induction

set_option linter.all false

namespace RetailVision.Vb.RknnCanvas

open RetailVision.Lib

variable {P : Type}

/-- The context, whose model has a canvas (`dimensions`). -/
structure Hybrid where
  width : Int
  height : Int
  width_pos : 0 < width
  height_pos : 0 < height

structure Rect where
  x : Int
  y : Int
  w : Int
  h : Int
  deriving DecidableEq

def Rect.Covers (r : Rect) (px py : Int) : Prop := r.x ≤ px ∧ px < r.x + r.w ∧ r.y ≤ py ∧ py < r.y + r.h

instance (r : Rect) (px py : Int) : Decidable (r.Covers px py) :=
  inferInstanceAs (Decidable (r.x ≤ px ∧ px < r.x + r.w ∧ r.y ≤ py ∧ py < r.y + r.h))

/-- What RGA does. Where it fails, it may have written some of the rectangle. -/
inductive Rga (P : Type)
  | success
  | failure (status : Int) (written : Int → Int → Option P)

/-- A call of `infer_nv12_fd`. `content` is the frame, scaled to its rectangle, and a
status is given where it is not that of a success. -/
structure Call (P : Type) where
  srcFd : Int
  srcW : Int
  srcH : Int
  yStride : Int
  content : Int → Int → P
  rga : Rga P
  runStatus : Option Int
  getStatus : Option Int
  releaseStatus : Option Int

/-- What the texts need: `imStrError`, and `std::to_string` of a `float`. -/
structure Texts where
  imStrError : Int → String
  float : ℚ → String

/-- `static_cast<int>` -/
def truncate (x : ℚ) : Int := x.num.tdiv x.den

/-- The geometry, and the rectangle for RGA. -/
def place (t : Texts) (hybrid : Hybrid) (srcW srcH : Int) : Except (Int × String) (LetterboxGeom ℚ × Rect) :=
  match letterboxFit srcW srcH hybrid.width hybrid.height .center with
  | .error err => .error (-1, err)
  | .ok geom =>
    let scaledW := pyRound (srcW * geom.scale)
    let scaledH := pyRound (srcH * geom.scale)
    let dstX := (hybrid.width - scaledW).tdiv 2
    let dstY := (hybrid.height - scaledH).tdiv 2
    if dstX ≠ truncate geom.padX ∨ dstY ≠ truncate geom.padY then
      .error (-2, s!"letterbox geometry mismatch: rect={dstX},{dstY} geom={t.float geom.padX},{t.float geom.padY}")
    else .ok (geom, ⟨dstX, dstY, min (max scaledW 1) (hybrid.width - dstX), min (max scaledH 1) (hybrid.height - dstY)⟩)

abbrev Canvas (P : Type) := Int → Int → P

/-- What a call writes into a rectangle. -/
def Call.write (c : Call P) (r : Rect) (px py : Int) : Option P :=
  if r.Covers px py then
    match c.rga with
    | .success => some (c.content px py)
    | .failure _ written => written px py
  else none

def store (canvas : Canvas P) (write : Int → Int → Option P) : Canvas P := fun px py => (write px py).getD (canvas px py)

def inferNv12Fd (t : Texts) (hybrid : Hybrid) (canvas : Canvas P) (c : Call P) :
    Canvas P × Except (Int × String) (LetterboxGeom ℚ) :=
  if c.srcFd < 0 ∨ c.srcW ≤ 0 ∨ c.srcH ≤ 0 ∨ c.yStride < c.srcW then
    (canvas, .error (-1, s!"invalid NV12 source: fd={c.srcFd} size={c.srcW}x{c.srcH} y_stride={c.yStride}"))
  else
    match place t hybrid c.srcW c.srcH with
    | .error err => (canvas, .error err)
    | .ok (geom, drect) =>
      let canvas := store canvas (c.write drect)
      match c.rga, c.runStatus, c.getStatus, c.releaseStatus with
      | .failure status _, _, _, _ => (canvas, .error (-3, s!"rga improcess={status} {t.imStrError status}"))
      | .success, some status, _, _ => (canvas, .error (-4, s!"rknn_run={status}"))
      | .success, none, some status, _ => (canvas, .error (-5, s!"rknn_outputs_get={status}"))
      | .success, none, none, some status => (canvas, .error (-6, s!"rknn_outputs_release={status}"))
      | .success, none, none, none => (canvas, .ok geom)

/-- The calls one after the other, as `run_mutex` has them. -/
def run (t : Texts) (hybrid : Hybrid) (grey : P) (calls : List (Call P)) : Canvas P :=
  calls.foldl (fun canvas c => (inferNv12Fd t hybrid canvas c).1) fun _ _ => grey

/-! ## The rectangle -/

/-- The rectangle of frames of a size. -/
def drect (hybrid : Hybrid) (srcW srcH : Int) : Rect :=
  let scale := fitScale srcW srcH hybrid.width hybrid.height
  let scaledW := roundEven (srcW * scale)
  let scaledH := roundEven (srcH * scale)
  let dstX := (hybrid.width - scaledW) / 2
  let dstY := (hybrid.height - scaledH) / 2
  ⟨dstX, dstY, min (max scaledW 1) (hybrid.width - dstX), min (max scaledH 1) (hybrid.height - dstY)⟩

/-- The rectangle is in the canvas, and not empty. -/
structure Rect.Within (r : Rect) (hybrid : Hybrid) : Prop where
  left : 0 ≤ r.x
  top : 0 ≤ r.y
  wide : 0 < r.w
  high : 0 < r.h
  right : r.x + r.w ≤ hybrid.width
  bottom : r.y + r.h ≤ hybrid.height

@[simp] theorem truncate_intCast (n : Int) : truncate n = n := by simp [truncate]

variable {t : Texts} {hybrid : Hybrid} {srcW srcH : Int} {canvas : Canvas P} {c : Call P} {grey : P} {past : List (Call P)} {px py : Int}

/-- The rounded size is in the canvas. -/
theorem scaled_mem (hw : 0 < srcW) (hh : 0 < srcH) (hybrid : Hybrid) :
    let scale := fitScale srcW srcH hybrid.width hybrid.height
    (0 ≤ roundEven (srcW * scale) ∧ roundEven (srcW * scale) ≤ hybrid.width) ∧
      0 ≤ roundEven (srcH * scale) ∧ roundEven (srcH * scale) ≤ hybrid.height := by
  intro scale
  have hsw : (0 : ℚ) < srcW := Int.cast_pos.mpr hw
  have hsh : (0 : ℚ) < srcH := Int.cast_pos.mpr hh
  have hmw : (0 : ℚ) < hybrid.width := Int.cast_pos.mpr hybrid.width_pos
  have hmh : (0 : ℚ) < hybrid.height := Int.cast_pos.mpr hybrid.height_pos
  have hscale : 0 ≤ scale := le_min (div_nonneg hmw.le hsw.le) (div_nonneg hmh.le hsh.le)
  obtain ⟨hx, hy, -⟩ := scale_spec hsw hsh hybrid.width hybrid.height
  have hx0 : ((0 : Int) : ℚ) ≤ srcW * scale := by simpa using mul_nonneg hsw.le hscale
  have hy0 : ((0 : Int) : ℚ) ≤ srcH * scale := by simpa using mul_nonneg hsh.le hscale
  exact ⟨⟨le_roundEven hx0, roundEven_le hx⟩, le_roundEven hy0, roundEven_le hy⟩

theorem drect_within (hw : 0 < srcW) (hh : 0 < srcH) (hybrid : Hybrid) : (drect hybrid srcW srcH).Within hybrid := by
  obtain ⟨⟨hx0, hx⟩, hy0, hy⟩ := scaled_mem hw hh hybrid
  have hwidth := hybrid.width_pos
  have hheight := hybrid.height_pos
  constructor <;> simp only [drect] <;> omega

/-- The check of the geometry never fails: it is the same rounding. -/
theorem place_eq (t : Texts) (hw : 0 < srcW) (hh : 0 < srcH) (hybrid : Hybrid) :
    ∃ geom, letterboxFit srcW srcH hybrid.width hybrid.height .center = .ok geom ∧
      geom.padX = (drect hybrid srcW srcH).x ∧ geom.padY = (drect hybrid srcW srcH).y ∧
      place t hybrid srcW srcH = .ok (geom, drect hybrid srcW srcH) := by
  obtain ⟨⟨-, hx⟩, -, hy⟩ := scaled_mem hw hh hybrid
  have hdivX := Int.tdiv_eq_ediv_of_nonneg (b := 2) (Int.sub_nonneg.mpr hx)
  have hdivY := Int.tdiv_eq_ediv_of_nonneg (b := 2) (Int.sub_nonneg.mpr hy)
  have hfit := letterboxFit_eq hw hh hybrid.width_pos hybrid.height_pos .center
  rw [if_pos rfl, if_pos rfl, hdivX, hdivY] at hfit
  refine ⟨_, hfit, rfl, rfl, ?_⟩
  simp only [place, hfit, pyRound_eq, hdivX, hdivY, truncate_intCast, ne_eq, not_true_eq_false, or_self, if_false]
  rfl

/-! ## The canvas -/

/-- The call has a frame that is put into the canvas. -/
structure Call.Valid (c : Call P) : Prop where
  fd : 0 ≤ c.srcFd
  width : 0 < c.srcW
  height : 0 < c.srcH
  stride : c.srcW ≤ c.yStride

instance (c : Call P) : Decidable c.Valid :=
  decidable_of_iff (0 ≤ c.srcFd ∧ 0 < c.srcW ∧ 0 < c.srcH ∧ c.srcW ≤ c.yStride)
    ⟨fun ⟨hf, hw, hh, hs⟩ => ⟨hf, hw, hh, hs⟩, fun h => ⟨h.fd, h.width, h.height, h.stride⟩⟩

/-- All that the call needs of others succeeds. -/
structure Call.Succeeds (c : Call P) : Prop extends c.Valid where
  rga : c.rga = .success
  ran : c.runStatus = none
  got : c.getStatus = none
  released : c.releaseStatus = none

/-- What a call leaves at a point. -/
def Call.mark (hybrid : Hybrid) (px py : Int) (c : Call P) : Option P :=
  if c.Valid then c.write (drect hybrid c.srcW c.srcH) px py else none

/-- A frame in its rectangle, on the grey. -/
def letterboxed (grey : P) (r : Rect) (content : Canvas P) : Canvas P := fun px py => if r.Covers px py then content px py else grey

theorem Call.Valid.not_invalid (h : c.Valid) : ¬ (c.srcFd < 0 ∨ c.srcW ≤ 0 ∨ c.srcH ≤ 0 ∨ c.yStride < c.srcW) := by
  obtain ⟨hf, hw, hh, hs⟩ := h
  omega

theorem infer_canvas (t : Texts) (hybrid : Hybrid) (canvas : Canvas P) (c : Call P) :
    (inferNv12Fd t hybrid canvas c).1 = store canvas fun px py => c.mark hybrid px py := by
  by_cases hv : c.Valid
  · obtain ⟨geom, -, -, -, hplace⟩ := place_eq t hv.width hv.height hybrid
    have hmark : (fun px py => c.mark hybrid px py) = c.write (drect hybrid c.srcW c.srcH) := by
      funext px py
      exact if_pos hv
    rw [inferNv12Fd, if_neg hv.not_invalid, hplace, hmark]
    dsimp only
    split <;> rfl
  · have hinvalid : c.srcFd < 0 ∨ c.srcW ≤ 0 ∨ c.srcH ≤ 0 ∨ c.yStride < c.srcW := by
      by_contra hall
      exact hv ⟨by omega, by omega, by omega, by omega⟩
    have hmark : (fun px py => c.mark hybrid px py) = fun _ _ => none := by
      funext px py
      exact if_neg hv
    rw [inferNv12Fd, if_pos hinvalid, hmark]
    rfl

theorem run_concat : run t hybrid grey (past ++ [c]) = (inferNv12Fd t hybrid (run t hybrid grey past) c).1 := by simp [run]

/-- A point shows the last that was left there. -/
theorem canvas_run (t : Texts) (hybrid : Hybrid) (grey : P) (calls : List (Call P)) (px py : Int) :
    run t hybrid grey calls px py = (calls.reverse.findSome? (Call.mark hybrid px py)).getD grey := by
  induction calls using List.reverseRecOn with
  | nil => rfl
  | append_singleton calls c ih =>
    rw [run_concat, infer_canvas, store, ih, List.reverse_append, List.reverse_singleton, List.singleton_append, List.findSome?_cons]
    cases c.mark hybrid px py <;> rfl

theorem mark_outside (h : ¬ (drect hybrid c.srcW c.srcH).Covers px py) : c.mark hybrid px py = none := by
  simp [Call.mark, Call.write, h]

theorem Call.Succeeds.mark (h : c.Succeeds) :
    c.mark hybrid px py = if (drect hybrid c.srcW c.srcH).Covers px py then some (c.content px py) else none := by
  simp only [Call.mark, if_pos h.toValid, Call.write, h.rga]

/-- A frame that is inferred is in its rectangle, which is in the canvas and where the
decoder is told that it is. Around it the model sees what the frames before have left;
the grey, if they were all of its size. -/
theorem canvas_letterboxed (h : c.Succeeds) (t : Texts) (hybrid : Hybrid) (grey : P) (past : List (Call P)) :
    let r := drect hybrid c.srcW c.srcH
    let canvas := run t hybrid grey (past ++ [c])
    r.Within hybrid ∧
      (∃ geom, letterboxFit c.srcW c.srcH hybrid.width hybrid.height .center = .ok geom ∧ geom.padX = r.x ∧ geom.padY = r.y ∧
        inferNv12Fd t hybrid (run t hybrid grey past) c = (canvas, .ok geom)) ∧
      (∀ px py, r.Covers px py → canvas px py = c.content px py) ∧
      (∀ px py, ¬ r.Covers px py → canvas px py = (past.reverse.findSome? (Call.mark hybrid px py)).getD grey) ∧
      ((∀ d ∈ past, d.srcW = c.srcW ∧ d.srcH = c.srcH) → canvas = letterboxed grey r c.content) := by
  intro r canvas
  have hpoint : ∀ px py, canvas px py =
      if r.Covers px py then c.content px py else (past.reverse.findSome? (Call.mark hybrid px py)).getD grey := by
    intro px py
    change run t hybrid grey (past ++ [c]) px py = _
    rw [canvas_run, List.reverse_append, List.reverse_singleton, List.singleton_append, List.findSome?_cons, h.mark]
    by_cases hcover : r.Covers px py
    · rw [if_pos hcover, if_pos hcover]
      rfl
    · rw [if_neg hcover, if_neg hcover]
  refine ⟨drect_within h.width h.height hybrid, ?_, fun px py hcover => ?_, fun px py hcover => ?_, fun hsame => ?_⟩
  · obtain ⟨geom, hfit, hx, hy, hplace⟩ := place_eq t h.width h.height hybrid
    refine ⟨geom, hfit, hx, hy, Prod.ext run_concat.symm ?_⟩
    simp only [inferNv12Fd, if_neg h.toValid.not_invalid, hplace, h.rga, h.ran, h.got, h.released]
  · rw [hpoint, if_pos hcover]
  · rw [hpoint, if_neg hcover]
  · funext px py
    by_cases hcover : r.Covers px py
    · rw [hpoint, letterboxed, if_pos hcover, if_pos hcover]
    · have hnone : past.reverse.findSome? (Call.mark hybrid px py) = none := by
        rw [List.findSome?_eq_none_iff]
        intro d hd
        obtain ⟨hw, hh⟩ := hsame d (List.mem_reverse.mp hd)
        exact mark_outside (by rwa [hw, hh])
      rw [hpoint, letterboxed, if_neg hcover, if_neg hcover, hnone]
      rfl

/-- A camera of 16:9 and one of 4:3, whose frames show a number each. -/
def wide (n : Nat) : Call Nat := ⟨3, 1280, 720, 1280, fun _ _ => n, .success, none, none, none⟩

def tall (n : Nat) : Call Nat := ⟨4, 960, 720, 960, fun _ _ => n, .success, none, none, none⟩

def square : Hybrid := ⟨640, 640, by decide, by decide⟩

def texts : Texts := ⟨fun _ => "", fun _ => ""⟩

theorem canvas_letterboxed_wide : run texts square 114 [wide 1, wide 2] = letterboxed 114 ⟨0, 140, 640, 360⟩ fun _ _ => 2 := by
  have hrect : drect square (wide 2).srcW (wide 2).srcH = ⟨0, 140, 640, 360⟩ := by decide +kernel
  have hok : (wide 2).Succeeds := ⟨by constructor <;> decide, rfl, rfl, rfl, rfl⟩
  obtain ⟨-, -, -, -, hsame⟩ := canvas_letterboxed hok texts square 114 [wide 1]
  rw [hrect] at hsame
  exact hsame (by simp [wide])

-- With two cameras of different shapes the bars of one show the frame of the other.
example : run texts square 114 [tall 1, wide 2] 320 100 = 1 := by decide +kernel

end RetailVision.Vb.RknnCanvas
