/-
The letterbox of the native core (`core-cpp/vb/src/letterbox.cpp`) and of the
host (`vision_base/letterbox.py`), with exact numbers. Both fit a frame into the
canvas of the model by the smaller ratio of the sizes, so that the axis of this
ratio is filled; half of what remains in the other is its padding. The scaled
size is rounded before it is subtracted, and never to more than the canvas, so
the content stays within (`fitted`).
-/
import RetailVision.Lib.HalfEven
import RetailVision.VbTracker
import Mathlib.Data.Rat.Floor
import Mathlib.Tactic.FieldSimp

set_option linter.all false

namespace RetailVision.Vb

open RetailVision.Lib

/-! ## `letterbox.cpp` -/

/-- `py_round`, Python's rounding. -/
def pyRound (v : ℚ) : Int :=
  let f := ⌊v⌋
  let r := v - f
  if r > 0.5 then f + 1
  else if r < 0.5 then f
  else if f.tmod 2 = 0 then f else f + 1

def letterboxFit (srcW srcH modelW modelH : Int) (a : Align) : Except String (LetterboxGeom ℚ) :=
  if srcW ≤ 0 ∨ srcH ≤ 0 ∨ modelW ≤ 0 ∨ modelH ≤ 0 then .error "letterbox sizes must be > 0"
  else
    let scale := stdMin ((modelW : ℚ) / srcW) ((modelH : ℚ) / srcH)
    let sw := pyRound (srcW * scale)
    let sh := pyRound (srcH * scale)
    .ok
      { srcW := srcW
        srcH := srcH
        modelW := modelW
        modelH := modelH
        scale := scale
        padX := if a = .center then ((modelW - sw).tdiv 2 : Int) else 0
        padY := if a = .center then ((modelH - sh).tdiv 2 : Int) else 0
        align := a }

namespace LetterboxGeom

variable {F : Type} [Num F]

def toModelNorm (g : LetterboxGeom F) (sx sy : F) : F × F :=
  let px := (sx * (g.srcW : F)) * g.scale + g.padX
  let py := (sy * (g.srcH : F)) * g.scale + g.padY
  (px / (g.modelW : F), py / (g.modelH : F))

/-- The centre and the size of a box. -/
def boxToSourceNorm (g : LetterboxGeom F) (cx cy w h : F) : F × F × F × F :=
  let s := g.toSourceNorm cx cy
  (s.1, s.2, w * (g.modelW : F) / (g.scale * (g.srcW : F)), h * (g.modelH : F) / (g.scale * (g.srcH : F)))

end LetterboxGeom

/-! ## `letterbox.py` -/

namespace Py

structure LetterboxGeom where
  srcW : Int
  srcH : Int
  modelW : Int
  modelH : Int
  scale : ℚ
  padX : ℚ
  padY : ℚ
  align : String

def aligns : List String := ["center", "top_left"]

def checkSize (name : String) (value : Int) : Except String Unit :=
  if value ≤ 0 then .error (name ++ " must be > 0, got " ++ toString value) else .ok ()

/-- `repr` is Python's, of a string. -/
def fit (repr : String → String) (srcW srcH modelW modelH : Int) (align : String) : Except String LetterboxGeom := do
  checkSize "src_w" srcW
  checkSize "src_h" srcH
  checkSize "model_w" modelW
  checkSize "model_h" modelH
  if align ∉ aligns then .error ("align must be one of ('center', 'top_left'), got " ++ repr align)
  let scale := min ((modelW : ℚ) / srcW) ((modelH : ℚ) / srcH)
  let sw := roundEven (srcW * scale)
  let sh := roundEven (srcH * scale)
  return {
    srcW := srcW
    srcH := srcH
    modelW := modelW
    modelH := modelH
    scale := scale
    padX := if align = "center" then ((modelW - sw).fdiv 2 : Int) else 0
    padY := if align = "center" then ((modelH - sh).fdiv 2 : Int) else 0
    align := align }

def toSourceNorm (geom : LetterboxGeom) (mx my : ℚ) : ℚ × ℚ :=
  let px := mx * geom.modelW
  let py := my * geom.modelH
  (((px - geom.padX) / geom.scale) / geom.srcW, ((py - geom.padY) / geom.scale) / geom.srcH)

def toModelNorm (geom : LetterboxGeom) (sx sy : ℚ) : ℚ × ℚ :=
  let px := (sx * geom.srcW) * geom.scale + geom.padX
  let py := (sy * geom.srcH) * geom.scale + geom.padY
  (px / geom.modelW, py / geom.modelH)

def boxToSourceNorm (geom : LetterboxGeom) (cx cy w h : ℚ) : ℚ × ℚ × ℚ × ℚ :=
  let s := toSourceNorm geom cx cy
  (s.1, s.2, w * geom.modelW / (geom.scale * geom.srcW), h * geom.modelH / (geom.scale * geom.srcH))

end Py

/-! ## The fit -/

theorem pyRound_eq (v : ℚ) : pyRound v = roundEven v := by
  have hhalf : (0.5 : ℚ) = 1 / 2 := by norm_num
  have heven : ∀ f : Int, f.tmod 2 = 0 ↔ f % 2 = 0 := fun f =>
    Int.dvd_iff_tmod_eq_zero.symm.trans Int.dvd_iff_emod_eq_zero
  rw [roundEven_eq]
  simp only [pyRound, hhalf, heven]

theorem stdMin_eq (x y : ℚ) : stdMin x y = min x y := by
  unfold stdMin
  rcases le_or_gt x y with h | h
  · rw [min_eq_left h]
    exact if_neg h.not_gt
  · rw [min_eq_right h.le]
    exact if_pos h

/-- How one axis is filled: a content that is not longer than the canvas is not
pushed beyond it by half of what its rounded length leaves. -/
theorem axis_within {content : ℚ} {model : Int} (hle : content ≤ model) :
    0 ≤ model - roundEven content ∧ (((model - roundEven content) / 2 : Int) : ℚ) + content ≤ model := by
  have hround := roundEven_le hle
  refine ⟨by omega, ?_⟩
  have hhalf : 2 * ((model - roundEven content) / 2) ≤ model - roundEven content := by omega
  have hcast : 2 * (((model - roundEven content) / 2 : Int) : ℚ) ≤ model - roundEven content := by exact_mod_cast hhalf
  rcases hround.lt_or_eq with hlt | heq
  · have hgap : (roundEven content : ℚ) + 1 ≤ model := by exact_mod_cast hlt
    have := le_roundEven_add content
    linarith
  · rw [heq]
    simpa using hle

/-- The content of the frame within the canvas. -/
structure Fitted (g : LetterboxGeom ℚ) : Prop where
  padX : ∃ n : Nat, g.padX = n
  padY : ∃ n : Nat, g.padY = n
  withinX : g.padX + g.srcW * g.scale ≤ g.modelW
  withinY : g.padY + g.srcH * g.scale ≤ g.modelH
  fills : g.padX = 0 ∧ g.srcW * g.scale = g.modelW ∨ g.padY = 0 ∧ g.srcH * g.scale = g.modelH

def alignName : Align → String
  | .center => "center"
  | .topLeft => "top_left"

variable {srcW srcH modelW modelH : Int} {a : Align}

/-- The padding of one axis. What is halved is not negative, so the two
languages halve it alike. -/
theorem pad_spec {content : ℚ} {model : Int} (hle : content ≤ model) (a : Align) :
    ∃ n : Nat, (if a = .center then (((model - roundEven content).tdiv 2 : Int) : ℚ) else 0) = n ∧
      (if a = .center then (((model - roundEven content).fdiv 2 : Int) : ℚ) else 0) = n ∧
      (n : ℚ) + content ≤ model ∧ (content = model → n = 0) := by
  obtain ⟨hnonneg, hwithin⟩ := axis_within hle
  have htdiv : (model - roundEven content).tdiv 2 = (model - roundEven content) / 2 := Int.tdiv_eq_ediv_of_nonneg hnonneg
  have hfdiv : (model - roundEven content).fdiv 2 = (model - roundEven content) / 2 := Int.fdiv_eq_ediv_of_nonneg _ (by omega)
  cases a with
  | center =>
    have hpad : 0 ≤ (model - roundEven content) / 2 := by omega
    obtain ⟨n, hn⟩ := Int.eq_ofNat_of_zero_le hpad
    rw [hn] at hwithin
    refine ⟨n, by rw [if_pos rfl, htdiv, hn]; rfl, by rw [if_pos rfl, hfdiv, hn]; rfl, by exact_mod_cast hwithin, fun heq => ?_⟩
    rw [heq, roundEven_intCast] at hn
    omega
  | topLeft => exact ⟨0, by simp, by simp, by simpa using hle, fun _ => rfl⟩

/-- The smaller of the ratios fills its axis, and the other one not beyond. -/
theorem scale_spec {w h : ℚ} (hw : 0 < w) (hh : 0 < h) (mw mh : ℚ) :
    w * min (mw / w) (mh / h) ≤ mw ∧ h * min (mw / w) (mh / h) ≤ mh ∧
      (w * min (mw / w) (mh / h) = mw ∨ h * min (mw / w) (mh / h) = mh) := by
  have hmw : w * (mw / w) = mw := mul_div_cancel₀ mw hw.ne'
  have hmh : h * (mh / h) = mh := mul_div_cancel₀ mh hh.ne'
  rcases le_total (mw / w) (mh / h) with hle | hle
  · rw [min_eq_left hle]
    refine ⟨hmw.le, ?_, .inl hmw⟩
    calc h * (mw / w) ≤ h * (mh / h) := mul_le_mul_of_nonneg_left hle hh.le
      _ = mh := hmh
  · rw [min_eq_right hle]
    refine ⟨?_, hmh.le, .inr hmh⟩
    calc w * (mh / h) ≤ w * (mw / w) := mul_le_mul_of_nonneg_left hle hw.le
      _ = mw := hmw

/-- The scale of either fit. -/
def fitScale (srcW srcH modelW modelH : Int) : ℚ := min ((modelW : ℚ) / srcW) ((modelH : ℚ) / srcH)

section

variable (hsw : 0 < srcW) (hsh : 0 < srcH) (hmw : 0 < modelW) (hmh : 0 < modelH)

include hsw hsh hmw hmh

theorem letterboxFit_eq (a : Align) :
    letterboxFit srcW srcH modelW modelH a =
      .ok
        { srcW := srcW
          srcH := srcH
          modelW := modelW
          modelH := modelH
          scale := fitScale srcW srcH modelW modelH
          padX := if a = .center then ((modelW - roundEven (srcW * fitScale srcW srcH modelW modelH)).tdiv 2 : Int) else 0
          padY := if a = .center then ((modelH - roundEven (srcH * fitScale srcW srcH modelW modelH)).tdiv 2 : Int) else 0
          align := a } := by
  have hpos : ¬ (srcW ≤ 0 ∨ srcH ≤ 0 ∨ modelW ≤ 0 ∨ modelH ≤ 0) := by omega
  simp only [letterboxFit, if_neg hpos, pyRound_eq, stdMin_eq, fitScale]

theorem py_fit_eq (repr : String → String) (a : Align) :
    Py.fit repr srcW srcH modelW modelH (alignName a) =
      .ok
        { srcW := srcW
          srcH := srcH
          modelW := modelW
          modelH := modelH
          scale := fitScale srcW srcH modelW modelH
          padX := if a = .center then ((modelW - roundEven (srcW * fitScale srcW srcH modelW modelH)).fdiv 2 : Int) else 0
          padY := if a = .center then ((modelH - roundEven (srcH * fitScale srcW srcH modelW modelH)).fdiv 2 : Int) else 0
          align := alignName a } := by
  have hname : alignName a ∈ Py.aligns := by cases a <;> simp [alignName, Py.aligns]
  have hcenter : alignName a = "center" ↔ a = .center := by cases a <;> simp [alignName]
  simp only [Py.fit, Py.checkSize, if_neg hsw.not_ge, if_neg hsh.not_ge, if_neg hmw.not_ge, if_neg hmh.not_ge,
    not_true_eq_false, hname, hcenter, if_false]
  rfl

end

/-! ## The maps -/

/-- The box whose corners are the images of those of the given one. -/
def mapCorners (f : ℚ → ℚ → ℚ × ℚ) (cx cy w h : ℚ) : ℚ × ℚ × ℚ × ℚ :=
  let p := f (cx - w / 2) (cy - h / 2)
  let q := f (cx + w / 2) (cy + h / 2)
  ((p.1 + q.1) / 2, (p.2 + q.2) / 2, q.1 - p.1, q.2 - p.2)

/-- The maps of points undo each other, and those of boxes too: the one back
from the canvas is the one of the corners. -/
structure Inverse (toSource toModel : ℚ → ℚ → ℚ × ℚ) (boxToSource : ℚ → ℚ → ℚ → ℚ → ℚ × ℚ × ℚ × ℚ) :
    Prop where
  source (mx my : ℚ) : toModel (toSource mx my).1 (toSource mx my).2 = (mx, my)
  model (sx sy : ℚ) : toSource (toModel sx sy).1 (toModel sx sy).2 = (sx, sy)
  corners (cx cy w h : ℚ) : boxToSource cx cy w h = mapCorners toSource cx cy w h
  boxSource (cx cy w h : ℚ) :
    let b := boxToSource cx cy w h
    mapCorners toModel b.1 b.2.1 b.2.2.1 b.2.2.2 = (cx, cy, w, h)
  boxModel (cx cy w h : ℚ) :
    let b := mapCorners toModel cx cy w h
    boxToSource b.1 b.2.1 b.2.2.1 b.2.2.2 = (cx, cy, w, h)

namespace LetterboxGeom

variable (g : LetterboxGeom ℚ)

theorem toSourceNorm_eq (mx my : ℚ) :
    g.toSourceNorm mx my = ((mx * g.modelW - g.padX) / g.scale / g.srcW, (my * g.modelH - g.padY) / g.scale / g.srcH) := rfl

theorem toModelNorm_eq (sx sy : ℚ) :
    g.toModelNorm sx sy = ((sx * g.srcW * g.scale + g.padX) / g.modelW, (sy * g.srcH * g.scale + g.padY) / g.modelH) := rfl

theorem boxToSourceNorm_eq (cx cy w h : ℚ) :
    g.boxToSourceNorm cx cy w h =
      ((g.toSourceNorm cx cy).1, (g.toSourceNorm cx cy).2, w * g.modelW / (g.scale * g.srcW), h * g.modelH / (g.scale * g.srcH)) := rfl

variable {g}

theorem inverse (hsw : (g.srcW : ℚ) ≠ 0) (hsh : (g.srcH : ℚ) ≠ 0) (hmw : (g.modelW : ℚ) ≠ 0) (hmh : (g.modelH : ℚ) ≠ 0)
    (hscale : g.scale ≠ 0) : Inverse g.toSourceNorm g.toModelNorm g.boxToSourceNorm where
  source mx my := by
    simp only [toSourceNorm_eq, toModelNorm_eq, Prod.mk.injEq]
    constructor <;> field_simp <;> ring
  model sx sy := by
    simp only [toSourceNorm_eq, toModelNorm_eq, Prod.mk.injEq]
    constructor <;> field_simp <;> ring
  corners cx cy w h := by
    simp only [boxToSourceNorm_eq, mapCorners, toSourceNorm_eq, Prod.mk.injEq]
    refine ⟨?_, ?_, ?_, ?_⟩ <;> field_simp <;> ring
  boxSource cx cy w h := by
    simp only [boxToSourceNorm_eq, mapCorners, toSourceNorm_eq, toModelNorm_eq, Prod.mk.injEq]
    refine ⟨?_, ?_, ?_, ?_⟩ <;> field_simp <;> ring
  boxModel cx cy w h := by
    simp only [boxToSourceNorm_eq, mapCorners, toSourceNorm_eq, toModelNorm_eq, Prod.mk.injEq]
    refine ⟨?_, ?_, ?_, ?_⟩ <;> field_simp <;> ring

end LetterboxGeom

/-- The host computes with the same geometry. -/
structure Same (p : Py.LetterboxGeom) (g : LetterboxGeom ℚ) : Prop where
  srcW : p.srcW = g.srcW
  srcH : p.srcH = g.srcH
  modelW : p.modelW = g.modelW
  modelH : p.modelH = g.modelH
  scale : p.scale = g.scale
  padX : p.padX = g.padX
  padY : p.padY = g.padY
  align : p.align = alignName g.align

namespace Same

variable {p : Py.LetterboxGeom} {g : LetterboxGeom ℚ} (hs : Same p g)

include hs

theorem toSourceNorm_eq : Py.toSourceNorm p = g.toSourceNorm := by
  funext mx my
  simp only [Py.toSourceNorm, LetterboxGeom.toSourceNorm_eq, hs.srcW, hs.srcH, hs.modelW, hs.modelH, hs.scale, hs.padX, hs.padY]

theorem toModelNorm_eq : Py.toModelNorm p = g.toModelNorm := by
  funext sx sy
  simp only [Py.toModelNorm, LetterboxGeom.toModelNorm_eq, hs.srcW, hs.srcH, hs.modelW, hs.modelH, hs.scale, hs.padX, hs.padY]

theorem boxToSourceNorm_eq : Py.boxToSourceNorm p = g.boxToSourceNorm := by
  funext cx cy w h
  simp only [Py.boxToSourceNorm, LetterboxGeom.boxToSourceNorm_eq, hs.toSourceNorm_eq, hs.srcW, hs.srcH, hs.modelW, hs.modelH, hs.scale]

theorem inverse (h : Inverse g.toSourceNorm g.toModelNorm g.boxToSourceNorm) :
    Inverse (Py.toSourceNorm p) (Py.toModelNorm p) (Py.boxToSourceNorm p) := by
  rw [hs.toSourceNorm_eq, hs.toModelNorm_eq, hs.boxToSourceNorm_eq]
  exact h

end Same

/-- The geometry of both fits. -/
theorem fitted (repr : String → String) (hsw : 0 < srcW) (hsh : 0 < srcH) (hmw : 0 < modelW) (hmh : 0 < modelH) (a : Align) :
    ∃ g p, letterboxFit srcW srcH modelW modelH a = .ok g ∧ Py.fit repr srcW srcH modelW modelH (alignName a) = .ok p ∧
      Same p g ∧ Fitted g ∧ Inverse g.toSourceNorm g.toModelNorm g.boxToSourceNorm := by
  have hsw' : (0 : ℚ) < srcW := by exact_mod_cast hsw
  have hsh' : (0 : ℚ) < srcH := by exact_mod_cast hsh
  have hmw' : (0 : ℚ) < modelW := by exact_mod_cast hmw
  have hmh' : (0 : ℚ) < modelH := by exact_mod_cast hmh
  have hscale : 0 < fitScale srcW srcH modelW modelH := lt_min (div_pos hmw' hsw') (div_pos hmh' hsh')
  obtain ⟨hx, hy, hfill⟩ := scale_spec hsw' hsh' modelW modelH
  rw [← fitScale] at hx hy hfill
  obtain ⟨nx, htx, hfx, hwx, hzx⟩ := pad_spec hx a
  obtain ⟨ny, hty, hfy, hwy, hzy⟩ := pad_spec hy a
  refine ⟨_, _, letterboxFit_eq hsw hsh hmw hmh a, py_fit_eq hsw hsh hmw hmh repr a, ?_⟩
  rw [htx, hty, hfx, hfy]
  refine ⟨⟨rfl, rfl, rfl, rfl, rfl, rfl, rfl, rfl⟩, ⟨⟨nx, rfl⟩, ⟨ny, rfl⟩, hwx, hwy, ?_⟩,
    LetterboxGeom.inverse hsw'.ne' hsh'.ne' hmw'.ne' hmh'.ne' hscale.ne'⟩
  rcases hfill with hfill | hfill
  · exact .inl ⟨by simp [hzx hfill], hfill⟩
  · exact .inr ⟨by simp [hzy hfill], hfill⟩

/-- The two fits give one geometry, with its content within the canvas, and the
maps of both are inverse to each other. -/
theorem letterbox_fits (repr : String → String) (hsw : 0 < srcW) (hsh : 0 < srcH) (hmw : 0 < modelW) (hmh : 0 < modelH) (a : Align) :
    ∃ g p, letterboxFit srcW srcH modelW modelH a = .ok g ∧ Py.fit repr srcW srcH modelW modelH (alignName a) = .ok p ∧
      Same p g ∧ Fitted g ∧ Inverse g.toSourceNorm g.toModelNorm g.boxToSourceNorm ∧
      Inverse (Py.toSourceNorm p) (Py.toModelNorm p) (Py.boxToSourceNorm p) := by
  obtain ⟨g, p, hg, hp, hsame, hfitted, hinverse⟩ := fitted repr hsw hsh hmw hmh a
  exact ⟨g, p, hg, hp, hsame, hfitted, hinverse, hsame.inverse hinverse⟩

/-- A camera of 1280×720 in a canvas of 640×640. -/
theorem letterbox_fits_camera :
    ∃ g p, letterboxFit 1280 720 640 640 .center = .ok g ∧ Py.fit (fun s => "'" ++ s ++ "'") 1280 720 640 640 "center" = .ok p ∧
      Same p g ∧ Fitted g ∧ Inverse g.toSourceNorm g.toModelNorm g.boxToSourceNorm ∧
      Inverse (Py.toSourceNorm p) (Py.toModelNorm p) (Py.boxToSourceNorm p) :=
  letterbox_fits (fun s => "'" ++ s ++ "'") (by decide) (by decide) (by decide) (by decide) .center

end RetailVision.Vb
