/-
The crop and the downscaling of a snapshot (`core-cpp/vb/src/snapshot.cpp`),
on the frame that the ring holds of it. What the boxes are is not known: they
come from tracks that leave the frame, so their corners are any `float`. The
scale alone is exact. Both steps take pixels of the frame to a picture of them
(`Picture`), none of which is beyond it, so no step is undefined
(`snapshot_within`).
-/
import RetailVision.Lib.Binary
import RetailVision.Nlohmann

set_option linter.all false

namespace RetailVision.Vb

open RetailVision.Lib RetailVision.Lib.Buffers

/-- `float` -/
abbrev Single := Binary Format.single

/-! ## `snapshot.cpp` -/

structure ClipRect where
  cx0 : Int
  cy0 : Int
  cw : Int
  ch : Int
  deriving DecidableEq

/-- The rectangle that it returns true with. -/
def snapshotClipBox (x0 y0 x1 y1 : Single) (w h : Int) : Except Undefined (Option ClipRect) :=
  if w ≤ 0 ∨ h ≤ 0 then pure none
  else
    let fx0 := x0.floor
    let fy0 := y0.floor
    let fx1 := x1.ceil
    let fy1 := y1.ceil
    -- An empty box, and one of NaN, of which no comparison holds.
    if ¬ fx1 > fx0 ∨ ¬ fy1 > fy0 then pure none
    else do
      let fw : Single := .ofInt w
      let fh : Single := .ofInt h
      let ix0 ← (Binary.stdMax 0 (Binary.stdMin fw fx0)).toInt
      let iy0 ← (Binary.stdMax 0 (Binary.stdMin fh fy0)).toInt
      let ix1 ← (Binary.stdMax 0 (Binary.stdMin fw fx1)).toInt
      let iy1 ← (Binary.stdMax 0 (Binary.stdMin fh fy1)).toInt
      -- What is left of a box at the right or the lower edge has no area.
      if ix1 ≤ ix0 ∨ iy1 ≤ iy0 then pure none
      else pure (some { cx0 := ix0, cy0 := iy0, cw := ix1 - ix0, ch := iy1 - iy0 })

structure SnapBox where
  trackId : UInt32
  x0 : Single
  y0 : Single
  x1 : Single
  y1 : Single

structure SnapshotRingEntry where
  w : Int
  h : Int
  pixels : Bytes
  boxes : List SnapBox

/-- `src`, with what the code keeps of its size. -/
structure Image where
  src : Bytes
  w : Int
  h : Int
  stride : Int

/-- A row of the crop. -/
def copyRow (e : SnapshotRingEntry) (stride : Int) (c : ClipRect) (cropped : Bytes) (y : Nat) : Except Undefined Bytes := do
  let row ← read e.pixels (sizeT ((y + c.cy0) * stride + c.cx0 * 3)) (sizeT (c.cw * 3))
  write cropped (sizeT (y * c.cw * 3)) row

def cropImage (e : SnapshotRingEntry) (stride : Int) (c : ClipRect) : Except Undefined Image := do
  let cropped ← (List.range c.ch.toNat).foldlM (copyRow e stride c) (List.replicate (sizeT (c.cw * c.ch * 3)) 0)
  let stride ← signed (c.cw * 3)
  pure { src := cropped, w := c.cw, h := c.ch, stride := stride }

/-- The part of `snapshot_encode_jpeg` that crops. Of a track that is not found
the full frame is kept. -/
def snapshotCrop (e : SnapshotRingEntry) (trackId : UInt32) (crop : Bool) : Except Undefined (Except Bytes Image) := do
  let stride ← signed (e.w * 3)
  let full : Image := { src := e.pixels, w := e.w, h := e.h, stride := stride }
  if crop ∧ trackId ≠ 0 then
    match e.boxes.find? (·.trackId = trackId) with
    | none => pure (.ok full)
    | some b =>
      match ← snapshotClipBox b.x0 b.y0 b.x1 b.y1 e.w e.h with
      | none => pure (.error (utf8 "snapshot crop box does not intersect the frame"))
      | some c => do
        let img ← cropImage e stride c
        pure (.ok img)
  else pure (.ok full)

/-- A pixel of a row that is scaled. -/
def scalePixel (img : Image) (s : ℚ) (nw sy : Int) (y : Nat) (scaled : Bytes) (x : Nat) : Except Undefined Bytes := do
  let sx := min (img.w - 1) (← truncate (x / s))
  let p ← read img.src (sizeT (sy * img.stride + sx * 3)) 3
  write scaled (sizeT ((y * nw + x) * 3)) p

def scaleRow (img : Image) (s : ℚ) (nw : Int) (scaled : Bytes) (y : Nat) : Except Undefined Bytes := do
  let sy := min (img.h - 1) (← truncate (y / s))
  (List.range nw.toNat).foldlM (scalePixel img s nw sy y) scaled

def scaleImage (img : Image) (s : ℚ) : Except Undefined Image := do
  let nw := max 1 (← truncate (img.w * s))
  let nh := max 1 (← truncate (img.h * s))
  let scaled ← (List.range nh.toNat).foldlM (scaleRow img s nw) (List.replicate (sizeT (nw * nh * 3)) 0)
  let stride ← signed (nw * 3)
  pure { src := scaled, w := nw, h := nh, stride := stride }

def downscale (maxSide : Int) (img : Image) : Except Undefined Image :=
  if maxSide > 0 ∧ max img.w img.h > maxSide then scaleImage img (maxSide / max img.w img.h)
  else pure img

/-- `turbojpeg`: whether a compressor is to be had, and what it makes of the
rows of an image, or its error. -/
structure TurboJpeg where
  initCompress : Bool
  compress2 : Image → Except Bytes Bytes

structure Jpeg where
  jpeg : Bytes
  outW : Int
  outH : Int

/-- The part of `snapshot_encode_jpeg` that encodes. The compressor reads the
rows of the image. -/
def encodeImage (tj : TurboJpeg) (img : Image) : Except Undefined (Except Bytes Jpeg) :=
  if tj.initCompress = false then pure (.error (utf8 "tjInitCompress failed"))
  else do
    let rows ← read img.src 0 (sizeT (img.h * img.stride))
    match tj.compress2 { img with src := rows } with
    | .error what => pure (.error (utf8 "jpeg encode: " ++ what))
    | .ok jpeg => pure (.ok { jpeg := jpeg, outW := img.w, outH := img.h })

/-- With `VB_HAVE_JPEG` there is a `turbojpeg`. -/
def snapshotEncodeJpeg (tj : Option TurboJpeg) (e : SnapshotRingEntry) (trackId : UInt32) (crop : Bool) (maxSide : Int) :
    Except Undefined (Except Bytes Jpeg) :=
  match tj with
  | none => pure (.error (utf8 "snapshot unsupported"))
  | some tj => do
    match ← snapshotCrop e trackId crop with
    | .error err => pure (.error err)
    | .ok img => do
      let img ← downscale maxSide img
      encodeImage tj img

/-! ## The clipped box -/

structure ClipRect.Within (c : ClipRect) (w h : Int) : Prop where
  left : 0 ≤ c.cx0
  top : 0 ≤ c.cy0
  wide : 1 ≤ c.cw
  high : 1 ≤ c.ch
  right : c.cx0 + c.cw ≤ w
  bottom : c.cy0 + c.ch ≤ h

/-- The corners are finite on one axis, and a point between them is one of the
frame there. -/
def MeetsFrame (lo hi : Single) (n : Int) : Prop :=
  ∃ a b : ℚ, lo.value = some a ∧ hi.value = some b ∧ (Set.Ioo a b ∩ Set.Icc (0 : ℚ) n).Nonempty

section

variable {x0 y0 x1 y1 lo hi : Single} {w h n : Int}

theorem MeetsFrame.lt (hm : MeetsFrame lo hi n) : lo.floor < hi.ceil := by
  obtain ⟨a, b, hlo, hhi, p, ⟨hap, hpb⟩, -⟩ := hm
  rw [Binary.lt_iff (Binary.value_floor hlo) (Binary.value_ceil hhi)]
  calc (⌊a⌋ : ℚ) ≤ a := Int.floor_le a
    _ < b := hap.trans hpb
    _ ≤ ⌈b⌉ := Int.le_ceil b

/-- One axis of the box: its ends are in the frame, and apart where the box
meets it. -/
theorem axis_spec (h0 : 1 ≤ n) (hn : n ≤ 2 ^ 24) (hlt : lo.floor < hi.ceil) :
    ∃ i0 i1, (Binary.stdMax 0 (Binary.stdMin (.ofInt n) lo.floor)).toInt = .ok i0 ∧
      (Binary.stdMax 0 (Binary.stdMin (.ofInt n) hi.ceil)).toInt = .ok i1 ∧
      0 ≤ i0 ∧ i1 ≤ n ∧ (MeetsFrame lo hi n → i0 < i1) := by
  have hprec : n.natAbs ≤ 2 ^ Format.single.precision := by
    change n.natAbs ≤ 2 ^ 24
    omega
  obtain ⟨hlo, hhi⟩ := Binary.ne_nan_of_lt hlt
  obtain ⟨i0, he0, hpos, -, hval0⟩ := Binary.toInt_clamp (by omega) hprec (by omega) hlo
  obtain ⟨i1, he1, -, hle, hval1⟩ := Binary.toInt_clamp (by omega) hprec (by omega) hhi
  refine ⟨i0, i1, he0, he1, hpos, hle, fun hm => ?_⟩
  obtain ⟨a, b, hlo, hhi, p, ⟨hap, hpb⟩, hp, hpn⟩ := hm
  rw [hval0 ⌊a⌋ (Binary.value_floor hlo), hval1 ⌈b⌉ (Binary.value_ceil hhi)]
  have hleft : ⌊a⌋ < n := Int.floor_lt.mpr (hap.trans_le hpn)
  have hright : 0 < ⌈b⌉ := Int.ceil_pos.mpr (hp.trans_lt hpb)
  have hapart : ⌊a⌋ < ⌈b⌉ := Int.floor_lt_ceil_of_lt (hap.trans hpb)
  omega

/-- **The clipped box** is within the frame, and there is one for each box that
meets it. -/
theorem snapshotClipBox_spec (hw : 1 ≤ w) (hw' : w ≤ 2 ^ 24) (hh : 1 ≤ h) (hh' : h ≤ 2 ^ 24) :
    ∃ r, snapshotClipBox x0 y0 x1 y1 w h = .ok r ∧ (∀ c, r = some c → c.Within w h) ∧
      (MeetsFrame x0 x1 w → MeetsFrame y0 y1 h → ∃ c, r = some c) := by
  unfold snapshotClipBox
  rw [if_neg (show ¬ (w ≤ 0 ∨ h ≤ 0) by omega)]
  dsimp only
  split
  · next hempty =>
    refine ⟨none, rfl, fun c hc => (by cases hc), fun hx hy => ?_⟩
    exact absurd hempty (by simp [hx.lt, hy.lt])
  · next hlt =>
    obtain ⟨hltx, hlty⟩ : x0.floor < x1.ceil ∧ y0.floor < y1.ceil := by simpa [not_or] using hlt
    obtain ⟨ix0, ix1, hx0, hx1, hx, hxw, hmeetx⟩ := axis_spec hw hw' hltx
    obtain ⟨iy0, iy1, hy0, hy1, hy, hyh, hmeety⟩ := axis_spec hh hh' hlty
    rw [hx0, hx1, hy0, hy1]
    by_cases harea : ix1 ≤ ix0 ∨ iy1 ≤ iy0
    · refine ⟨none, if_pos harea, fun c hc => (by cases hc), fun hmx hmy => ?_⟩
      have := hmeetx hmx
      have := hmeety hmy
      omega
    · refine ⟨_, if_neg harea, fun c hc => ?_, fun _ _ => ⟨_, rfl⟩⟩
      cases hc
      constructor <;> dsimp only <;> omega

end

/-! ## Pictures of the frame -/

/-- A picture of a frame: its size, and of each of its pixels the column and
the row that it has in the frame. -/
structure Picture where
  w : Nat
  h : Nat
  source : Nat → Nat → Nat × Nat

namespace Picture

def frame (w h : Nat) : Picture := { w := w, h := h, source := fun x y => (x, y) }

def crop (x0 y0 w h : Nat) : Picture := { w := w, h := h, source := fun x y => (x0 + x, y0 + y) }

/-- The side of the scaled picture. -/
def side (s : ℚ) (n : Nat) : Nat := max 1 ⌊n * s⌋₊

/-- The nearest neighbours of what is scaled. -/
def scaled (p : Picture) (s : ℚ) : Picture :=
  { w := side s p.w, h := side s p.h, source := fun x y => p.source ⌊x / s⌋₊ ⌊y / s⌋₊ }

structure Within (p : Picture) (w h : Nat) : Prop where
  wide : 1 ≤ p.w ∧ p.w ≤ w
  high : 1 ≤ p.h ∧ p.h ≤ h
  source : ∀ x < p.w, ∀ y < p.h, (p.source x y).1 < w ∧ (p.source x y).2 < h

def pixel (pixels : Bytes) (w : Nat) (place : Nat × Nat) : Bytes := slice pixels ((place.2 * w + place.1) * 3) 3

def row (p : Picture) (pixels : Bytes) (w y : Nat) : Bytes :=
  (List.range p.w).flatMap fun x => pixel pixels w (p.source x y)

def bytes (p : Picture) (pixels : Bytes) (w : Nat) : Bytes := (List.range p.h).flatMap (p.row pixels w)

variable {p : Picture} {pixels : Bytes} {w h x y x0 y0 cw ch n i : Nat} {s : ℚ}

theorem frame_within (hw : 1 ≤ w) (hh : 1 ≤ h) : (frame w h).Within w h where
  wide := ⟨hw, le_refl w⟩
  high := ⟨hh, le_refl h⟩
  source _ hx _ hy := ⟨hx, hy⟩

theorem crop_within (hw : 1 ≤ cw) (hh : 1 ≤ ch) (hx : x0 + cw ≤ w) (hy : y0 + ch ≤ h) : (crop x0 y0 cw ch).Within w h where
  wide := ⟨hw, by change cw ≤ w; omega⟩
  high := ⟨hh, by change ch ≤ h; omega⟩
  source x hx' y hy' := by
    change x < cw at hx'
    change y < ch at hy'
    exact ⟨by change x0 + x < w; omega, by change y0 + y < h; omega⟩

theorem side_le (hn : 1 ≤ n) (hs : s ≤ 1) : side s n ≤ n := by
  have hle : (n : ℚ) * s ≤ n := mul_le_of_le_one_right (Nat.cast_nonneg n) hs
  exact max_le hn (Nat.floor_le_of_le hle)

/-- A pixel of the scaled side has a neighbour in what is scaled. -/
theorem div_lt (hn : 1 ≤ n) (hs : 0 < s) (hi : i < side s n) : (i : ℚ) / s < n := by
  rcases Nat.eq_zero_or_pos i with rfl | hpos
  · rw [Nat.cast_zero, zero_div]
    exact_mod_cast hn
  · have hfloor : i < ⌊(n : ℚ) * s⌋₊ := by
      unfold side at hi
      omega
    have hlt : (i : ℚ) < n * s := Nat.lt_of_lt_floor hfloor
    rw [div_lt_iff₀ hs]
    exact hlt

theorem floor_div_lt (hn : 1 ≤ n) (hs : 0 < s) (hi : i < side s n) : ⌊(i : ℚ) / s⌋₊ < n := by
  rw [Nat.floor_lt (by positivity)]
  exact div_lt hn hs hi

theorem Within.scaled (hp : p.Within w h) (hs : 0 < s) (hs' : s ≤ 1) : (p.scaled s).Within w h where
  wide := ⟨le_max_left _ _, (side_le hp.wide.1 hs').trans hp.wide.2⟩
  high := ⟨le_max_left _ _, (side_le hp.high.1 hs').trans hp.high.2⟩
  source _ hx _ hy := hp.source _ (floor_div_lt hp.wide.1 hs hx) _ (floor_div_lt hp.high.1 hs hy)

/-! ### Their bytes -/

/-- Where a part of a row lies. -/
theorem row_room (hx : x0 + cw ≤ w) (hy : y < h) : (y * w + x0) * 3 + cw * 3 ≤ w * h * 3 := by
  have hrows : (y + 1) * w ≤ h * w := Nat.mul_le_mul_right w hy
  rw [Nat.succ_mul] at hrows
  rw [Nat.mul_comm w h]
  omega

theorem pixel_room (hx : x < w) (hy : y < h) : (y * w + x) * 3 + 3 ≤ w * h * 3 := by
  have hone : x + 1 ≤ w := hx
  have := row_room hone hy
  omega

theorem area_lt (hw : w ≤ 2 ^ 24) (hh : h ≤ 2 ^ 24) : w * h * 3 < 2 ^ 64 := by
  have harea : w * h ≤ 2 ^ 24 * 2 ^ 24 := Nat.mul_le_mul hw hh
  omega

section

variable (hp : p.Within w h) (hpixels : pixels.length = w * h * 3)

include hp hpixels

theorem length_pixel (hx : x < p.w) (hy : y < p.h) : (pixel pixels w (p.source x y)).length = 3 := by
  obtain ⟨hcol, hrow⟩ := hp.source x hx y hy
  exact length_slice (by rw [hpixels]; exact pixel_room hcol hrow)

theorem length_row (hy : y < p.h) : (p.row pixels w y).length = p.w * 3 :=
  length_blocks fun _ hx => length_pixel hp hpixels hx hy

theorem length_bytes : (p.bytes pixels w).length = p.h * (p.w * 3) :=
  length_blocks fun _ hy => length_row hp hpixels hy

/-- A pixel of the picture among its bytes. -/
theorem slice_bytes (hx : x < p.w) (hy : y < p.h) :
    slice (p.bytes pixels w) ((y * p.w + x) * 3) 3 = pixel pixels w (p.source x y) := by
  have hpos : (y * p.w + x) * 3 = y * (p.w * 3) + x * 3 := by ring
  have hroom : x * 3 + 3 ≤ p.w * 3 := by omega
  have hthis := length_pixel hp hpixels hx hy
  calc _ = slice (p.row pixels w y) (x * 3) 3 := by
        rw [hpos]
        exact slice_blocks (fun _ hi => length_row hp hpixels hi) hy hroom
    _ = slice (pixel pixels w (p.source x y)) 0 3 :=
        slice_blocks (j := 0) (fun _ hi => length_pixel hp hpixels hi hy) hx (le_refl 3)
    _ = _ := slice_all hthis.symm

end

/-- Pixels side by side. -/
theorem slice_row (pixels : Bytes) (w x0 y cw : Nat) :
    slice pixels ((y * w + x0) * 3) (cw * 3) = (List.range cw).flatMap fun x => pixel pixels w (x0 + x, y) := by
  rw [slice_mul]
  refine List.flatMap_congr fun x _ => ?_
  have hpos : (y * w + x0) * 3 + x * 3 = (y * w + (x0 + x)) * 3 := by ring
  rw [pixel, hpos]

theorem frame_bytes (hpixels : pixels.length = w * h * 3) : (frame w h).bytes pixels w = pixels := by
  have hall : h * (w * 3) = pixels.length := by rw [hpixels]; ring
  calc _ = (List.range h).flatMap fun y => slice pixels (0 + y * (w * 3)) (w * 3) := by
        refine List.flatMap_congr fun y _ => ?_
        have hpos : 0 + y * (w * 3) = (y * w + 0) * 3 := by ring
        rw [hpos, slice_row]
        simp [row, frame]
    _ = slice pixels 0 (h * (w * 3)) := (slice_mul pixels 0 h (w * 3)).symm
    _ = pixels := slice_all hall

end Picture

/-! ## What the code makes of the frame -/

/-- The code holds the picture. -/
structure Image.Shows (img : Image) (p : Picture) (pixels : Bytes) (w : Nat) : Prop where
  src : img.src = p.bytes pixels w
  w : img.w = p.w
  h : img.h = p.h
  stride : img.stride = (p.w * 3 : Nat)

section

variable {e : SnapshotRingEntry} {p : Picture} {img : Image} {c : ClipRect} {pixels : Bytes} {w h n x y x0 y0 cw ch i : Nat} {s : ℚ}

theorem sizeT_eq {a : Int} (ha : a = n) (hn : n < 2 ^ 64) : sizeT a = n := by rw [ha, sizeT_natCast hn]

theorem signed_stride {a : Int} (ha : a = n) (hn : n ≤ 2 ^ 24) : signed (a * 3) = .ok ((n * 3 : Nat) : Int) := by
  have hmul : a * 3 = ((n * 3 : Nat) : Int) := by rw [ha]; push_cast; rfl
  rw [hmul]
  exact signed_ok ⟨by omega, by omega⟩

theorem truncate_eq {x : ℚ} (hx : 0 ≤ x) (hle : x ≤ 2 ^ 24) : truncate x = .ok (⌊x⌋₊ : Int) := by
  rw [truncate_ok hx (hle.trans_lt (by norm_num)), Int.natCast_floor_eq_floor hx]

/-- The rows of the crop. -/
theorem copyRow_eq (he : e.pixels.length = w * h * 3) (hw : w ≤ 2 ^ 24) (hh : h ≤ 2 ^ 24) (hx : x0 + cw ≤ w) (hy : y0 + y < h)
    {cropped : Bytes} (hroom : y * (cw * 3) + cw * 3 ≤ cropped.length) (hlen : cropped.length < 2 ^ 64) :
    copyRow e ((w * 3 : Nat) : Int) { cx0 := x0, cy0 := y0, cw := cw, ch := ch } cropped y =
      .ok (overwrite cropped (y * (cw * 3)) ((Picture.crop x0 y0 cw ch).row e.pixels w y)) := by
  have harea := Picture.area_lt hw hh
  have hrow : ((y0 + y) * w + x0) * 3 + cw * 3 ≤ w * h * 3 := Picture.row_room hx hy
  have hfrom : sizeT (((y : Int) + y0) * ((w * 3 : Nat) : Int) + x0 * 3) = ((y0 + y) * w + x0) * 3 :=
    sizeT_eq (by push_cast; ring) (by omega)
  have hcount : sizeT ((cw : Int) * 3) = cw * 3 := sizeT_eq (by push_cast; rfl) (by omega)
  have hto : sizeT ((y : Int) * cw * 3) = y * (cw * 3) := sizeT_eq (by push_cast; ring) (by omega)
  have hslice : slice e.pixels (((y0 + y) * w + x0) * 3) (cw * 3) = (Picture.crop x0 y0 cw ch).row e.pixels w y := by
    rw [Picture.slice_row]
    rfl
  have hread : read e.pixels (((y0 + y) * w + x0) * 3) (cw * 3) = .ok ((Picture.crop x0 y0 cw ch).row e.pixels w y) := by
    rw [read_ok (by omega), hslice]
  have hlength : ((Picture.crop x0 y0 cw ch).row e.pixels w y).length = cw * 3 := by
    rw [← hslice]
    exact length_slice (by omega)
  simp only [copyRow, hfrom, hcount, hto, hread]
  exact write_ok (by omega)

/-- The frame as it is. -/
theorem frame_shows (he : e.pixels.length = w * h * 3) :
    ({ src := e.pixels, w := w, h := h, stride := (w * 3 : Nat) } : Image).Shows (.frame w h) e.pixels w where
  src := (Picture.frame_bytes he).symm
  w := rfl
  h := rfl
  stride := rfl

/-- The crop. -/
theorem cropImage_eq (he : e.pixels.length = w * h * 3) (hw : w ≤ 2 ^ 24) (hh : h ≤ 2 ^ 24) (hcw : 1 ≤ cw) (hch : 1 ≤ ch)
    (hx : x0 + cw ≤ w) (hy : y0 + ch ≤ h) :
    cropImage e ((w * 3 : Nat) : Int) { cx0 := x0, cy0 := y0, cw := cw, ch := ch } =
      .ok { src := (Picture.crop x0 y0 cw ch).bytes e.pixels w, w := cw, h := ch, stride := (cw * 3 : Nat) } := by
  have hwithin : (Picture.crop x0 y0 cw ch).Within w h := Picture.crop_within hcw hch hx hy
  have hmul : ch * (cw * 3) = cw * ch * 3 := by ring
  have harea : ch * (cw * 3) < 2 ^ 64 := by
    rw [hmul]
    exact Picture.area_lt (by omega) (by omega)
  have hsize : sizeT ((cw : Int) * ch * 3) = ch * (cw * 3) := sizeT_eq (by push_cast; ring) harea
  have hrow : ∀ y < ch, ((Picture.crop x0 y0 cw ch).row e.pixels w y).length = cw * 3 :=
    fun y hy => Picture.length_row hwithin he hy
  have hrows : (List.range ch).foldlM (copyRow e ((w * 3 : Nat) : Int) { cx0 := x0, cy0 := y0, cw := cw, ch := ch })
      (List.replicate (ch * (cw * 3)) 0) = .ok ((Picture.crop x0 y0 cw ch).bytes e.pixels w) := by
    refine writes_all hrow List.length_replicate fun y hy' b hb => ?_
    have hnext : (y + 1) * (cw * 3) ≤ ch * (cw * 3) := Nat.mul_le_mul_right _ hy'
    rw [Nat.succ_mul] at hnext
    exact copyRow_eq he hw hh hx (by omega) (by omega) (by omega)
  simp only [cropImage, hsize, Int.toNat_natCast, hrows, signed_stride rfl (show cw ≤ 2 ^ 24 by omega), ok_bind]
  rfl

theorem ClipRect.Within.natCast (hc : c.Within w h) :
    ∃ x0 y0 cw ch : Nat, c = { cx0 := x0, cy0 := y0, cw := cw, ch := ch } ∧ 1 ≤ cw ∧ 1 ≤ ch ∧
      x0 + cw ≤ w ∧ y0 + ch ≤ h := by
  obtain ⟨hx, hy, hcw, hch, hright, hbottom⟩ := hc
  refine ⟨c.cx0.toNat, c.cy0.toNat, c.cw.toNat, c.ch.toNat, ?_, by omega, by omega, by omega, by omega⟩
  rw [Int.toNat_of_nonneg hx, Int.toNat_of_nonneg hy, Int.toNat_of_nonneg (by omega), Int.toNat_of_nonneg (by omega)]

theorem snapshotClipBox_natCast (b : SnapBox) (hw : 1 ≤ w) (hw' : w ≤ 2 ^ 24) (hh : 1 ≤ h) (hh' : h ≤ 2 ^ 24) :
    ∃ r, snapshotClipBox b.x0 b.y0 b.x1 b.y1 w h = .ok r ∧ ∀ c, r = some c → c.Within w h := by
  have hw1 : (1 : Int) ≤ w := by exact_mod_cast hw
  have hh1 : (1 : Int) ≤ h := by exact_mod_cast hh
  have hw2 : (w : Int) ≤ 2 ^ 24 := by exact_mod_cast hw'
  have hh2 : (h : Int) ≤ 2 ^ 24 := by exact_mod_cast hh'
  obtain ⟨r, hr, hwithin, -⟩ := @snapshotClipBox_spec b.x0 b.y0 b.x1 b.y1 w h hw1 hw2 hh1 hh2
  exact ⟨r, hr, hwithin⟩

/-- What is made of the frame, if it is not refused, shows a picture of it. -/
theorem snapshotCrop_spec (hew : e.w = w) (heh : e.h = h) (he : e.pixels.length = w * h * 3) (hw : 1 ≤ w) (hw' : w ≤ 2 ^ 24)
    (hh : 1 ≤ h) (hh' : h ≤ 2 ^ 24) (trackId : UInt32) (crop : Bool) :
    ∃ r, snapshotCrop e trackId crop = .ok r ∧ ∀ img, r = .ok img → ∃ p, img.Shows p e.pixels w ∧ p.Within w h := by
  have hfull : ∃ p, ({ src := e.pixels, w := w, h := h, stride := (w * 3 : Nat) } : Image).Shows p e.pixels w ∧ p.Within w h :=
    ⟨_, frame_shows he, Picture.frame_within hw hh⟩
  simp only [snapshotCrop, hew, heh, signed_stride rfl hw', ok_bind]
  split
  · split
    · refine ⟨_, rfl, fun img himg => ?_⟩
      cases himg
      exact hfull
    · next b _ =>
      obtain ⟨r, hr, hwithin⟩ := snapshotClipBox_natCast b hw hw' hh hh'
      rw [hr, ok_bind]
      cases r with
      | none => exact ⟨_, rfl, fun img himg => (by cases himg)⟩
      | some c =>
        obtain ⟨x0, y0, cw, ch, rfl, hcw, hch, hx, hy⟩ := (hwithin c rfl).natCast
        have hcrop := cropImage_eq he hw' hh' hcw hch hx hy
        dsimp only
        rw [hcrop, ok_bind]
        refine ⟨_, rfl, fun img himg => ?_⟩
        cases himg
        exact ⟨.crop x0 y0 cw ch, ⟨rfl, rfl, rfl, rfl⟩, Picture.crop_within hcw hch hx hy⟩
  · refine ⟨_, rfl, fun img himg => ?_⟩
    cases himg
    exact hfull

/-! ## The scaled picture -/

/-- The neighbour of a place of a side that is scaled. -/
theorem neighbour_eq (hn : 1 ≤ n) (hn' : n ≤ 2 ^ 24) (hs : 0 < s) (hi : i < Picture.side s n) :
    truncate (i / s) = .ok (⌊(i : ℚ) / s⌋₊ : Int) ∧ min ((n : Int) - 1) ⌊(i : ℚ) / s⌋₊ = ⌊(i : ℚ) / s⌋₊ := by
  have hlt := Picture.div_lt hn hs hi
  have hcast : (n : ℚ) ≤ 2 ^ 24 := by exact_mod_cast hn'
  have hfloor := Picture.floor_div_lt hn hs hi
  exact ⟨truncate_eq (by positivity) (hlt.le.trans hcast), by omega⟩

/-- The scale of an image that is longer than the greatest side. -/
theorem scale_unit {a b maxSide : Int} (hpos : 0 < maxSide) (hgt : maxSide < max a b) :
    (0 : ℚ) < (maxSide : ℚ) / (max a b : Int) ∧ (maxSide : ℚ) / (max a b : Int) ≤ 1 := by
  have hside : (0 : ℚ) < maxSide := by exact_mod_cast hpos
  have hlt : (maxSide : ℚ) < (max a b : Int) := Int.cast_lt.mpr hgt
  exact ⟨div_pos hside (hside.trans hlt), (div_le_one (hside.trans hlt)).mpr hlt.le⟩

theorem side_eq (hn : 1 ≤ n) (hn' : n ≤ 2 ^ 24) (hs : 0 < s) (hs' : s ≤ 1) :
    truncate (n * s) = .ok (⌊(n : ℚ) * s⌋₊ : Int) ∧ max 1 (⌊(n : ℚ) * s⌋₊ : Int) = Picture.side s n := by
  have hcast : (n : ℚ) ≤ 2 ^ 24 := by exact_mod_cast hn'
  have hle : (n : ℚ) * s ≤ n := mul_le_of_le_one_right (Nat.cast_nonneg n) hs'
  refine ⟨truncate_eq (by positivity) (hle.trans hcast), ?_⟩
  unfold Picture.side
  push_cast
  rfl

section

variable (himg : img.Shows p pixels w) (hp : p.Within w h) (hpixels : pixels.length = w * h * 3) (hw : w ≤ 2 ^ 24) (hh : h ≤ 2 ^ 24)

include himg hp hpixels hw hh

theorem scalePixel_eq (hs : 0 < s) (hs' : s ≤ 1) {scaled : Bytes}
    (hroom : scaled.length = (p.scaled s).h * ((p.scaled s).w * 3)) (hx : x < (p.scaled s).w) (hy : y < (p.scaled s).h) :
    scalePixel img s (p.scaled s).w ⌊(y : ℚ) / s⌋₊ y scaled x =
      .ok (overwrite scaled (y * ((p.scaled s).w * 3) + x * 3) (Picture.pixel pixels w ((p.scaled s).source x y))) := by
  have hscaled := hp.scaled hs hs'
  have hpw : p.w ≤ 2 ^ 24 := hp.wide.2.trans hw
  have hph : p.h ≤ 2 ^ 24 := hp.high.2.trans hh
  obtain ⟨htrunc, hmin⟩ := neighbour_eq hp.wide.1 hpw hs hx
  have hsx := Picture.floor_div_lt hp.wide.1 hs hx
  have hsy := Picture.floor_div_lt hp.high.1 hs hy
  have hin := Picture.pixel_room hsx hsy
  have hout := Picture.pixel_room hx hy
  have harea := Picture.area_lt hpw hph
  have harea' := Picture.area_lt (hscaled.wide.2.trans hw) (hscaled.high.2.trans hh)
  have hfrom : sizeT ((⌊(y : ℚ) / s⌋₊ : Int) * (p.w * 3 : Nat) + (⌊(x : ℚ) / s⌋₊ : Int) * 3) =
      (⌊(y : ℚ) / s⌋₊ * p.w + ⌊(x : ℚ) / s⌋₊) * 3 := sizeT_eq (by push_cast; ring) (by omega)
  have hto : sizeT (((y : Int) * (p.scaled s).w + x) * 3) = (y * (p.scaled s).w + x) * 3 :=
    sizeT_eq (by push_cast; rfl) (by omega)
  have hlength := Picture.length_bytes hp hpixels
  have hmul : p.h * (p.w * 3) = p.w * p.h * 3 := by ring
  have hread : read (p.bytes pixels w) ((⌊(y : ℚ) / s⌋₊ * p.w + ⌊(x : ℚ) / s⌋₊) * 3) 3 =
      .ok (Picture.pixel pixels w ((p.scaled s).source x y)) := by
    rw [read_ok (by omega), Picture.slice_bytes hp hpixels hsx hsy]
    rfl
  have hpixel := Picture.length_pixel hscaled hpixels hx hy
  have hmul' : (p.scaled s).h * ((p.scaled s).w * 3) = (p.scaled s).w * (p.scaled s).h * 3 := by ring
  have hpos : y * ((p.scaled s).w * 3) + x * 3 = (y * (p.scaled s).w + x) * 3 := by ring
  simp only [scalePixel, himg.w, himg.stride, himg.src, htrunc, hmin, hfrom, hto, hread, hpos, ok_bind]
  exact write_ok (by omega)

theorem scaleRow_eq (hs : 0 < s) (hs' : s ≤ 1) {scaled : Bytes}
    (hroom : scaled.length = (p.scaled s).h * ((p.scaled s).w * 3)) (hy : y < (p.scaled s).h) :
    scaleRow img s (p.scaled s).w scaled y =
      .ok (overwrite scaled (y * ((p.scaled s).w * 3)) ((p.scaled s).row pixels w y)) := by
  have hscaled := hp.scaled hs hs'
  obtain ⟨htrunc, hmin⟩ := neighbour_eq hp.high.1 (hp.high.2.trans hh) hs hy
  have hnext : (y + 1) * ((p.scaled s).w * 3) ≤ (p.scaled s).h * ((p.scaled s).w * 3) := Nat.mul_le_mul_right _ hy
  rw [Nat.succ_mul] at hnext
  simp only [scaleRow, himg.h, htrunc, hmin, Int.toNat_natCast, ok_bind]
  refine writes_eq (fun x hx => Picture.length_pixel hscaled hpixels hx hy) (by omega) fun x hx b hb => ?_
  exact scalePixel_eq himg hp hpixels hw hh hs hs' (hb.trans hroom) hx hy

theorem scaleImage_eq (hs : 0 < s) (hs' : s ≤ 1) :
    scaleImage img s =
      .ok { src := (p.scaled s).bytes pixels w, w := (p.scaled s).w, h := (p.scaled s).h, stride := ((p.scaled s).w * 3 : Nat) } := by
  have hscaled := hp.scaled hs hs'
  obtain ⟨htw, hmw⟩ := side_eq hp.wide.1 (hp.wide.2.trans hw) hs hs'
  obtain ⟨hth, hmh⟩ := side_eq hp.high.1 (hp.high.2.trans hh) hs hs'
  have harea := Picture.area_lt (hscaled.wide.2.trans hw) (hscaled.high.2.trans hh)
  have hmul : (p.scaled s).h * ((p.scaled s).w * 3) = (p.scaled s).w * (p.scaled s).h * 3 := by ring
  have hsize : sizeT (((p.scaled s).w : Int) * (p.scaled s).h * 3) = (p.scaled s).h * ((p.scaled s).w * 3) :=
    sizeT_eq (by push_cast; ring) (by omega)
  have hrow : ∀ y < (p.scaled s).h, ((p.scaled s).row pixels w y).length = (p.scaled s).w * 3 :=
    fun y hy => Picture.length_row hscaled hpixels hy
  have hrows : (List.range (p.scaled s).h).foldlM (scaleRow img s (p.scaled s).w)
      (List.replicate ((p.scaled s).h * ((p.scaled s).w * 3)) 0) = .ok ((p.scaled s).bytes pixels w) :=
    writes_all hrow List.length_replicate fun y hy b hb => scaleRow_eq himg hp hpixels hw hh hs hs' hb hy
  have hnw : max 1 (⌊(p.w : ℚ) * s⌋₊ : Int) = (p.scaled s).w := hmw
  have hnh : max 1 (⌊(p.h : ℚ) * s⌋₊ : Int) = (p.scaled s).h := hmh
  simp only [scaleImage, himg.w, himg.h, Int.cast_natCast, htw, hth, ok_bind, hnw, hnh, hsize, Int.toNat_natCast, hrows,
    signed_stride rfl (hscaled.wide.2.trans hw)]
  rfl

/-- What is left of a picture shows one of the frame too. -/
theorem downscale_spec (maxSide : Int) :
    ∃ img', downscale maxSide img = .ok img' ∧ ∃ p' : Picture, img'.Shows p' pixels w ∧ p'.Within w h := by
  unfold downscale
  split
  · next hmax =>
    obtain ⟨hpos, hgt⟩ := hmax
    obtain ⟨hs, hs'⟩ := scale_unit hpos hgt
    exact ⟨_, scaleImage_eq himg hp hpixels hw hh hs hs', _, ⟨rfl, rfl, rfl, rfl⟩, hp.scaled hs hs'⟩
  · exact ⟨img, rfl, p, himg, hp⟩

end

/-- The rows that the compressor reads are those of the image. -/
theorem encodeImage_spec (himg : img.Shows p pixels w) (hp : p.Within w h) (hpixels : pixels.length = w * h * 3)
    (hw : w ≤ 2 ^ 24) (hh : h ≤ 2 ^ 24) (tj : TurboJpeg) : ∃ r, encodeImage tj img = .ok r := by
  unfold encodeImage
  split
  · exact ⟨_, rfl⟩
  · have harea := Picture.area_lt (hp.wide.2.trans hw) (hp.high.2.trans hh)
    have hmul : p.h * (p.w * 3) = p.w * p.h * 3 := by ring
    have hsize : sizeT ((p.h : Int) * (p.w * 3 : Nat)) = p.h * (p.w * 3) := sizeT_eq (by push_cast; rfl) (by omega)
    have hlength := Picture.length_bytes hp hpixels
    rw [himg.src, himg.h, himg.stride, hsize, read_ok (by omega), ok_bind]
    split
    · exact ⟨_, rfl⟩
    · exact ⟨_, rfl⟩

/-! ## What is read -/

/-- The `n` bytes from `off` on are of a buffer of that length. -/
def InBuffer (off n : Int) (length : Nat) : Prop := 0 ≤ off ∧ off + n ≤ length

/-- The rows of the crop to any of the boxes. -/
def SnapshotRingEntry.RowsInside (e : SnapshotRingEntry) : Prop :=
  ∀ b ∈ e.boxes, ∀ c, snapshotClipBox b.x0 b.y0 b.x1 b.y1 e.w e.h = .ok (some c) → ∀ y : Nat, y < c.ch →
    InBuffer ((y + c.cy0) * (e.w * 3) + c.cx0 * 3) (c.cw * 3) e.pixels.length

/-- The nearest neighbours of all pixels that the image is scaled to. -/
def Image.SamplesInside (img : Image) (s : ℚ) : Prop :=
  ∃ nw nh, truncate (img.w * s) = .ok nw ∧ truncate (img.h * s) = .ok nh ∧
    ∀ x y : Nat, x < max 1 nw → y < max 1 nh → ∃ sx sy, truncate (x / s) = .ok sx ∧ truncate (y / s) = .ok sy ∧
      InBuffer (min (img.h - 1) sy * img.stride + min (img.w - 1) sx * 3) 3 img.src.length

theorem rowsInside (hew : e.w = w) (heh : e.h = h) (he : e.pixels.length = w * h * 3) (hw : 1 ≤ w) (hw' : w ≤ 2 ^ 24)
    (hh : 1 ≤ h) (hh' : h ≤ 2 ^ 24) : e.RowsInside := by
  intro b _ c hc y hy
  rw [hew, heh] at hc
  obtain ⟨r, hr, hwithin⟩ := snapshotClipBox_natCast b hw hw' hh hh'
  rw [hr] at hc
  cases hc
  obtain ⟨x0, y0, cw, ch, rfl, -, -, hright, hbottom⟩ := (hwithin c rfl).natCast
  dsimp only at hy
  have hy' : y < ch := by exact_mod_cast hy
  have hroom := Picture.row_room hright (show y0 + y < h by omega)
  have hpos : ((y : Int) + y0) * (w * 3) + x0 * 3 = (((y0 + y) * w + x0) * 3 : Nat) := by push_cast; ring
  rw [hew, he]
  dsimp only
  rw [hpos]
  exact ⟨by omega, by exact_mod_cast hroom⟩

theorem samplesInside (himg : img.Shows p pixels w) (hp : p.Within w h) (hpixels : pixels.length = w * h * 3)
    (hw : w ≤ 2 ^ 24) (hh : h ≤ 2 ^ 24) (hs : 0 < s) (hs' : s ≤ 1) : img.SamplesInside s := by
  have hpw : p.w ≤ 2 ^ 24 := hp.wide.2.trans hw
  have hph : p.h ≤ 2 ^ 24 := hp.high.2.trans hh
  obtain ⟨htw, hmw⟩ := side_eq hp.wide.1 hpw hs hs'
  obtain ⟨hth, hmh⟩ := side_eq hp.high.1 hph hs hs'
  rw [Image.SamplesInside, himg.w, himg.h, himg.stride, himg.src, Picture.length_bytes hp hpixels]
  refine ⟨_, _, htw, hth, fun x y hx hy => ?_⟩
  rw [hmw] at hx
  rw [hmh] at hy
  have hx' : x < Picture.side s p.w := by exact_mod_cast hx
  have hy' : y < Picture.side s p.h := by exact_mod_cast hy
  obtain ⟨htx, hmx⟩ := neighbour_eq hp.wide.1 hpw hs hx'
  obtain ⟨hty, hmy⟩ := neighbour_eq hp.high.1 hph hs hy'
  refine ⟨_, _, htx, hty, ?_⟩
  rw [hmx, hmy]
  have hroom := Picture.pixel_room (Picture.floor_div_lt hp.wide.1 hs hx') (Picture.floor_div_lt hp.high.1 hs hy')
  have hmul : p.h * (p.w * 3) = p.w * p.h * 3 := by ring
  have hpos : (⌊(y : ℚ) / s⌋₊ : Int) * (p.w * 3 : Nat) + (⌊(x : ℚ) / s⌋₊ : Int) * 3 =
      ((⌊(y : ℚ) / s⌋₊ * p.w + ⌊(x : ℚ) / s⌋₊) * 3 : Nat) := by push_cast; ring
  rw [hpos, hmul]
  exact ⟨by omega, by exact_mod_cast hroom⟩

end

/-- **A snapshot reads the frame and nothing else.** A clipped box is within
the frame, and there is one for each box that meets it; the rows that are
copied and the neighbours that are read lie in their buffers; no step is
undefined. -/
theorem snapshot_within {w h : Int} (hw : 1 ≤ w) (hw' : w ≤ 2 ^ 24) (hh : 1 ≤ h) (hh' : h ≤ 2 ^ 24) :
    (∀ x0 y0 x1 y1 : Single, ∃ r, snapshotClipBox x0 y0 x1 y1 w h = .ok r ∧ (∀ c, r = some c → c.Within w h) ∧
      (MeetsFrame x0 x1 w → MeetsFrame y0 y1 h → ∃ c, r = some c)) ∧
    ∀ (tj : Option TurboJpeg) (e : SnapshotRingEntry) (trackId : UInt32) (crop : Bool) (maxSide : Int),
      e.w = w → e.h = h → e.pixels.length = w * h * 3 →
        e.RowsInside ∧
        (∀ img, snapshotCrop e trackId crop = .ok (.ok img) → img.src.length = img.w * img.h * 3 ∧
          (0 < maxSide → maxSide < max img.w img.h → img.SamplesInside (maxSide / max img.w img.h))) ∧
        ∃ r, snapshotEncodeJpeg tj e trackId crop maxSide = .ok r := by
  refine ⟨fun x0 y0 x1 y1 => snapshotClipBox_spec hw hw' hh hh', fun tj e trackId crop maxSide hew heh he => ?_⟩
  obtain ⟨w, rfl⟩ := Int.eq_ofNat_of_zero_le (show 0 ≤ w by omega)
  obtain ⟨h, rfl⟩ := Int.eq_ofNat_of_zero_le (show 0 ≤ h by omega)
  have hw1 : 1 ≤ w := by exact_mod_cast hw
  have hh1 : 1 ≤ h := by exact_mod_cast hh
  have hw2 : w ≤ 2 ^ 24 := by exact_mod_cast hw'
  have hh2 : h ≤ 2 ^ 24 := by exact_mod_cast hh'
  have hpixels : e.pixels.length = w * h * 3 := by exact_mod_cast he
  obtain ⟨r, hcrop, hshows⟩ := snapshotCrop_spec hew heh hpixels hw1 hw2 hh1 hh2 trackId crop
  refine ⟨rowsInside hew heh hpixels hw1 hw2 hh1 hh2, fun img himg => ?_, ?_⟩
  · rw [hcrop] at himg
    cases himg
    obtain ⟨p, himg, hp⟩ := hshows img rfl
    refine ⟨?_, fun hpos hgt => ?_⟩
    · rw [himg.src, himg.w, himg.h, Picture.length_bytes hp hpixels]
      push_cast
      ring
    · obtain ⟨hs, hs'⟩ := scale_unit hpos hgt
      exact samplesInside himg hp hpixels hw2 hh2 hs hs'
  · cases tj with
    | none => exact ⟨_, rfl⟩
    | some tj =>
      rw [snapshotEncodeJpeg, hcrop, ok_bind]
      cases r with
      | error err => exact ⟨_, rfl⟩
      | ok img =>
        obtain ⟨p, himg, hp⟩ := hshows img rfl
        obtain ⟨img', hscale, p', himg', hp'⟩ := downscale_spec himg hp hpixels hw2 hh2 maxSide
        dsimp only
        rw [hscale, ok_bind]
        exact encodeImage_spec himg' hp' hpixels hw2 hh2 tj

/-- A box half out of a frame of 8×6, and a snapshot of it that is scaled. -/
theorem snapshot_within_half :
    (∃ c, snapshotClipBox (.ofInt (-2)) (.ofInt 1) (.ofInt 3) (.ofInt 9) 8 6 = .ok (some c) ∧ c.Within 8 6) ∧
      ∃ r, snapshotEncodeJpeg (some { initCompress := true, compress2 := fun img => .ok img.src })
        { w := 8, h := 6, pixels := List.replicate 144 0,
          boxes := [{ trackId := 7, x0 := .ofInt (-2), y0 := .ofInt 1, x1 := .ofInt 3, y1 := .ofInt 9 }] } 7 true 2 = .ok r := by
  obtain ⟨hclip, hencode⟩ := @snapshot_within 8 6 (by decide) (by decide) (by decide) (by decide)
  have hvalue : ∀ n : Int, n.natAbs ≤ 2 ^ 24 → (Binary.ofInt n : Single).value = some (n : ℚ) := fun n hn => Binary.ofInt_eq hn
  have hx : MeetsFrame (.ofInt (-2)) (.ofInt 3) 8 :=
    ⟨_, _, hvalue (-2) (by decide), hvalue 3 (by decide), 1, ⟨by norm_num, by norm_num⟩, ⟨by norm_num, by norm_num⟩⟩
  have hy : MeetsFrame (.ofInt 1) (.ofInt 9) 6 :=
    ⟨_, _, hvalue 1 (by decide), hvalue 9 (by decide), 2, ⟨by norm_num, by norm_num⟩, ⟨by norm_num, by norm_num⟩⟩
  obtain ⟨r, hr, hwithin, hmeets⟩ := hclip (.ofInt (-2)) (.ofInt 1) (.ofInt 3) (.ofInt 9)
  obtain ⟨c, rfl⟩ := hmeets hx hy
  exact ⟨⟨c, hr, hwithin c rfl⟩, (hencode _ _ 7 true 2 rfl rfl rfl).2.2⟩

-- Beyond the lower edge, and across the corner.
example : snapshotClipBox (.ofInt 10) (.ofInt 100) (.ofInt 40) (.ofInt 130) 320 100 = .ok none := by decide +kernel
example : snapshotClipBox (.ofInt 300) (.ofInt 80) (.ofInt 400) (.ofInt 200) 320 100 =
    .ok (some { cx0 := 300, cy0 := 80, cw := 20, ch := 20 }) := by decide +kernel

end RetailVision.Vb
