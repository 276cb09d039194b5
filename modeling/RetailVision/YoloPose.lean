/-
The split head of `YoloPoseDecoder` (`core-cpp/vb/src/post/yolov8_decode.cpp`).
Whether the class values of a stride are logits is told from their range. Not
only finite numbers take part in it: a plane that begins with NaN is never one
of logits, and any other with an infinity in it is (`planeIsLogits_eq`).
-/
import RetailVision.YoloDecode

set_option linter.all false

namespace RetailVision.Vb.Yolo

variable {F : Type}

structure PoseSlots (F : Type) where
  box : Option (List F)
  cls : Option (List F)
  kpt : Option (List F)
  nc : Int

inductive Role
  | box
  | cls
  | kpt
  deriving DecidableEq

/-- The role of a tensor with `C` channels. -/
def poseRole (spec : DecodeSpec) (lv : PoseSlots F) (C : Int) (name : String) : Role :=
  let fitsBox := C = 4 * (spec.regMax : Int)
  let fitsKpt := C = 3 * (spec.keypoints : Int)
  if fitsBox ∧ fitsKpt then
    let hint := roleHint name
    if hint > 0 then .box else if hint < 0 then .kpt else if lv.box.isNone then .box else .kpt
  else if fitsBox then .box
  else if fitsKpt then .kpt
  else .cls

def PoseSlots.fill (spec : DecodeSpec) (lv : PoseSlots F) (C _H _W : Int) (name : String) (data : List F) :
    Except String (PoseSlots F) :=
  match poseRole spec lv C name with
  | .box =>
    if lv.box.isSome then .error "yolo_pose decoder: two box tensors for one stride"
    else .ok { lv with box := some data }
  | .kpt =>
    if lv.kpt.isSome then .error "yolo_pose decoder: two keypoint tensors for one stride"
    else .ok { lv with kpt := some data }
  | .cls =>
    if lv.cls.isSome then .error "yolo_pose decoder: two cls tensors for one stride"
    else .ok { lv with cls := some data, nc := C }

section

variable [Floats F]

def kProbTol : F := 1e-6

/-- An empty plane is not looked at. -/
def planeIsLogits : List F → Bool
  | [] => false
  | p :: ps =>
    let lo := ps.foldl stdMin p
    let hi := ps.foldl stdMax p
    lo < -kProbTol || hi > 1.0 + kProbTol

def clamp01 (v : F) : F := if v < 0.0 then 0.0 else if v > 1.0 then 1.0 else v

/-- A class value as a score. -/
def toScore (logits : Bool) (v : F) : F := if logits then sigmoid v else clamp01 v

/-- The class values of a cell, as scores. -/
def classScores (logits : Bool) (cls : List F) (plane nc cell : Nat) : List F :=
  (List.range nc).map fun c => toScore logits (cls.getD (c * plane + cell) 0.0)

/-- The keypoints of a cell, if they are finite. -/
def poseKeypoints (spec : DecodeSpec) (modelW modelH : Int) (stride : Nat) (kpt : List F) (plane gy gx cell : Nat) :
    Option (List (Keypoint F)) :=
  (List.range spec.keypoints).mapM fun k =>
    let o := k * 3 * plane + cell
    let kx := kpt.getD o 0.0
    let ky := kpt.getD (o + plane) 0.0
    let kc := kpt.getD (o + 2 * plane) 0.0
    if Floats.isfinite kx = false ∨ Floats.isfinite ky = false ∨ Floats.isfinite kc = false then none
    else some
      { x := (2.0 * kx + ((gx : Int) : F)) * ((stride : Int) : F) / (modelW : F)
        y := (2.0 * ky + ((gy : Int) : F)) * ((stride : Int) : F) / (modelH : F)
        conf := sigmoid kc }

/-- One cell of a stride. -/
def poseCell (spec : DecodeSpec) (modelW modelH : Int) (score : F) (stride : Nat) (logits : Bool) (box cls kpt : List F)
    (H W nc : Nat) (g : Nat × Nat) : Candidate F :=
  let plane := H * W
  let cell := g.1 * W + g.2
  match dflDistances box spec.regMax plane cell with
  | none => .dropped
  | some dist =>
    let scores := classScores logits cls plane nc cell
    if scores.all Floats.isfinite = false then .dropped
    else
      let best := bestClass scores
      if best.1 ≤ score then .below
      else
        match poseKeypoints spec modelW modelH stride kpt plane g.1 g.2 cell with
        | none => .dropped
        | some kpts =>
          .found
            { gridBox modelW modelH stride dist g.1 g.2 best.1 best.2 with kptCount := UInt32.ofNat spec.keypoints }
            kpts

def poseIncomplete : String :=
  "yolo_pose decoder: incomplete box/cls/kpt tensors for a stride (split pose head needs box " ++
    "[4*reg_max,H,W], cls [nc,H,W] and kpt [3*keypoints,H,W])"

/-- One stride. -/
def poseLevel (spec : DecodeSpec) (modelW modelH : Int) (score : F) (out : Candidates F)
    (level : Nat × Level (PoseSlots F)) : Except String (Candidates F) :=
  let lv := level.2
  match lv.slots.box, lv.slots.cls, lv.slots.kpt with
  | some box, some cls, some kpt =>
    if lv.H = 0 ∨ lv.slots.nc < 1 then .error poseIncomplete
    else
      let nc := lv.slots.nc.toNat
      let logits := planeIsLogits (cls.take (lv.H.toNat * lv.W.toNat * nc))
      .ok ((cells lv.H lv.W).foldl
        (fun out g =>
          out.push (poseCell spec modelW modelH score level.1 logits box cls kpt lv.H.toNat lv.W.toNat nc g)) out)
  | _, _, _ => .error poseIncomplete

def decodeSplit (spec : DecodeSpec) (outs : List (TensorView F)) (modelW modelH : Int) (score nmsTh : F) :
    Except String (Decoded F) := do
  let levels ← outs.foldlM
    (place "yolo_pose decoder" "yolo_pose decoder: split pose head expects [C, H, W] tensors" ⟨none, none, none, 0⟩
      (PoseSlots.fill spec) spec modelW modelH)
    fun _ => none
  let out ← (ascending spec levels).foldlM (poseLevel spec modelW modelH score) ⟨[], [], 0⟩
  return finish "yolo_pose decoder" nmsTh out

/-! ## The range test -/

theorem exists_mem_set {α : Type} {P : α → Prop} {l : List α} {i : Nat} {v : α} (hi : i < l.length) :
    (∃ u ∈ l.set i v, P u) ↔ P v ∨ ∃ j u, j ≠ i ∧ l[j]? = some u ∧ P u := by
  simp only [List.mem_iff_getElem?, List.getElem?_set]
  constructor
  · rintro ⟨u, ⟨j, hj⟩, hu⟩
    by_cases he : i = j
    · rw [if_pos he, if_pos hi] at hj
      exact .inl (Option.some.inj hj ▸ hu)
    · rw [if_neg he] at hj
      exact .inr ⟨j, u, Ne.symm he, hj, hu⟩
  · rintro (hv | ⟨j, u, hne, hj, hu⟩)
    · exact ⟨v, ⟨i, by simp [hi]⟩, hv⟩
    · exact ⟨u, ⟨j, by rw [if_neg (Ne.symm hne), hj]⟩, hu⟩

/-- Neither a probability nor one rounded a little off. -/
def Outside (v : F) : Prop := v < -kProbTol ∨ v > 1.0 + kProbTol

instance (v : F) : Decidable (Outside v) := inferInstanceAs (Decidable (_ ∨ _))

/-- The scores of a cell, as `decode_split` has them. -/
def cellScores (cls : List F) (plane nc cell : Nat) : List F :=
  classScores (planeIsLogits (cls.take (plane * nc))) cls plane nc cell

/-- Whether the finite values alone decide: if the first value is NaN none of
them is outside, else one is, or there is no infinity. -/
def FiniteDecide (ps : List F) : Prop :=
  ∀ p, ps.head? = some p →
    if Floats.isnan p then ∀ v ∈ ps, Floats.isfinite v = true → ¬ Outside v
    else (∃ v ∈ ps, Floats.isfinite v = true ∧ Outside v) ∨ ∀ v ∈ ps, Floats.isfinite v = false → Floats.isnan v

/-- Whether the value at the index can become `v`, which is not finite, without
a change of the test. -/
def Unmoved (ps : List F) (i : Nat) (v : F) : Prop :=
  ∀ p, ps.head? = some p →
    if i = 0 then
      if Floats.isnan v then Floats.isnan p ∨ ∀ u ∈ ps, ¬ Outside u else ¬ Floats.isnan p ∧ ∃ u ∈ ps, Outside u
    else
      Floats.isnan p ∨
        if Floats.isnan v then (∀ u, ps[i]? = some u → Outside u → ∃ j u', j ≠ i ∧ ps[j]? = some u' ∧ Outside u')
        else ∃ u ∈ ps, Outside u

variable (h : Floats.Ordered F) {p v : F} {ps cls : List F} {i plane nc cell : Nat}

include h

theorem outside_of_infinite (hfin : Floats.isfinite v = false) (hnan : ¬ Floats.isnan v) : Outside v := by
  rcases h.infinite hfin hnan with hlt | hgt
  · exact .inl (hlt _ (h.neg (h.literal _ _ _)))
  · exact .inr (hgt _ h.add_one)

theorem not_outside_nan (hnan : Floats.isnan v) : ¬ Outside v := by
  rintro (hv | hv)
  · exact (h.number hv).1 hnan
  · exact (h.number hv).2 hnan

theorem planeIsLogits_cons : planeIsLogits (p :: ps) = true ↔ ¬ Floats.isnan p ∧ ∃ v ∈ p :: ps, Outside v := by
  by_cases hp : Floats.isnan p
  · simp only [planeIsLogits, h.foldl_stdMin_nan hp, h.foldl_stdMax_nan hp, hp, not_true_eq_false, false_and, iff_false,
      Bool.or_eq_true, decide_eq_true_eq]
    exact not_outside_nan h hp
  · simp only [planeIsLogits, Bool.or_eq_true, decide_eq_true_eq, h.foldl_stdMin_lt hp, gt_iff_lt, h.lt_foldl_stdMax hp, hp,
      not_false_eq_true, true_and, Outside, ← exists_or, ← and_or_left]

theorem planeIsLogits_filter :
    planeIsLogits (ps.filter Floats.isfinite) = true ↔ ∃ v ∈ ps, Floats.isfinite v = true ∧ Outside v := by
  have hmem : (∃ v ∈ ps.filter Floats.isfinite, Outside v) ↔ ∃ v ∈ ps, Floats.isfinite v = true ∧ Outside v := by
    simp only [List.mem_filter, and_assoc]
  rw [← hmem]
  cases hl : ps.filter Floats.isfinite with
  | nil => simp [planeIsLogits]
  | cons q qs =>
    have hq : q ∈ ps.filter Floats.isfinite := hl ▸ List.mem_cons_self
    have hnum := h.finite (List.mem_filter.mp hq).2
    rw [planeIsLogits_cons h]
    exact and_iff_right hnum

theorem finiteDecide_iff : planeIsLogits ps = planeIsLogits (ps.filter Floats.isfinite) ↔ FiniteDecide ps := by
  cases ps with
  | nil => simp [FiniteDecide]
  | cons p rest =>
    rw [Bool.eq_iff_iff, planeIsLogits_cons h, planeIsLogits_filter h]
    simp only [FiniteDecide, List.head?_cons, Option.some.injEq, forall_eq']
    by_cases hp : Floats.isnan p
    · rw [if_pos hp]
      simp [hp]
    · rw [if_neg hp]
      refine ⟨fun he => ?_, fun hc => ⟨?_, fun hs => ⟨hp, hs.imp fun v hv => ⟨hv.1, hv.2.2⟩⟩⟩⟩
      · by_cases hs : ∃ v ∈ p :: rest, Floats.isfinite v = true ∧ Outside v
        · exact .inl hs
        · refine .inr fun v hv hinf => ?_
          by_contra hnum
          exact hs (he.mp ⟨hp, v, hv, outside_of_infinite h hinf hnum⟩)
      · rintro ⟨-, v, hv, hout⟩
        refine hc.elim id fun hno => ⟨v, hv, ?_, hout⟩
        by_contra hinf
        exact not_outside_nan h (hno v hv (Bool.eq_false_of_not_eq_true hinf)) hout

theorem unmoved_iff (hi : i < ps.length) (hv : Floats.isfinite v = false) :
    planeIsLogits (ps.set i v) = planeIsLogits ps ↔ Unmoved ps i v := by
  cases ps with
  | nil => cases hi
  | cons p rest =>
    rw [Bool.eq_iff_iff, planeIsLogits_cons h]
    simp only [Unmoved, List.head?_cons, Option.some.injEq, forall_eq']
    cases i with
    | zero =>
      rw [List.set_cons_zero, planeIsLogits_cons h, if_pos rfl]
      by_cases hnan : Floats.isnan v
      · simp only [hnan, if_true, not_true_eq_false, false_and, false_iff]
        rw [not_and_or, not_not, not_exists]
        simp only [not_and]
      · have hout : ∃ u ∈ v :: rest, Outside u := ⟨v, List.mem_cons_self, outside_of_infinite h hv hnan⟩
        simp only [hnan, if_false, not_false_eq_true, true_and, hout, true_iff]
    | succ i =>
      have hset : (∃ u ∈ p :: rest.set i v, Outside u) ↔ _ := exists_mem_set (P := Outside) hi
      rw [List.set_cons_succ, planeIsLogits_cons h, if_neg (Nat.succ_ne_zero i)]
      by_cases hp : Floats.isnan p
      · simp [hp]
      · simp only [hp, not_false_eq_true, true_and, false_or, hset]
        by_cases hnan : Floats.isnan v
        · rw [if_pos hnan]
          have hv := not_outside_nan h hnan
          constructor
          · intro he u hu hout
            exact (he.mpr ⟨u, List.mem_of_getElem? hu, hout⟩).resolve_left hv
          · refine fun hc => ⟨fun hex => ?_, fun hex => .inr ?_⟩
            · obtain ⟨j, u, -, hj, hu⟩ := hex.resolve_left hv
              exact ⟨u, List.mem_of_getElem? hj, hu⟩
            · obtain ⟨u, hmem, hu⟩ := hex
              obtain ⟨j, hj⟩ := List.mem_iff_getElem?.mp hmem
              by_cases hji : j = i + 1
              · exact hc u (hji ▸ hj) hu
              · exact ⟨j, u, hji, hj, hu⟩
        · simp only [hnan, if_false, outside_of_infinite h hv hnan, true_or, true_iff]

omit h

theorem toScore_eq_iff {b b' : Bool} (hb : b' ≠ b) : toScore b' v = toScore b v ↔ sigmoid v = clamp01 v := by
  cases b <;> cases b' <;> simp_all [toScore, eq_comm]

theorem cellScores_iff (hi : i < plane * nc) :
    (∀ cell < plane, cell ≠ i % plane → cellScores (cls.set i v) plane nc cell = cellScores cls plane nc cell) ↔
      planeIsLogits ((cls.take (plane * nc)).set i v) = planeIsLogits (cls.take (plane * nc)) ∨
        ∀ j < plane * nc, j % plane ≠ i % plane → sigmoid (cls.getD j 0.0) = clamp01 (cls.getD j 0.0) := by
  have hpos : 0 < plane := Nat.pos_of_mul_pos_right (Nat.zero_lt_of_lt hi)
  -- the values of another cell are where they were
  have hother : ∀ {cell}, cell < plane → cell ≠ i % plane → ∀ b,
      classScores b (cls.set i v) plane nc cell = classScores b cls plane nc cell := by
    intro cell hcell hne b
    refine List.map_congr_left fun c _ => ?_
    have hmod : (c * plane + cell) % plane = cell := Nat.mul_add_mod_of_lt hcell
    have hindex : i ≠ c * plane + cell := fun he => hne (by rw [he, hmod])
    rw [List.getD_eq_getElem?_getD, List.getD_eq_getElem?_getD, List.getElem?_set_ne hindex]
  simp only [cellScores, List.take_set]
  generalize planeIsLogits ((cls.take (plane * nc)).set i v) = b'
  generalize planeIsLogits (cls.take (plane * nc)) = b
  by_cases hb : b' = b
  · simp only [hb, true_or, iff_true]
    exact fun cell hcell hne => hother hcell hne b
  · rw [or_iff_right hb]
    constructor
    · intro he j hj hne
      have hcell := he (j % plane) (Nat.mod_lt j hpos) hne
      rw [hother (Nat.mod_lt j hpos) hne] at hcell
      have hat := List.map_inj_left.mp hcell (j / plane) (List.mem_range.mpr (Nat.div_lt_of_lt_mul hj))
      rw [toScore_eq_iff hb, Nat.div_add_mod' j plane] at hat
      exact hat
    · intro he cell hcell hne
      rw [hother hcell hne]
      refine List.map_congr_left fun c hc => (toScore_eq_iff hb).mpr (he _ ?_ ?_)
      · calc c * plane + cell < c * plane + plane := Nat.add_lt_add_left hcell _
          _ = (c + 1) * plane := (Nat.succ_mul c plane).symm
          _ ≤ nc * plane := Nat.mul_le_mul_right plane (List.mem_range.mp hc)
          _ = plane * nc := Nat.mul_comm nc plane
      · rwa [Nat.mul_add_mod_of_lt hcell]

/-- When values that are not finite leave the test to the others, and when one
can come up in a cell without a change to the scores of the others. -/
theorem range_test_iff (h : Floats.Ordered F) :
    (∀ ps : List F, planeIsLogits ps = planeIsLogits (ps.filter Floats.isfinite) ↔ FiniteDecide ps) ∧
      ∀ (cls : List F) (plane nc i : Nat) (v : F), plane * nc ≤ cls.length → i < plane * nc → Floats.isfinite v = false →
        ((∀ cell < plane, cell ≠ i % plane → cellScores (cls.set i v) plane nc cell = cellScores cls plane nc cell) ↔
          Unmoved (cls.take (plane * nc)) i v ∨
            ∀ j < plane * nc, j % plane ≠ i % plane → sigmoid (cls.getD j 0.0) = clamp01 (cls.getD j 0.0)) := by
  refine ⟨fun ps => finiteDecide_iff h, fun cls plane nc i v hlen hi hv => ?_⟩
  have hi' : i < (cls.take (plane * nc)).length := by rwa [List.length_take, Nat.min_eq_left hlen]
  rw [cellScores_iff hi, unmoved_iff h hi' hv]

theorem range_test_extended :
    (planeIsLogits [Extended.nan, .fin 5] = planeIsLogits ([Extended.nan, .fin 5].filter Floats.isfinite) ↔
        FiniteDecide [Extended.nan, .fin 5]) ∧
      ((∀ cell < 2, cell ≠ 1 % 2 →
          cellScores ([Extended.fin 0, .fin 1].set 1 .posInf) 2 1 cell = cellScores [Extended.fin 0, .fin 1] 2 1 cell) ↔
        Unmoved ([Extended.fin 0, .fin 1].take (2 * 1)) 1 .posInf ∨
          ∀ j < 2 * 1, j % 2 ≠ 1 % 2 →
            sigmoid ([Extended.fin 0, .fin 1].getD j 0.0) = clamp01 ([Extended.fin 0, .fin 1].getD j 0.0)) :=
  ⟨(range_test_iff Extended.ordered).1 _,
    (range_test_iff Extended.ordered).2 _ 2 1 1 .posInf (by decide) (by decide) rfl⟩

/-- A plane of logits that begins with NaN is taken for one of probabilities; one
of probabilities in which a value becomes infinite, for one of logits. -/
theorem not_range_test :
    (¬ ∀ ps : List Extended, planeIsLogits ps = planeIsLogits (ps.filter Floats.isfinite)) ∧
      ¬ ∀ (cls : List Extended) (plane nc i : Nat) (v : Extended), plane * nc ≤ cls.length → i < plane * nc →
        Floats.isfinite v = false → ∀ cell < plane, cell ≠ i % plane →
          cellScores (cls.set i v) plane nc cell = cellScores cls plane nc cell := by
  constructor
  · intro h
    have hnan := h [.nan, .fin 5]
    revert hnan
    decide +kernel
  · intro h
    have hinf := h [.fin 0, .fin 1] 2 1 1 .posInf (by decide) (by decide) rfl 0 (by decide) (by decide)
    revert hinf
    decide +kernel

end

end RetailVision.Vb.Yolo
