/-
`YoloV8DflDecoder` (`core-cpp/vb/src/post/yolov8_decode.cpp`). Where a box
tensor and a class tensor have the same number of channels, the name of a tensor
says which it is, and without a hint it takes the first free slot. The order of
the tensors is of no concern but for one thing: a tensor without a hint that
comes before one named as the box takes its slot (`order_free_iff`).
-/
import RetailVision.YoloDecode
import Mathlib.Data.List.Permutation

set_option linter.all false

namespace RetailVision.Vb.Yolo

open RetailVision.Lib

variable {F : Type}

structure DflSlots (F : Type) where
  box : Option (List F)
  cls : Option (List F)

/-- `want_box` and `want_cls` -/
def dflWants (spec : DecodeSpec) (lv : DflSlots F) (C : Int) (name : String) : Bool × Bool :=
  let fitsBox := C = 4 * (spec.regMax : Int)
  let fitsCls := C = (spec.numClasses : Int)
  if C = 4 * (spec.regMax : Int) + spec.numClasses then (true, true)
  else if fitsBox ∧ fitsCls then
    let hint := roleHint name
    let hint := if hint = 0 then if lv.box.isNone then 1 else -1 else hint
    (hint > 0, hint < 0)
  else (fitsBox, fitsCls)

def DflSlots.wantBox (lv : DflSlots F) (want : Bool) (data : List F) : Except String (DflSlots F) :=
  if want then
    if lv.box.isSome then .error "yolov8_dfl decoder: two box tensors for one stride" else .ok { lv with box := some data }
  else .ok lv

def DflSlots.wantCls (lv : DflSlots F) (want : Bool) (data : List F) : Except String (DflSlots F) :=
  if want then
    if lv.cls.isSome then .error "yolov8_dfl decoder: two cls tensors for one stride" else .ok { lv with cls := some data }
  else .ok lv

def DflSlots.fill (spec : DecodeSpec) (lv : DflSlots F) (C H W : Int) (name : String) (data : List F) :
    Except String (DflSlots F) :=
  let combined := C = 4 * (spec.regMax : Int) + spec.numClasses
  if ¬ combined ∧ C ≠ 4 * (spec.regMax : Int) ∧ C ≠ (spec.numClasses : Int) then
    .error "yolov8_dfl decoder: channel count does not match reg_max/num_classes"
  else
    let want := dflWants spec lv C name
    match lv.wantBox want.1 data with
    | .error err => .error err
    | .ok lv =>
      lv.wantCls want.2 (if combined then data.drop (4 * spec.regMax * H.toNat * W.toNat) else data)

section

variable [Floats F]

/-- One cell of a stride. -/
def dflCell (spec : DecodeSpec) (modelW modelH : Int) (score : F) (stride : Nat) (box cls : List F) (H W : Nat)
    (g : Nat × Nat) : Candidate F :=
  let plane := H * W
  let cell := g.1 * W + g.2
  match dflDistances box spec.regMax plane cell with
  | none => .dropped
  | some dist =>
    let scores := (List.range spec.numClasses).map fun c => sigmoid (cls.getD (c * plane + cell) 0.0)
    if scores.all Floats.isfinite = false then .dropped
    else
      let best := bestClass scores
      if Floats.isfinite best.1 = false then .dropped
      else if best.1 ≤ score then .below
      else .found (gridBox modelW modelH stride dist g.1 g.2 best.1 best.2) []

/-- One stride. -/
def dflLevel (spec : DecodeSpec) (modelW modelH : Int) (score : F) (out : Candidates F) (level : Nat × Level (DflSlots F)) :
    Except String (Candidates F) :=
  let lv := level.2
  match lv.slots.box, lv.slots.cls with
  | some box, some cls =>
    if lv.H = 0 then .error "yolov8_dfl decoder: incomplete box/cls tensors for a stride"
    else
      .ok ((cells lv.H lv.W).foldl
        (fun out g => out.push (dflCell spec modelW modelH score level.1 box cls lv.H.toNat lv.W.toNat g)) out)
  | _, _ => .error "yolov8_dfl decoder: incomplete box/cls tensors for a stride"

/-- The loop over the tensors. -/
def dflLevels (spec : DecodeSpec) (modelW modelH : Int) (outs : List (TensorView F)) :
    Except String (Nat → Option (Level (DflSlots F))) :=
  outs.foldlM
    (place "yolov8_dfl decoder" "yolov8_dfl decoder expects [C, H, W] tensors" ⟨none, none⟩ (DflSlots.fill spec) spec
      modelW modelH)
    fun _ => none

def decode (spec : DecodeSpec) (outs : List (TensorView F)) (modelW modelH : Int) (score nmsTh : F) :
    Except String (Decoded F) := do
  if outs = [] then .error "yolov8_dfl decoder expects [C, H, W] tensors"
  else
    checkCanvas modelW modelH "yolov8_dfl decoder"
    let levels ← dflLevels spec modelW modelH outs
    let out ← (ascending spec levels).foldlM (dflLevel spec modelW modelH score) ⟨[], [], 0⟩
    return finish "yolov8_dfl decoder" nmsTh out

end

/-! ## The slots

What a tensor takes, and what is taken together. -/

/-- The slots that a tensor may take. -/
inductive Kind
  | both
  | box
  | cls
  | either
  deriving DecidableEq

def kindOf (spec : DecodeSpec) (t : TensorView F) : Kind :=
  if channels t = 4 * (spec.regMax : Int) + spec.numClasses then .both
  else if channels t = 4 * (spec.regMax : Int) ∧ channels t = (spec.numClasses : Int) then
    if roleHint t.name = 0 then .either else if roleHint t.name > 0 then .box else .cls
  else if channels t = 4 * (spec.regMax : Int) then .box
  else .cls

/-- What there is to take: the data of a box and those of the classes. -/
structure Part (F : Type) where
  kind : Kind
  box : List F
  cls : List F

def Part.take (lv : DflSlots F) (p : Part F) : Option (DflSlots F) :=
  match p.kind, lv.box, lv.cls with
  | .both, none, none => some ⟨some p.box, some p.cls⟩
  | .box, none, cls => some ⟨some p.box, cls⟩
  | .cls, box, none => some ⟨box, some p.cls⟩
  | .either, none, cls => some ⟨some p.box, cls⟩
  | .either, some box, none => some ⟨some box, some p.cls⟩
  | _, _, _ => none

/-- What the parts of a stride fill completely. -/
def Fills : List (Part F) → List F → List F → Prop
  | [p], box, cls => p.kind = .both ∧ box = p.box ∧ cls = p.cls
  | [p, q], box, cls =>
    ((p.kind = .box ∨ p.kind = .either) ∧ (q.kind = .cls ∨ q.kind = .either) ∧ box = p.box ∧ cls = q.cls) ∨
      p.kind = .cls ∧ (q.kind = .box ∨ q.kind = .either) ∧ box = q.box ∧ cls = p.cls
  | _, _, _ => False

variable {ps : List (Part F)} {p q r : Part F} {box cls : List F}

/-- How many of the slots are filled. -/
def DflSlots.filled (lv : DflSlots F) : Nat := lv.box.toList.length + lv.cls.toList.length

theorem DflSlots.filled_le (lv : DflSlots F) : lv.filled ≤ 2 := by
  obtain ⟨box, cls⟩ := lv
  cases box <;> cases cls <;> simp [DflSlots.filled]

theorem Part.filled_lt {lv lv' : DflSlots F} (h : p.take lv = some lv') : lv.filled < lv'.filled := by
  obtain ⟨k, b, c⟩ := p
  obtain ⟨box, cls⟩ := lv
  cases k <;> cases box <;> cases cls <;> cases h <;> simp [DflSlots.filled]

/-- Each part fills a slot, so there are none for a third. -/
theorem not_takes_three {lv : DflSlots F} : (p :: q :: r :: ps).foldlM Part.take ⟨none, none⟩ ≠ some lv := by
  intro h
  rw [List.foldlM_cons] at h
  obtain ⟨lv₁, h₁, h⟩ := Option.bind_eq_some_iff.mp h
  rw [List.foldlM_cons] at h
  obtain ⟨lv₂, h₂, h⟩ := Option.bind_eq_some_iff.mp h
  rw [List.foldlM_cons] at h
  obtain ⟨lv₃, h₃, -⟩ := Option.bind_eq_some_iff.mp h
  have := Part.filled_lt h₁
  have := Part.filled_lt h₂
  have := Part.filled_lt h₃
  have := lv₃.filled_le
  omega

theorem takes_iff : ps.foldlM Part.take ⟨none, none⟩ = some ⟨some box, some cls⟩ ↔ Fills ps box cls := by
  match ps with
  | [] => simp [Fills]
  | [p] =>
    obtain ⟨k, b, c⟩ := p
    cases k <;> simp [Part.take, Fills, eq_comm]
  | [p, q] =>
    obtain ⟨k, b, c⟩ := p
    obtain ⟨k', b', c'⟩ := q
    cases k <;> cases k' <;> simp [Part.take, Fills, eq_comm]
  | p :: q :: r :: rest => exact iff_of_false not_takes_three id

def Combined (spec : DecodeSpec) (t : TensorView F) : Prop := channels t = 4 * (spec.regMax : Int) + spec.numClasses

instance (spec : DecodeSpec) (t : TensorView F) : Decidable (Combined spec t) := inferInstanceAs (Decidable (_ = _))

def FitsChannels (spec : DecodeSpec) (t : TensorView F) : Prop :=
  Combined spec t ∨ channels t = 4 * (spec.regMax : Int) ∨ channels t = (spec.numClasses : Int)

instance (spec : DecodeSpec) (t : TensorView F) : Decidable (FitsChannels spec t) := inferInstanceAs (Decidable (_ ∨ _))

/-- What a tensor has to give, from its data. -/
def partOf (spec : DecodeSpec) (H W : Int) (t : TensorView F) (data : List F) : Part F where
  kind := kindOf spec t
  box := data
  cls := if Combined spec t then data.drop (4 * spec.regMax * H.toNat * W.toNat) else data

variable {spec : DecodeSpec} {t : TensorView F} {lv lv' : DflSlots F} {H W : Int} {data : List F}

theorem fill_ok_iff :
    DflSlots.fill spec lv (channels t) H W t.name data = .ok lv' ↔
      FitsChannels spec t ∧ (partOf spec H W t data).take lv = some lv' := by
  obtain ⟨box, cls⟩ := lv
  unfold DflSlots.fill dflWants partOf Part.take kindOf FitsChannels Combined DflSlots.wantBox DflSlots.wantCls
  by_cases hcomb : channels t = 4 * (spec.regMax : Int) + spec.numClasses
  · cases box <;> cases cls <;> simp [hcomb]
  · by_cases hbox : channels t = 4 * (spec.regMax : Int)
    · by_cases hcls : channels t = (spec.numClasses : Int)
      · rcases lt_trichotomy (roleHint t.name) 0 with hhint | hhint | hhint
        · cases box <;> cases cls <;> simp [hcomb, eq_true hbox, eq_true hcls, hhint, hhint.ne, hhint.not_gt]
        · cases box <;> cases cls <;> simp [hcomb, eq_true hbox, eq_true hcls, hhint]
        · cases box <;> cases cls <;> simp [hcomb, eq_true hbox, eq_true hcls, hhint, hhint.ne', hhint.not_gt]
      · cases box <;> cases cls <;> simp [hcomb, eq_true hbox, hcls]
    · by_cases hcls : channels t = (spec.numClasses : Int)
      · cases box <;> cases cls <;> simp [hcomb, hbox, eq_true hcls]
      · simp [hcomb, hbox, hcls]

/-! ## The level of a stride -/

section

variable (spec : DecodeSpec) (modelW modelH : Int)

/-- What the loop over the tensors does for one stride. -/
def dflTurn : Option (Level (DflSlots F)) → TensorView F → Except String (Level (DflSlots F)) :=
  turn "yolov8_dfl decoder" "yolov8_dfl decoder expects [C, H, W] tensors" ⟨none, none⟩ (DflSlots.fill spec) spec modelW modelH

def ofStride (s : Nat) (outs : List (TensorView F)) : List (TensorView F) :=
  outs.filter (strideOf spec modelW modelH · = s)

def levelOf (s : Nat) (slots : DflSlots F) : Level (DflSlots F) := ⟨modelH / (s : Int), modelW / (s : Int), slots⟩

/-- What a tensor of the stride gives. -/
def Gives (s : Nat) (t : TensorView F) (p : Part F) : Prop :=
  ∃ data, checkView t "yolov8_dfl decoder" = .ok data ∧ FitsChannels spec t ∧
    p = partOf spec (modelH / (s : Int)) (modelW / (s : Int)) t data

end

variable {modelW modelH : Int} {s : Nat} {ts outs outs' : List (TensorView F)} {slots : DflSlots F} {u : TensorView F}

theorem dflTurn_none (hs : strideOf spec modelW modelH t = s) (hne : s ≠ 0) :
    dflTurn spec modelW modelH none t = dflTurn spec modelW modelH (some (levelOf modelW modelH s ⟨none, none⟩)) t := by
  obtain ⟨-, hdims⟩ := strideOf_spec hs hne
  simp only [dflTurn, turn, hdims, levelOf, Option.getD_none, Option.getD_some, ne_eq, not_true_eq_false, false_and,
    or_self, and_false, if_false]

theorem dflTurn_ok_iff (hs : strideOf spec modelW modelH t = s) (hne : s ≠ 0) {lv' : Level (DflSlots F)} :
    dflTurn spec modelW modelH (some (levelOf modelW modelH s slots)) t = .ok lv' ↔
      ∃ p slots', Gives spec modelW modelH s t p ∧ p.take slots = some slots' ∧ lv' = levelOf modelW modelH s slots' := by
  obtain ⟨-, hdims⟩ := strideOf_spec hs hne
  have hkey : matchStride spec modelW modelH (modelH / (s : Int)) (modelW / (s : Int)) ≠ 0 := by
    rw [strideOf, hdims] at hs
    exact hs.trans_ne hne
  unfold dflTurn turn
  cases hview : checkView t "yolov8_dfl decoder" with
  | error err => simp [Gives, hview]
  | ok data =>
    rw [hdims]
    simp only [if_neg hkey, Option.getD_some, levelOf, ne_eq, not_true_eq_false, or_self, and_false, if_false]
    constructor
    · intro hfill
      cases hf : DflSlots.fill spec slots (channels t) (modelH / (s : Int)) (modelW / (s : Int)) t.name data with
      | error err =>
        rw [hf] at hfill
        cases hfill
      | ok slots' =>
        rw [hf] at hfill
        obtain ⟨hfits, htake⟩ := fill_ok_iff.mp hf
        exact ⟨_, slots', ⟨data, hview, hfits, rfl⟩, htake, (Except.ok.inj hfill).symm⟩
    · rintro ⟨p, slots', ⟨data', hdata, hfits, rfl⟩, htake, rfl⟩
      obtain rfl := Except.ok.inj (hview.symm.trans hdata)
      rw [fill_ok_iff.mpr ⟨hfits, htake⟩]
      rfl

theorem run_ok_iff (hs : ∀ t ∈ ts, strideOf spec modelW modelH t = s) (hne : s ≠ 0) {o : Option (Level (DflSlots F))} :
    PerKey.run (dflTurn spec modelW modelH) (some (levelOf modelW modelH s slots)) ts = .ok o ↔
      ∃ ps slots', List.Forall₂ (Gives spec modelW modelH s) ts ps ∧ ps.foldlM Part.take slots = some slots' ∧
        o = some (levelOf modelW modelH s slots') := by
  induction ts generalizing slots with
  | nil =>
    constructor
    · intro h
      exact ⟨[], slots, .nil, rfl, (Except.ok.inj h).symm⟩
    · rintro ⟨ps, slots', hps, hfold, rfl⟩
      cases hps
      cases hfold
      rfl
  | cons t ts ih =>
    have hrest := fun u hu => hs u (List.mem_cons_of_mem _ hu)
    have ht := hs t List.mem_cons_self
    cases hturn : dflTurn spec modelW modelH (some (levelOf modelW modelH s slots)) t with
    | error err =>
      rw [PerKey.run_cons_of_error hturn]
      refine iff_of_false (fun h => by cases h) ?_
      rintro ⟨ps, slots', hps, hfold, -⟩
      cases hps with
      | cons hp _ =>
        rw [List.foldlM_cons] at hfold
        obtain ⟨mid, hmid, -⟩ := Option.bind_eq_some_iff.mp hfold
        have := (dflTurn_ok_iff ht hne).mpr ⟨_, mid, hp, hmid, rfl⟩
        rw [hturn] at this
        cases this
    | ok lv =>
      obtain ⟨p, mid, hp, htake, rfl⟩ := (dflTurn_ok_iff ht hne).mp hturn
      rw [PerKey.run_cons_of_ok hturn, ih hrest]
      constructor
      · rintro ⟨ps, slots', hps, hfold, rfl⟩
        exact ⟨p :: ps, slots', .cons hp hps, by rw [List.foldlM_cons, htake]; exact hfold, rfl⟩
      · rintro ⟨ps, slots', hps, hfold, rfl⟩
        cases hps with
        | @cons _ q _ ps hq hps =>
          obtain ⟨data, hdata, -, rfl⟩ := hp
          obtain ⟨data', hdata', -, rfl⟩ := hq
          obtain rfl := Except.ok.inj (hdata.symm.trans hdata')
          rw [List.foldlM_cons, htake] at hfold
          exact ⟨ps, slots', hps, hfold, rfl⟩

/-- The level that the tensors of a stride come to, if they fill it. -/
def LevelLoads (spec : DecodeSpec) (modelW modelH : Int) (s : Nat) (ts : List (TensorView F))
    (o : Option (Level (DflSlots F))) : Prop :=
  ts = [] ∧ o = none ∨
    s ≠ 0 ∧ ∃ ps box cls, List.Forall₂ (Gives spec modelW modelH s) ts ps ∧ Fills ps box cls ∧
      o = some (levelOf modelW modelH s ⟨some box, some cls⟩)

/-- Both slots of the level are filled, and its grid has cells. -/
def Complete (lv : Level (DflSlots F)) : Prop := ∃ box cls, lv.slots = ⟨some box, some cls⟩ ∧ lv.H ≠ 0

theorem levelLoads_iff (hs : ∀ t ∈ ts, strideOf spec modelW modelH t = s) {o : Option (Level (DflSlots F))} :
    PerKey.run (dflTurn spec modelW modelH) none ts = .ok o ∧ (∀ lv, o = some lv → Complete lv) ↔
      LevelLoads spec modelW modelH s ts o := by
  cases ts with
  | nil =>
    constructor
    · rintro ⟨hrun, -⟩
      exact .inl ⟨rfl, (Except.ok.inj hrun).symm⟩
    · rintro (⟨-, rfl⟩ | ⟨-, ps, box, cls, hps, hfills, -⟩)
      · exact ⟨rfl, fun _ h => by cases h⟩
      · cases hps
        exact hfills.elim
  | cons t ts =>
    have ht := hs t List.mem_cons_self
    by_cases hne : s = 0
    · subst hne
      refine iff_of_false ?_ (by simp [LevelLoads])
      rintro ⟨hrun, -⟩
      cases hturn : dflTurn spec modelW modelH (none : Option (Level (DflSlots F))) t with
      | error err =>
        rw [PerKey.run_cons_of_error hturn] at hrun
        cases hrun
      | ok lv => exact turn_of_none ht hturn
    · rw [PerKey.run_cons_congr (dflTurn_none ht hne), run_ok_iff hs hne]
      constructor
      · rintro ⟨⟨ps, slots, hps, hfold, rfl⟩, hcomplete⟩
        obtain ⟨box, cls, rfl, -⟩ := hcomplete _ rfl
        exact .inr ⟨hne, ps, box, cls, hps, takes_iff.mp hfold, rfl⟩
      · rintro (⟨h, -⟩ | ⟨-, ps, box, cls, hps, hfills, rfl⟩)
        · cases h
        · refine ⟨⟨ps, _, hps, takes_iff.mpr hfills, rfl⟩, ?_⟩
          intro lv hlv
          cases hlv
          refine ⟨box, cls, rfl, ?_⟩
          cases hps with
          | cons hp _ =>
            obtain ⟨data, hview, -, -⟩ := hp
            have hpos := checkView_pos hview
            rw [(strideOf_spec ht hne).2] at hpos
            exact (hpos (modelH / (s : Int)) (by simp)).ne'

variable {levels levels' : Nat → Option (Level (DflSlots F))}

/-- The tensors load, with these levels. -/
structure Loads (spec : DecodeSpec) (modelW modelH : Int) (outs : List (TensorView F))
    (levels : Nat → Option (Level (DflSlots F))) : Prop where
  some : outs ≠ []
  canvas : 0 < modelW ∧ 0 < modelH
  level : ∀ s, LevelLoads spec modelW modelH s (ofStride spec modelW modelH s outs) (levels s)

theorem dflLevels_runs :
    dflLevels spec modelW modelH outs = .ok levels ↔
      ∀ s, PerKey.run (dflTurn spec modelW modelH) none (ofStride spec modelW modelH s outs) = .ok (levels s) := by
  have hplace : (place "yolov8_dfl decoder" "yolov8_dfl decoder expects [C, H, W] tensors" ⟨none, none⟩ (DflSlots.fill spec)
      spec modelW modelH : (Nat → Option (Level (DflSlots F))) → TensorView F → _) =
        PerKey.place (strideOf spec modelW modelH) (dflTurn spec modelW modelH) := funext₂ fun levels t => place_eq
  rw [dflLevels, hplace, PerKey.foldlM_place]
  rfl

theorem strideOf_of_mem (ht : t ∈ ofStride spec modelW modelH s outs) : strideOf spec modelW modelH t = s := by
  simpa using (List.mem_filter.mp ht).2

theorem dflLevels_ok_iff :
    dflLevels spec modelW modelH outs = .ok levels ∧ (∀ s lv, levels s = some lv → Complete lv) ↔
      ∀ s, LevelLoads spec modelW modelH s (ofStride spec modelW modelH s outs) (levels s) := by
  rw [dflLevels_runs, ← forall_and]
  exact forall_congr' fun s => levelLoads_iff fun t ht => strideOf_of_mem ht

theorem mem_strides (h : dflLevels spec modelW modelH outs = .ok levels) {lv : Level (DflSlots F)} (hs : levels s = some lv) :
    s ∈ spec.strides := by
  have hrun := dflLevels_runs.mp h s
  cases hts : ofStride spec modelW modelH s outs with
  | nil =>
    rw [hts, hs] at hrun
    cases hrun
  | cons t ts =>
    have ht : strideOf spec modelW modelH t = s := strideOf_of_mem (hts ▸ List.mem_cons_self)
    rw [hts] at hrun
    cases hturn : dflTurn spec modelW modelH (none : Option (Level (DflSlots F))) t with
    | error err =>
      rw [PerKey.run_cons_of_error hturn] at hrun
      cases hrun
    | ok lv =>
      have hne : s ≠ 0 := fun hzero => turn_of_none (ht.trans hzero) hturn
      exact (strideOf_spec ht hne).1

theorem mem_ascending {level : Nat × Level (DflSlots F)} :
    level ∈ ascending spec levels ↔ level.1 ∈ spec.strides ∧ levels level.1 = some level.2 := by
  obtain ⟨s, lv⟩ := level
  simp [ascending]

section

variable [Floats F] {score nmsTh : F}

/-- The cells of the levels, level by level. -/
def decodeLevels (spec : DecodeSpec) (modelW modelH : Int) (score : F) (levels : Nat → Option (Level (DflSlots F))) :
    Except String (Candidates F) :=
  (ascending spec levels).foldlM (dflLevel spec modelW modelH score) ⟨[], [], 0⟩

theorem dflLevel_ok_iff (score : F) (out : Candidates F) {level : Nat × Level (DflSlots F)} :
    (∃ out', dflLevel spec modelW modelH score out level = .ok out') ↔ Complete level.2 := by
  obtain ⟨s, H, W, box, cls⟩ := level
  cases box <;> cases cls <;> simp [dflLevel, Complete]
  by_cases hH : H = 0 <;> simp [hH]

theorem decodeLevels_ok_iff (score : F) :
    (∃ out, decodeLevels spec modelW modelH score levels = .ok out) ↔
      ∀ level ∈ ascending spec levels, Complete level.2 := by
  unfold decodeLevels
  generalize (⟨[], [], 0⟩ : Candidates F) = out
  induction ascending spec levels generalizing out with
  | nil => simp [pure, Except.pure]
  | cons level rest ih =>
    rw [List.forall_mem_cons, ← dflLevel_ok_iff score out, List.foldlM_cons]
    cases h : dflLevel spec modelW modelH score out level with
    | error err => simp [bind, Except.bind]
    | ok out' => simpa [bind, Except.bind] using ih out'

theorem decode_eq (hsome : outs ≠ []) (hcanvas : 0 < modelW ∧ 0 < modelH) :
    decode spec outs modelW modelH score nmsTh =
      (dflLevels spec modelW modelH outs).bind fun levels =>
        (decodeLevels spec modelW modelH score levels).map (finish "yolov8_dfl decoder" nmsTh) := by
  have hpos : ¬ (modelW ≤ 0 ∨ modelH ≤ 0) := by omega
  simp only [decode, if_neg hsome, checkCanvas, if_neg hpos]
  rfl

theorem decode_ok_iff (score nmsTh : F) :
    (∃ r, decode spec outs modelW modelH score nmsTh = .ok r) ↔ ∃ levels, Loads spec modelW modelH outs levels := by
  by_cases hsome : outs = []
  · refine iff_of_false ?_ fun h => h.elim fun _ hl => hl.some hsome
    simp [decode, hsome]
  by_cases hcanvas : 0 < modelW ∧ 0 < modelH
  · rw [decode_eq hsome hcanvas]
    constructor
    · rintro ⟨r, hr⟩
      cases hl : dflLevels spec modelW modelH outs with
      | error err =>
        rw [hl] at hr
        cases hr
      | ok levels =>
        refine ⟨levels, hsome, hcanvas, dflLevels_ok_iff.mp ⟨hl, fun s lv hs => ?_⟩⟩
        have hout : ∃ out, decodeLevels spec modelW modelH score levels = .ok out := by
          rw [hl] at hr
          cases hd : decodeLevels spec modelW modelH score levels with
          | error err =>
            simp only [Except.bind, hd] at hr
            cases hr
          | ok out => exact ⟨out, rfl⟩
        exact (decodeLevels_ok_iff score).mp hout (s, lv) (mem_ascending.mpr ⟨mem_strides hl hs, hs⟩)
    · rintro ⟨levels, hloads⟩
      obtain ⟨hl, hcomplete⟩ := dflLevels_ok_iff.mpr hloads.level
      obtain ⟨out, hout⟩ := (decodeLevels_ok_iff score).mpr fun level hlevel =>
        hcomplete _ _ (mem_ascending.mp hlevel).2
      exact ⟨finish "yolov8_dfl decoder" nmsTh out, by rw [hl, Except.bind, hout]; rfl⟩
  · refine iff_of_false ?_ fun h => h.elim fun _ hl => hcanvas hl.canvas
    have hneg : modelW ≤ 0 ∨ modelH ≤ 0 := by omega
    rintro ⟨r, hr⟩
    simp only [decode, if_neg hsome, checkCanvas, if_pos hneg] at hr
    cases hr

end

/-! ## The order of the tensors -/

/-- The decoder can read the tensor. -/
def Readable (spec : DecodeSpec) (modelW modelH : Int) (t : TensorView F) : Prop :=
  (∃ data, checkView t "yolov8_dfl decoder" = .ok data) ∧ strideOf spec modelW modelH t ≠ 0 ∧ FitsChannels spec t

/-- One combined tensor, or two that can be the box and the classes. -/
def Served (spec : DecodeSpec) (ts : List (TensorView F)) : Prop :=
  (∃ t, ts = [t] ∧ Combined spec t) ∨
    ∃ t u, ts = [t, u] ∧ ¬ Combined spec t ∧ ¬ Combined spec u ∧
      (channels t = channels u → 4 * spec.regMax = spec.numClasses)

/-- The tensors are complete and readable, whatever their order. -/
structure Loadable (spec : DecodeSpec) (modelW modelH : Int) (outs : List (TensorView F)) : Prop where
  some : outs ≠ []
  canvas : 0 < modelW ∧ 0 < modelH
  readable : ∀ t ∈ outs, Readable spec modelW modelH t
  served : ∀ t ∈ outs, Served spec (ofStride spec modelW modelH (strideOf spec modelW modelH t) outs)

/-- A split tensor of which the channels do not tell the role. -/
def Unclear (spec : DecodeSpec) (t : TensorView F) : Prop :=
  4 * spec.regMax = spec.numClasses ∧ channels t = (spec.numClasses : Int)

instance (t : TensorView F) : Decidable (Unclear spec t) := inferInstanceAs (Decidable (_ ∧ _))

/-- Of the unclear tensors of a stride one has a hint, and no two have the same. -/
structure Named (spec : DecodeSpec) (modelW modelH : Int) (outs : List (TensorView F)) : Prop where
  hinted : ∀ t ∈ outs, Unclear spec t → strideOf spec modelW modelH t ≠ 0 →
    ∃ u ∈ outs, strideOf spec modelW modelH u = strideOf spec modelW modelH t ∧ Unclear spec u ∧ roleHint u.name ≠ 0
  distinct : outs.Pairwise fun t u =>
    Unclear spec t → Unclear spec u → strideOf spec modelW modelH t ≠ 0 →
      strideOf spec modelW modelH t = strideOf spec modelW modelH u → roleHint t.name ≠ 0 → roleHint t.name ≠ roleHint u.name

/-- A stride has a tensor named as the box, and one without a hint. -/
def Mixed (spec : DecodeSpec) (modelW modelH : Int) (outs : List (TensorView F)) : Prop :=
  ∃ t ∈ outs, ∃ u ∈ outs, strideOf spec modelW modelH t = strideOf spec modelW modelH u ∧ Unclear spec t ∧
    Unclear spec u ∧ 0 < roleHint t.name ∧ roleHint u.name = 0

/-- Every order of the tensors is accepted or rejected alike, with the same
detections. -/
def OrderFree [Floats F] (spec : DecodeSpec) (outs : List (TensorView F)) (modelW modelH : Int) (score nmsTh : F) : Prop :=
  ∀ outs', outs.Perm outs' →
    (decode spec outs' modelW modelH score nmsTh).toOption.map (fun r => (r.dets, r.kpts)) =
      (decode spec outs modelW modelH score nmsTh).toOption.map fun r => (r.dets, r.kpts)

theorem roleHint_cases (name : String) : roleHint name = 0 ∨ roleHint name = 1 ∨ roleHint name = -1 := by
  unfold roleHint
  dsimp only
  split_ifs <;> simp

theorem kindOf_both : kindOf spec t = .both ↔ Combined spec t := by
  unfold kindOf Combined
  split_ifs <;> simp_all

theorem kindOf_unclear (h : Unclear spec t) :
    kindOf spec t = if roleHint t.name = 0 then .either else if roleHint t.name > 0 then .box else .cls := by
  have hpos := spec.regMax_pos
  have hcomb : ¬ channels t = 4 * (spec.regMax : Int) + spec.numClasses := by
    have := h.1
    have := h.2
    omega
  have hbox : channels t = 4 * (spec.regMax : Int) := by
    have := h.1
    have := h.2
    omega
  rw [kindOf, if_neg hcomb, if_pos ⟨hbox, h.2⟩]

theorem kindOf_clear (hfits : FitsChannels spec t) (hcomb : ¬ Combined spec t) (h : ¬ Unclear spec t) :
    kindOf spec t = .box ∧ channels t = 4 * (spec.regMax : Int) ∨ kindOf spec t = .cls ∧ channels t = (spec.numClasses : Int) := by
  have hone : ¬ channels t = 4 * (spec.regMax : Int) + spec.numClasses := hcomb
  unfold kindOf
  rw [if_neg hone]
  have hnot : ¬ (channels t = 4 * (spec.regMax : Int) ∧ channels t = (spec.numClasses : Int)) := by
    rintro ⟨hbox, hcls⟩
    refine h ⟨?_, hcls⟩
    omega
  rw [if_neg hnot]
  rcases hfits with hc | hbox | hcls
  · exact absurd hc hcomb
  · exact .inl ⟨if_pos hbox, hbox⟩
  · exact .inr ⟨if_neg fun hbox => hnot ⟨hbox, hcls⟩, hcls⟩

/-- The tensors of a stride, in an order in which they fill its level. -/
def Arranged (spec : DecodeSpec) (ts : List (TensorView F)) : Prop :=
  (∃ t, ts = [t] ∧ kindOf spec t = .both) ∨
    ∃ t u, ts = [t, u] ∧
      ((kindOf spec t = .box ∨ kindOf spec t = .either) ∧ (kindOf spec u = .cls ∨ kindOf spec u = .either) ∨
        kindOf spec t = .cls ∧ (kindOf spec u = .box ∨ kindOf spec u = .either))

theorem Gives.kind {p : Part F} (h : Gives spec modelW modelH s t p) : p.kind = kindOf spec t := by
  obtain ⟨data, -, -, rfl⟩ := h
  rfl

theorem Gives.readable {p : Part F} (h : Gives spec modelW modelH s t p) (hs : strideOf spec modelW modelH t = s) (hne : s ≠ 0) :
    Readable spec modelW modelH t := by
  obtain ⟨data, hview, hfits, -⟩ := h
  exact ⟨⟨data, hview⟩, hs.trans_ne hne, hfits⟩

theorem Readable.gives (h : Readable spec modelW modelH t) (s : Nat) : ∃ p, Gives spec modelW modelH s t p := by
  obtain ⟨⟨data, hview⟩, -, hfits⟩ := h
  exact ⟨_, data, hview, hfits, rfl⟩

theorem levelLoads_arranged (hs : ∀ t ∈ ts, strideOf spec modelW modelH t = s) (hsome : ts ≠ []) :
    (∃ o, LevelLoads spec modelW modelH s ts o) ↔
      (∀ t ∈ ts, Readable spec modelW modelH t) ∧ Arranged spec ts := by
  constructor
  · rintro ⟨o, ⟨h, -⟩ | ⟨hne, ps, box, cls, hps, hfills, -⟩⟩
    · exact absurd h hsome
    · refine ⟨fun t ht => ?_, ?_⟩
      · obtain ⟨p, -, hp⟩ := forall₂_left hps t ht
        exact hp.readable (hs t ht) hne
      · match ps, hfills with
        | [p], hfills =>
          obtain ⟨t, ts, hp, hnil, rfl⟩ := List.forall₂_cons_right_iff.mp hps
          cases hnil
          exact .inl ⟨t, rfl, hp.kind ▸ hfills.1⟩
        | [p, q], hfills =>
          obtain ⟨t, ts, hp, hrest, rfl⟩ := List.forall₂_cons_right_iff.mp hps
          obtain ⟨u, us, hq, hnil, rfl⟩ := List.forall₂_cons_right_iff.mp hrest
          cases hnil
          refine .inr ⟨t, u, rfl, ?_⟩
          rw [← hp.kind, ← hq.kind]
          exact hfills.imp (fun h => ⟨h.1, h.2.1⟩) fun h => ⟨h.1, h.2.1⟩
  · rintro ⟨hreadable, ⟨t, rfl, hkind⟩ | ⟨t, u, rfl, hkinds⟩⟩
    · have ht := hreadable t (by simp)
      obtain ⟨p, hp⟩ := ht.gives s
      have hne : s ≠ 0 := hs t (by simp) ▸ ht.2.1
      exact ⟨_, .inr ⟨hne, [p], p.box, p.cls, .cons hp .nil, ⟨hp.kind.trans hkind, rfl, rfl⟩, rfl⟩⟩
    · have ht := hreadable t (by simp)
      obtain ⟨p, hp⟩ := ht.gives s
      obtain ⟨q, hq⟩ := (hreadable u (by simp)).gives s
      have hne : s ≠ 0 := hs t (by simp) ▸ ht.2.1
      rw [← hp.kind, ← hq.kind] at hkinds
      rcases hkinds with ⟨h, h'⟩ | ⟨h, h'⟩
      · exact ⟨_, .inr ⟨hne, [p, q], p.box, q.cls, .cons hp (.cons hq .nil), .inl ⟨h, h', rfl, rfl⟩, rfl⟩⟩
      · exact ⟨_, .inr ⟨hne, [p, q], q.box, p.cls, .cons hp (.cons hq .nil), .inr ⟨h, h', rfl, rfl⟩, rfl⟩⟩

/-- A tensor without a hint comes before one named as the box. -/
def Late (spec : DecodeSpec) (ts : List (TensorView F)) : Prop :=
  ∃ t u, ts = [t, u] ∧ kindOf spec t = .either ∧ kindOf spec u = .box

theorem not_combined (h : kindOf spec t ≠ .both) : ¬ Combined spec t := fun hc => h (kindOf_both.mpr hc)

/-- Where one split tensor is unclear, all are. -/
theorem unclear_of_unclear (h : Unclear spec t) (hfits : FitsChannels spec u) (hcomb : ¬ Combined spec u) : Unclear spec u := by
  refine ⟨h.1, ?_⟩
  have := h.1
  rcases hfits with hc | hbox | hcls
  · exact absurd hc hcomb
  · omega
  · exact hcls

theorem served_of_arranged (hreadable : ∀ t ∈ ts, Readable spec modelW modelH t) (h : Arranged spec ts) : Served spec ts := by
  rcases h with ⟨t, rfl, hkind⟩ | ⟨t, u, rfl, hkinds⟩
  · exact .inl ⟨t, rfl, kindOf_both.mp hkind⟩
  · have ht : ¬ Combined spec t := not_combined (by rcases hkinds with ⟨h | h, -⟩ | ⟨h, -⟩ <;> simp [h])
    have hu : ¬ Combined spec u := not_combined (by rcases hkinds with ⟨-, h | h⟩ | ⟨-, h | h⟩ <;> simp [h])
    refine .inr ⟨t, u, rfl, ht, hu, fun heq => ?_⟩
    by_cases hunclear : Unclear spec t ∨ Unclear spec u
    · exact hunclear.elim (·.1) (·.1)
    · obtain ⟨hct, hcu⟩ := not_or.mp hunclear
      have htk := kindOf_clear (hreadable t (by simp)).2.2 ht hct
      have huk := kindOf_clear (hreadable u (by simp)).2.2 hu hcu
      rcases htk with ⟨htk, htc⟩ | ⟨htk, htc⟩ <;> rcases huk with ⟨huk, huc⟩ | ⟨huk, huc⟩
      · simp [htk, huk] at hkinds
      · omega
      · omega
      · simp [htk, huk] at hkinds

theorem not_late_of_arranged (h : Arranged spec ts) : ¬ Late spec ts := by
  rintro ⟨t, u, rfl, ht, hu⟩
  rcases h with ⟨v, hv, -⟩ | ⟨v, w, hvw, hkinds⟩
  · simp at hv
  · simp only [List.cons.injEq, and_true] at hvw
    obtain ⟨rfl, rfl⟩ := hvw
    simp [ht, hu] at hkinds

theorem arranged_of_served (hreadable : ∀ t ∈ ts, Readable spec modelW modelH t)
    (hs : ∀ t ∈ ts, strideOf spec modelW modelH t = s) (hn : Named spec modelW modelH ts) (h : Served spec ts)
    (hlate : ¬ Late spec ts) : Arranged spec ts := by
  rcases h with ⟨t, rfl, hcomb⟩ | ⟨t, u, rfl, ht, hu, hsame⟩
  · exact .inl ⟨t, rfl, kindOf_both.mpr hcomb⟩
  · refine .inr ⟨t, u, rfl, ?_⟩
    have hrt := hreadable t (by simp)
    have hru := hreadable u (by simp)
    by_cases hunclear : Unclear spec t
    · -- the hints are different, and not both missing
      have hunclear' := unclear_of_unclear hunclear hru.2.2 hu
      have hstride : strideOf spec modelW modelH t = strideOf spec modelW modelH u := (hs t (by simp)).trans (hs u (by simp)).symm
      have hdistinct := (List.pairwise_cons.mp hn.distinct).1 u (by simp) hunclear hunclear' hrt.2.1 hstride
      have hhinted : roleHint t.name ≠ 0 ∨ roleHint u.name ≠ 0 := by
        obtain ⟨v, hv, -, -, hhint⟩ := hn.hinted t (by simp) hunclear hrt.2.1
        rcases List.mem_pair.mp hv with rfl | rfl
        · exact .inl hhint
        · exact .inr hhint
      have hnot : ¬ (kindOf spec t = .either ∧ kindOf spec u = .box) := fun hk => hlate ⟨t, u, rfl, hk⟩
      rw [kindOf_unclear hunclear, kindOf_unclear hunclear'] at hnot ⊢
      rcases roleHint_cases t.name with h | h | h <;> rcases roleHint_cases u.name with h' | h' | h' <;> simp_all
    · have hunclear' : ¬ Unclear spec u := fun hc => hunclear (unclear_of_unclear hc hrt.2.2 ht)
      rcases kindOf_clear hrt.2.2 ht hunclear with ⟨htk, htc⟩ | ⟨htk, htc⟩ <;>
        rcases kindOf_clear hru.2.2 hu hunclear' with ⟨huk, huc⟩ | ⟨huk, huc⟩
      · have := hsame (htc.trans huc.symm)
        exact absurd ⟨this, by omega⟩ hunclear
      · exact .inl ⟨.inl htk, .inl huk⟩
      · exact .inr ⟨htk, .inl huk⟩
      · have := hsame (htc.trans huc.symm)
        exact absurd ⟨this, htc⟩ hunclear

theorem ofStride_perm (h : outs.Perm outs') : (ofStride spec modelW modelH s outs).Perm (ofStride spec modelW modelH s outs') :=
  h.filter _

theorem Served.perm (h : Served spec ts) {ts' : List (TensorView F)} (hp : ts.Perm ts') : Served spec ts' := by
  rcases h with ⟨t, rfl, hc⟩ | ⟨t, u, rfl, ht, hu, hsame⟩
  · exact .inl ⟨t, (List.singleton_perm.mp hp).symm, hc⟩
  · rcases List.pair_perm.mp hp with rfl | rfl
    · exact .inr ⟨t, u, rfl, ht, hu, hsame⟩
    · exact .inr ⟨u, t, rfl, hu, ht, fun he => hsame he.symm⟩

theorem Loadable.perm (h : Loadable spec modelW modelH outs) (hp : outs.Perm outs') : Loadable spec modelW modelH outs' where
  some hnil := h.some (List.perm_nil.mp (hnil ▸ hp))
  canvas := h.canvas
  readable t ht := h.readable t (hp.mem_iff.mpr ht)
  served t ht := (h.served t (hp.mem_iff.mpr ht)).perm (ofStride_perm hp)

theorem Named.perm (h : Named spec modelW modelH outs) (hp : outs.Perm outs') : Named spec modelW modelH outs' where
  hinted t ht hunclear hne := by
    obtain ⟨u, hu, hrest⟩ := h.hinted t (hp.mem_iff.mpr ht) hunclear hne
    exact ⟨u, hp.mem_iff.mp hu, hrest⟩
  distinct := by
    refine (hp.pairwise_iff ?_).mp h.distinct
    intro t u htu hu ht hne hs hhint he
    exact htu ht hu (hs ▸ hne) hs.symm (he ▸ hhint) he.symm

theorem Named.ofStride (h : Named spec modelW modelH outs) : Named spec modelW modelH (ofStride spec modelW modelH s outs) where
  hinted t ht hunclear hne := by
    obtain ⟨u, hu, hs, hrest⟩ := h.hinted t (List.mem_of_mem_filter ht) hunclear hne
    refine ⟨u, List.mem_filter.mpr ⟨hu, ?_⟩, hs, hrest⟩
    simpa using hs.trans (strideOf_of_mem ht)
  distinct := h.distinct.sublist List.filter_sublist

theorem loads_iff (hn : Named spec modelW modelH outs) :
    (∃ levels, Loads spec modelW modelH outs levels) ↔
      Loadable spec modelW modelH outs ∧ ∀ s, ¬ Late spec (Yolo.ofStride spec modelW modelH s outs) := by
  constructor
  · rintro ⟨levels, h⟩
    have harranged : ∀ s, Yolo.ofStride spec modelW modelH s outs ≠ [] →
        (∀ t ∈ Yolo.ofStride spec modelW modelH s outs, Readable spec modelW modelH t) ∧
          Arranged spec (Yolo.ofStride spec modelW modelH s outs) := fun s hsome =>
      (levelLoads_arranged (fun t ht => strideOf_of_mem ht) hsome).mp ⟨_, h.level s⟩
    have hmem : ∀ t ∈ outs, t ∈ Yolo.ofStride spec modelW modelH (strideOf spec modelW modelH t) outs := fun t ht =>
      List.mem_filter.mpr ⟨ht, by simp⟩
    refine ⟨⟨h.some, h.canvas, fun t ht => ?_, fun t ht => ?_⟩, fun s hlate => ?_⟩
    · exact (harranged _ (List.ne_nil_of_mem (hmem t ht))).1 t (hmem t ht)
    · have := harranged _ (List.ne_nil_of_mem (hmem t ht))
      exact served_of_arranged this.1 this.2
    · have hsome : Yolo.ofStride spec modelW modelH s outs ≠ [] := by
        obtain ⟨t, u, htu, -⟩ := hlate
        simp [htu]
      exact not_late_of_arranged (harranged s hsome).2 hlate
  · rintro ⟨hl, hlate⟩
    have hlevel : ∀ s, ∃ o, LevelLoads spec modelW modelH s (Yolo.ofStride spec modelW modelH s outs) o := by
      intro s
      cases hts : Yolo.ofStride spec modelW modelH s outs with
      | nil => exact ⟨none, .inl ⟨rfl, rfl⟩⟩
      | cons t ts =>
        have ht : t ∈ Yolo.ofStride spec modelW modelH s outs := hts ▸ List.mem_cons_self
        have hserved := hl.served t (List.mem_of_mem_filter ht)
        rw [strideOf_of_mem ht] at hserved
        have hreadable : ∀ u ∈ Yolo.ofStride spec modelW modelH s outs, Readable spec modelW modelH u := fun u hu =>
          hl.readable u (List.mem_of_mem_filter hu)
        have harranged := arranged_of_served hreadable (fun u hu => strideOf_of_mem hu) hn.ofStride hserved (hlate s)
        rw [← hts]
        exact (levelLoads_arranged (fun u hu => strideOf_of_mem hu) (List.ne_nil_of_mem ht)).mpr ⟨hreadable, harranged⟩
    choose levels hlevels using hlevel
    exact ⟨levels, hl.some, hl.canvas, hlevels⟩

theorem Gives.unique {p q : Part F} (h : Gives spec modelW modelH s t p) (h' : Gives spec modelW modelH s t q) : p = q := by
  obtain ⟨data, hdata, -, rfl⟩ := h
  obtain ⟨data', hdata', -, rfl⟩ := h'
  obtain rfl := Except.ok.inj (hdata.symm.trans hdata')
  rfl

theorem gives_unique {ps qs : List (Part F)} (h : List.Forall₂ (Gives spec modelW modelH s) ts ps)
    (h' : List.Forall₂ (Gives spec modelW modelH s) ts qs) : ps = qs := by
  induction h generalizing qs with
  | nil =>
    cases h'
    rfl
  | cons hp _ ih =>
    cases h' with
    | cons hq hrest => rw [hp.unique hq, ih hrest]

theorem Fills.unique {box' cls' : List F} (h : Fills ps box cls) (h' : Fills ps box' cls') : box = box' ∧ cls = cls' := by
  match ps, h, h' with
  | [p], h, h' => exact ⟨h.2.1.trans h'.2.1.symm, h.2.2.trans h'.2.2.symm⟩
  | [p, q], h, h' =>
    -- the kind of the first part says which of the two it is
    rcases h with ⟨hp, -, hb, hc⟩ | ⟨hp, -, hb, hc⟩ <;> rcases h' with ⟨hp', -, hb', hc'⟩ | ⟨hp', -, hb', hc'⟩
    · exact ⟨hb.trans hb'.symm, hc.trans hc'.symm⟩
    · simp [hp'] at hp
    · simp [hp] at hp'
    · exact ⟨hb.trans hb'.symm, hc.trans hc'.symm⟩

/-- In both orders the same is the box, unless both tensors could be it. -/
theorem Fills.swap {box' cls' : List F} (h : Fills [p, q] box cls) (h' : Fills [q, p] box' cls')
    (hne : ¬ (p.kind = .either ∧ q.kind = .either)) : box = box' ∧ cls = cls' := by
  obtain ⟨k, b, c⟩ := p
  obtain ⟨k', b', c'⟩ := q
  cases k <;> cases k' <;> simp_all [Fills]

theorem unclear_of_either (h : kindOf spec t = .either) : Unclear spec t ∧ roleHint t.name = 0 := by
  unfold kindOf at h
  split_ifs at h with hcomb hboth hhint
  exact ⟨⟨by omega, hboth.2⟩, hhint⟩

theorem level_unique (hn : Named spec modelW modelH ts) (hs : ∀ t ∈ ts, strideOf spec modelW modelH t = s)
    {ts' : List (TensorView F)} (hp : ts.Perm ts') {o o' : Option (Level (DflSlots F))}
    (h : LevelLoads spec modelW modelH s ts o) (h' : LevelLoads spec modelW modelH s ts' o') : o = o' := by
  rcases h with ⟨rfl, rfl⟩ | ⟨hne, ps, box, cls, hps, hfills, rfl⟩
  · rcases h' with ⟨-, rfl⟩ | ⟨-, qs, box', cls', hqs, hfills', -⟩
    · rfl
    · rw [List.nil_perm.mp hp] at hqs
      cases hqs
      exact hfills'.elim
  · rcases h' with ⟨rfl, -⟩ | ⟨-, qs, box', cls', hqs, hfills', rfl⟩
    · rw [List.perm_nil.mp hp] at hps
      cases hps
      exact hfills.elim
    · have hsame : box = box' ∧ cls = cls' := by
        match ps, hfills with
        | [p], hfills =>
          obtain ⟨t, us, hp', hnil, rfl⟩ := List.forall₂_cons_right_iff.mp hps
          cases hnil
          obtain rfl := List.singleton_perm.mp hp
          rw [← gives_unique hps hqs] at hfills'
          exact hfills.unique hfills'
        | [p, q], hfills =>
          obtain ⟨t, us, hgp, hrest, rfl⟩ := List.forall₂_cons_right_iff.mp hps
          obtain ⟨u, vs, hgq, hnil, rfl⟩ := List.forall₂_cons_right_iff.mp hrest
          cases hnil
          rcases List.pair_perm.mp hp with rfl | rfl
          · rw [← gives_unique hps hqs] at hfills'
            exact hfills.unique hfills'
          · have hswap : List.Forall₂ (Gives spec modelW modelH s) [u, t] [q, p] := .cons hgq (.cons hgp .nil)
            rw [← gives_unique hswap hqs] at hfills'
            refine hfills.swap hfills' fun hk => ?_
            -- one of the two has a hint
            rw [hgp.kind, hgq.kind] at hk
            obtain ⟨hut, ht⟩ := unclear_of_either hk.1
            obtain ⟨v, hv, -, -, hhint⟩ := hn.hinted t (by simp) hut (hs t (by simp) ▸ hne)
            rcases List.mem_pair.mp hv with rfl | rfl
            · exact hhint ht
            · exact hhint (unclear_of_either hk.2).2
      rw [hsame.1, hsame.2]

theorem levels_unique (hn : Named spec modelW modelH outs) (hp : outs.Perm outs') (h : Loads spec modelW modelH outs levels)
    (h' : Loads spec modelW modelH outs' levels') : levels = levels' :=
  funext fun s => level_unique hn.ofStride (fun _ ht => strideOf_of_mem ht) (ofStride_perm hp) (h.level s) (h'.level s)

theorem box_of_unclear (hct : Unclear spec t) (h : kindOf spec u = .box) : Unclear spec u ∧ 0 < roleHint u.name := by
  have hrm := hct.1
  have hcu : Unclear spec u := by
    unfold kindOf at h
    split_ifs at h with hcomb hboth hhint hsign hbox
    · exact ⟨hrm, hboth.2⟩
    · exact ⟨hrm, by omega⟩
  rw [kindOf_unclear hcu] at h
  split_ifs at h with hhint hsign
  exact ⟨hcu, hsign⟩

theorem mixed_of_late (h : Late spec (ofStride spec modelW modelH s outs)) : Mixed spec modelW modelH outs := by
  obtain ⟨t, u, htu, ht, hu⟩ := h
  have hmem : ∀ v ∈ [t, u], v ∈ outs ∧ strideOf spec modelW modelH v = s := fun v hv => by
    rw [← htu] at hv
    exact ⟨List.mem_of_mem_filter hv, strideOf_of_mem hv⟩
  obtain ⟨hct, hhint⟩ := unclear_of_either ht
  obtain ⟨hcu, hpos⟩ := box_of_unclear hct hu
  obtain ⟨htm, hts⟩ := hmem t (by simp)
  obtain ⟨hum, hus⟩ := hmem u (by simp)
  exact ⟨u, hum, t, htm, hus.trans hts.symm, hcu, hct, hpos, hhint⟩

/-- Those named as the box come first. -/
def boxFirst (outs : List (TensorView F)) : List (TensorView F) :=
  outs.filter (fun t => 0 < roleHint t.name) ++ outs.filter fun t => ! decide (0 < roleHint t.name)

/-- Those named as the box come last. -/
def boxLast (outs : List (TensorView F)) : List (TensorView F) :=
  outs.filter (fun t => ! decide (0 < roleHint t.name)) ++ outs.filter fun t => 0 < roleHint t.name

theorem boxFirst_perm (outs : List (TensorView F)) : outs.Perm (boxFirst outs) := (List.filter_append_perm _ _).symm

theorem boxLast_perm (outs : List (TensorView F)) : outs.Perm (boxLast outs) :=
  (boxFirst_perm outs).trans List.perm_append_comm

theorem not_late_boxFirst (outs : List (TensorView F)) : ¬ Late spec (ofStride spec modelW modelH s (boxFirst outs)) := by
  rintro ⟨t, u, htu, ht, hu⟩
  have hpairs : (boxFirst outs).Pairwise fun x y => 0 < roleHint y.name → 0 < roleHint x.name := by
    refine List.pairwise_append.mpr ⟨?_, ?_, ?_⟩
    · exact List.pairwise_of_forall_mem_list fun x hx y _ _ => by simpa using (List.mem_filter.mp hx).2
    · exact List.pairwise_of_forall_mem_list fun x _ y hy hpos => by simpa [hpos] using (List.mem_filter.mp hy).2
    · exact fun x hx y _ _ => by simpa using (List.mem_filter.mp hx).2
  have hpair := hpairs.sublist (List.filter_sublist (p := (strideOf spec modelW modelH · = s)))
  rw [show (boxFirst outs).filter (strideOf spec modelW modelH · = s) = [t, u] from htu] at hpair
  obtain ⟨hct, hzero⟩ := unclear_of_either ht
  have := (List.pairwise_cons.mp hpair).1 u (by simp) (box_of_unclear hct hu).2
  omega

theorem late_boxLast (hl : Loadable spec modelW modelH outs) (hm : Mixed spec modelW modelH outs) :
    ∃ s, Late spec (ofStride spec modelW modelH s (boxLast outs)) := by
  obtain ⟨t, ht, u, hu, hs, hct, hcu, hpos, hzero⟩ := hm
  refine ⟨strideOf spec modelW modelH t, ?_⟩
  have hpairs : (boxLast outs).Pairwise fun x y => 0 < roleHint x.name → 0 < roleHint y.name := by
    refine List.pairwise_append.mpr ⟨?_, ?_, ?_⟩
    · exact List.pairwise_of_forall_mem_list fun x hx y _ hpos => by simpa [hpos] using (List.mem_filter.mp hx).2
    · exact List.pairwise_of_forall_mem_list fun x _ y hy _ => by simpa using (List.mem_filter.mp hy).2
    · exact fun x _ y hy _ => by simpa using (List.mem_filter.mp hy).2
  have hpair := hpairs.sublist (List.filter_sublist (p := (strideOf spec modelW modelH · = strideOf spec modelW modelH t)))
  have hmem : ∀ v ∈ outs, strideOf spec modelW modelH v = strideOf spec modelW modelH t →
      v ∈ ofStride spec modelW modelH (strideOf spec modelW modelH t) (boxLast outs) := fun v hv he =>
    List.mem_filter.mpr ⟨(boxLast_perm outs).mem_iff.mp hv, by simpa using he⟩
  have htm := hmem t ht rfl
  have hum := hmem u hu hs.symm
  have hserved := (hl.served t ht).perm (ofStride_perm (boxLast_perm outs))
  have htk : kindOf spec t = .box := by rw [kindOf_unclear hct, if_neg hpos.ne', if_pos hpos]
  have huk : kindOf spec u = .either := by rw [kindOf_unclear hcu, if_pos hzero]
  rcases hserved with ⟨a, ha, -⟩ | ⟨a, b, hab, -⟩
  · rw [ha, List.mem_singleton] at htm hum
    rw [htm, ← hum, hzero] at hpos
    exact absurd hpos (lt_irrefl 0)
  · rw [hab, List.mem_pair] at htm hum
    rw [show (boxLast outs).filter (strideOf spec modelW modelH · = strideOf spec modelW modelH t) = [a, b] from hab] at hpair
    have hle := (List.pairwise_cons.mp hpair).1 b (by simp)
    rcases htm with rfl | rfl
    · rcases hum with rfl | rfl
      · omega
      · have := hle hpos
        omega
    · rcases hum with rfl | rfl
      · exact ⟨u, t, hab, huk, htk⟩
      · omega

section

variable [Floats F] {score nmsTh : F}

theorem decode_same (h : Loads spec modelW modelH outs levels) (h' : Loads spec modelW modelH outs' levels) :
    decode spec outs modelW modelH score nmsTh = decode spec outs' modelW modelH score nmsTh := by
  rw [decode_eq h.some h.canvas, decode_eq h'.some h'.canvas, (dflLevels_ok_iff.mpr h.level).1,
    (dflLevels_ok_iff.mpr h'.level).1]

theorem decode_none (h : ¬ ∃ levels, Loads spec modelW modelH outs levels) :
    (decode spec outs modelW modelH score nmsTh).toOption = none := by
  rw [← decode_ok_iff score nmsTh] at h
  cases hd : decode spec outs modelW modelH score nmsTh with
  | error err => rfl
  | ok r => exact absurd ⟨r, hd⟩ h

/-- When the order of the tensors is of no concern. -/
theorem order_free_iff (hn : Named spec modelW modelH outs) :
    OrderFree spec outs modelW modelH score nmsTh ↔
      (Loadable spec modelW modelH outs → ¬ Mixed spec modelW modelH outs) := by
  constructor
  · intro hfree hl hmixed
    have hfirst := hfree _ (boxFirst_perm outs)
    have hlast := hfree _ (boxLast_perm outs)
    have hloads : ∃ levels, Loads spec modelW modelH (boxFirst outs) levels :=
      (loads_iff (hn.perm (boxFirst_perm outs))).mpr ⟨hl.perm (boxFirst_perm outs), fun s => not_late_boxFirst outs⟩
    have hnone : ¬ ∃ levels, Loads spec modelW modelH (boxLast outs) levels := fun h => by
      obtain ⟨s, hlate⟩ := late_boxLast hl hmixed
      exact ((loads_iff (hn.perm (boxLast_perm outs))).mp h).2 s hlate
    obtain ⟨r, hr⟩ := (decode_ok_iff score nmsTh).mpr hloads
    rw [← hlast, decode_none hnone, hr] at hfirst
    cases hfirst
  · intro hcond outs' hp
    by_cases hl : Loadable spec modelW modelH outs
    · have hlate : ∀ s, ¬ Late spec (ofStride spec modelW modelH s outs) := fun s h => hcond hl (mixed_of_late h)
      have hlate' : ∀ s, ¬ Late spec (ofStride spec modelW modelH s outs') := fun s h => by
        obtain ⟨t, ht, u, hu, hrest⟩ := mixed_of_late h
        exact hcond hl ⟨t, hp.mem_iff.mpr ht, u, hp.mem_iff.mpr hu, hrest⟩
      obtain ⟨levels, h⟩ := (loads_iff hn).mpr ⟨hl, hlate⟩
      obtain ⟨levels', h'⟩ := (loads_iff (hn.perm hp)).mpr ⟨hl.perm hp, hlate'⟩
      obtain rfl := levels_unique hn hp h h'
      rw [decode_same h h']
    · have hnone : ¬ ∃ levels, Loads spec modelW modelH outs levels := fun h => hl ((loads_iff hn).mp h).1
      have hnone' : ¬ ∃ levels, Loads spec modelW modelH outs' levels := fun h =>
        hl (((loads_iff (hn.perm hp)).mp h).1.perm hp.symm)
      rw [decode_none hnone, decode_none hnone']

end

/-- One bin a side and four classes, on a grid of one cell. -/
def fourClasses : DecodeSpec := ⟨4, 1, [8], 17, by decide, by decide, by decide⟩

def oneCell (name : String) : TensorView Extended := ⟨some [.fin 0, .fin 0, .fin 0, .fin 0], 4, [4, 1, 1], name⟩

theorem named_of_box : Named fourClasses 8 8 [oneCell "bbox", oneCell "out"] where
  hinted := by decide +kernel
  distinct := by decide +kernel

theorem order_free_hinted :
    OrderFree fourClasses [oneCell "bbox", oneCell "out"] 8 8 (.fin (1 / 4)) (.fin (1 / 2)) ↔
      (Loadable fourClasses 8 8 [oneCell "bbox", oneCell "out"] → ¬ Mixed fourClasses 8 8 [oneCell "bbox", oneCell "out"]) :=
  order_free_iff named_of_box

/-- The box and a tensor without a hint load in this order, and not in the
other. -/
theorem not_order_free :
    ¬ ∀ (spec : DecodeSpec) (modelW modelH : Int) (outs : List (TensorView Extended)) (score nmsTh : Extended),
      Named spec modelW modelH outs → OrderFree spec outs modelW modelH score nmsTh := by
  intro h
  have hswap := h fourClasses 8 8 [oneCell "bbox", oneCell "out"] (.fin (1 / 4)) (.fin (1 / 2)) named_of_box
    [oneCell "out", oneCell "bbox"] (List.Perm.swap _ _ _)
  have hisSome := congrArg Option.isSome hswap
  revert hisSome
  decide +kernel

end RetailVision.Vb.Yolo
