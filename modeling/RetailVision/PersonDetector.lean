/-
The person detector of the Jetson backend (`backends/tensorrt/detector.py`), from
the head that the engine leaves to the boxes that the tracker is given:
`decode_person`, `_nms` and `detect`. The numbers are those of an ordered field, as
they are in the tracker.

`argsort` is numpy's, which says nothing of the order of equal scores, so it is a
parameter. The engine is not modelled: `detect` begins with its outputs.
-/
import RetailVision.Lib.Greedy
import RetailVision.PersonTracker
import RetailVision.Lib.Ordered
import Mathlib.Algebra.Order.Field.Basic
import Mathlib.Data.List.GetD
import Mathlib.Data.Rat.Floor

set_option linter.all false

namespace RetailVision.PersonDetector

open RetailVision.Lib
open RetailVision.PersonTracker (DetectionBox)
open scoped RetailVision.Lib.Ordered

variable {K : Type}

/-- An array of numpy: its shape, and what is at an index of that shape. -/
structure NdArray (K : Type) where
  shape : List Nat
  get : List Nat → K

/-- A shape, as Python prints it. -/
def reprShape : List Nat → String
  | [n] => s!"({n},)"
  | ns => "(" ++ ", ".intercalate (ns.map toString) ++ ")"

/-- An array of two dimensions. -/
structure Matrix (K : Type) where
  rows : Nat
  cols : Nat
  get : Nat → Nat → K

def Matrix.transpose (a : Matrix K) : Matrix K := ⟨a.cols, a.rows, fun i j => a.get j i⟩

/-- The head without its batch: `array[0]`, where there are three dimensions. -/
def head (output : NdArray K) : Except String (Matrix K) :=
  match output.shape with
  | [rows, cols] => .ok ⟨rows, cols, fun i j => output.get [i, j]⟩
  | [0, _, _] => .error "index 0 is out of bounds for axis 0 with size 0"
  | [_, rows, cols] => .ok ⟨rows, cols, fun i j => output.get [0, i, j]⟩
  | _ => .error s!"unexpected detection head shape: {reprShape output.shape}"

/-- Ultralytics exports channels first. -/
def channelsFirst (array : Matrix K) : Matrix K := if array.rows > array.cols then array.transpose else array

/-- A head is read alike in both layouts. -/
theorem channelsFirst_transpose {array : Matrix K} (h : array.rows ≠ array.cols) : channelsFirst array.transpose = channelsFirst array := by
  rcases Nat.lt_or_gt_of_ne h with hlt | hgt
  · simp only [channelsFirst, Matrix.transpose, gt_iff_lt, if_pos hlt, if_neg (Nat.lt_asymm hlt)]
  · simp only [channelsFirst, Matrix.transpose, gt_iff_lt, if_pos hgt, if_neg (Nat.lt_asymm hgt)]

structure Box (K : Type) where
  x1 : K
  y1 : K
  x2 : K
  y2 : K
  deriving DecidableEq

structure Person (K : Type) where
  box : Box K
  score : K
  deriving DecidableEq

section

variable [Field K] [LinearOrder K]

instance : Inhabited (Person K) := ⟨⟨⟨0, 0, 0, 0⟩, 0⟩⟩

def Box.area (b : Box K) : K := max 0 (b.x2 - b.x1) * max 0 (b.y2 - b.y1)

def Box.inter (a b : Box K) : K :=
  max 0 (min a.x2 b.x2 - max a.x1 b.x1) * max 0 (min a.y2 b.y2 - max a.y1 b.y1)

def iou (a b : Box K) : K := a.inter b / max (a.area + b.area - a.inter b) 1e-9

/-- The boxes of `rest` that overlap that of the first by more than `threshold` are
left out of the next turn. -/
def nms (argsort : List K → List Nat) (persons : List (Person K)) (threshold : K) : List Nat :=
  let order := (argsort (persons.map (·.score))).reverse
  Greedy.sieve (fun i j => ¬ iou (persons.getD i default).box (persons.getD j default).box ≤ threshold) order.length order

def clip (x : K) (hi : Nat) : K := min (max x 0) hi

/-- The box and the score of one column. -/
def person (array : Matrix K) (inputSize : Nat) (i : Nat) : Person K :=
  let halfW := array.get 2 i * 0.5
  let halfH := array.get 3 i * 0.5
  { box := ⟨clip (array.get 0 i - halfW) inputSize, clip (array.get 1 i - halfH) inputSize,
      clip (array.get 0 i + halfW) inputSize, clip (array.get 1 i + halfH) inputSize⟩
    score := array.get 4 i }

/-- `flatnonzero`: the columns whose score, that of the class of persons, is enough. -/
def selected (array : Matrix K) (confidence : K) : List Nat :=
  (List.range array.cols).filter fun i => confidence ≤ array.get 4 i

def decodePerson (argsort : List K → List Nat) (output : NdArray K) (confidence nmsThreshold : K) (inputSize : Nat) :
    Except String (List (Person K)) := do
  let array := channelsFirst (← head output)
  if array.rows < 5 then throw s!"detection head has too few channels: {array.rows}"
  let persons := (selected array confidence).map (person array inputSize)
  return (nms argsort persons nmsThreshold).map fun i => persons.getD i default

/-- A box as the tracker is given it, in parts of the frame. -/
def Person.detection (p : Person K) (size : Nat) : DetectionBox K where
  x := (p.box.x1 + p.box.x2) / 2.0 / size
  y := (p.box.y1 + p.box.y2) / 2.0 / size
  w := (p.box.x2 - p.box.x1) / size
  h := (p.box.y2 - p.box.y1) / size
  score := p.score

/-- `size` is the height of the frame, which is as wide. -/
def detect (argsort : List K → List Nat) (outputs : List (NdArray K)) (scoreThreshold nmsThreshold : K) (size : Nat) :
    Except String (List (DetectionBox K)) :=
  match outputs with
  | [] => .error "list index out of range"
  | output :: _ => do
    let boxes ← decodePerson argsort output scoreThreshold nmsThreshold size
    if size = 0 ∧ boxes ≠ [] then throw "float division by zero"
    return boxes.map fun b => b.detection size

/-- What numpy says of `argsort`. -/
structure Argsort (argsort : List K → List Nat) : Prop where
  perm : ∀ l, (argsort l).Perm (List.range l.length)
  sorted : ∀ l, (argsort l).Pairwise fun i j => l.getD i 0 ≤ l.getD j 0

/-- Equal scores in the order of their indices. -/
def stableArgsort (l : List K) : List Nat := (List.range l.length).insertionSort fun i j => l.getD i 0 ≤ l.getD j 0

theorem argsort_stableArgsort : Argsort (K := K) stableArgsort where
  perm l := List.perm_insertionSort _ _
  sorted l := by
    have htotal : Std.Total fun i j => l.getD i 0 ≤ l.getD j 0 := ⟨fun i j => le_total _ _⟩
    have htrans : IsTrans Nat fun i j => l.getD i 0 ≤ l.getD j 0 := ⟨fun i j k => le_trans⟩
    exact List.pairwise_insertionSort _ _

/-- What is reported of the columns: no column twice, the surest first, no two that
overlap by more than the threshold, and for what is left out one that is as sure and
overlaps it by more. -/
structure Reported (array : Matrix K) (confidence threshold : K) (size : Nat) (persons : List (Person K)) : Prop where
  columns : ∃ js : List Nat, js.Nodup ∧ (∀ j ∈ js, j < array.cols ∧ confidence ≤ array.get 4 j) ∧
    persons = js.map (person array size)
  sorted : persons.Pairwise fun a b => b.score ≤ a.score
  apart : persons.Pairwise fun a b => iou a.box b.box ≤ threshold
  covered : ∀ i < array.cols, confidence ≤ array.get 4 i →
    ∃ p ∈ persons, p = person array size i ∨ threshold < iou p.box (person array size i).box ∧ array.get 4 i ≤ p.score

/-- The box is within the frame. -/
structure Within (d : DetectionBox K) : Prop where
  left : 0 ≤ d.x - d.w / 2 ∧ d.x - d.w / 2 ≤ 1
  top : 0 ≤ d.y - d.h / 2 ∧ d.y - d.h / 2 ≤ 1
  right : 0 ≤ d.x + d.w / 2 ∧ d.x + d.w / 2 ≤ 1
  bottom : 0 ≤ d.y + d.h / 2 ∧ d.y + d.h / 2 ≤ 1

end

/-! ## The selection -/

section

variable [Field K] [LinearOrder K] {argsort : List K → List Nat} {persons : List (Person K)} {confidence threshold : K}
  {array : Matrix K} {size i : Nat}

omit [Field K] in
@[simp] theorem mem_selected : i ∈ selected array confidence ↔ i < array.cols ∧ confidence ≤ array.get 4 i := by
  simp [selected]

omit [Field K] in
theorem nodup_selected : (selected array confidence).Nodup := List.nodup_range.filter _

theorem nms_eq (argsort : List K → List Nat) (persons : List (Person K)) (threshold : K) :
    nms argsort persons threshold =
      Greedy.select (fun i j => ¬ iou (persons.getD i default).box (persons.getD j default).box ≤ threshold)
        (argsort (persons.map (·.score))).reverse :=
  Greedy.sieve_eq_select (Nat.le_refl _)

theorem mem_order (ha : Argsort argsort) : i ∈ (argsort (persons.map (·.score))).reverse ↔ i < persons.length := by
  rw [List.mem_reverse, (ha.perm _).mem_iff, List.mem_range, List.length_map]

theorem nodup_order (ha : Argsort argsort) : (argsort (persons.map (·.score))).reverse.Nodup :=
  List.nodup_reverse.mpr ((ha.perm _).nodup_iff.mpr List.nodup_range)

/-- The order is that of the scores, the highest first. -/
theorem order_sorted (ha : Argsort argsort) :
    (argsort (persons.map (·.score))).reverse.Pairwise fun i j => (persons.getD j default).score ≤ (persons.getD i default).score := by
  rw [List.pairwise_reverse]
  refine (ha.sorted _).imp fun {i j} h => ?_
  have hscore : ∀ k, (persons.map (·.score)).getD k 0 = (persons.getD k default).score := fun k =>
    List.getD_map persons default Person.score
  rwa [hscore, hscore] at h

theorem nms_sublist (argsort : List K → List Nat) (persons : List (Person K)) (threshold : K) :
    List.Sublist (nms argsort persons threshold) (argsort (persons.map (·.score))).reverse := by
  rw [nms_eq]
  exact Greedy.select_sublist _

theorem mem_nms (ha : Argsort argsort) (hi : i ∈ nms argsort persons threshold) : i < persons.length :=
  (mem_order ha).mp ((nms_sublist argsort persons threshold).subset hi)

/-- What is left out overlaps one that is kept and comes no later. -/
theorem exists_nms (ha : Argsort argsort) (hi : i < persons.length) (hd : i ∉ nms argsort persons threshold) :
    ∃ k ∈ nms argsort persons threshold, threshold < iou (persons.getD k default).box (persons.getD i default).box ∧
      (persons.getD i default).score ≤ (persons.getD k default).score := by
  rw [nms_eq] at hd ⊢
  obtain ⟨k, hk, hc, hs⟩ := Greedy.exists_kept (order_sorted ha) ((mem_order ha).mpr hi) hd
  exact ⟨k, hk, not_le.mp hc, hs⟩

theorem reported_nms (ha : Argsort argsort) (array : Matrix K) (confidence threshold : K) (size : Nat) :
    let persons := (selected array confidence).map (person array size)
    Reported array confidence threshold size ((nms argsort persons threshold).map fun i => persons.getD i default) := by
  intro persons
  have hlen : persons.length = (selected array confidence).length := List.length_map _
  have hget : ∀ k (hk : k < (selected array confidence).length),
      persons.getD k default = person array size ((selected array confidence)[k]) := fun k hk => by
    rw [List.getD_eq_getElem _ _ (hlen ▸ hk), List.getElem_map]
  constructor
  · refine ⟨(nms argsort persons threshold).map fun k => (selected array confidence).getD k 0, ?_, ?_, ?_⟩
    · refine List.Nodup.map_on (fun k hk l hl h => ?_) ((nms_sublist argsort persons threshold).nodup (nodup_order ha))
      have hk := hlen ▸ mem_nms ha hk
      have hl := hlen ▸ mem_nms ha hl
      rw [List.getD_eq_getElem _ _ hk, List.getD_eq_getElem _ _ hl] at h
      exact nodup_selected.getElem_inj_iff.mp h
    · intro j hj
      obtain ⟨k, hk, rfl⟩ := List.mem_map.mp hj
      have hk := hlen ▸ mem_nms ha hk
      rw [List.getD_eq_getElem _ _ hk]
      exact mem_selected.mp (List.getElem_mem hk)
    · rw [List.map_map]
      refine List.map_congr_left fun k hk => ?_
      have hk := hlen ▸ mem_nms ha hk
      rw [hget k hk, Function.comp, List.getD_eq_getElem _ _ hk]
  · exact List.pairwise_map.mpr ((order_sorted ha).sublist (nms_sublist argsort persons threshold))
  · rw [List.pairwise_map, nms_eq]
    exact (Greedy.select_pairwise _).imp fun h => not_not.mp h
  · intro i hi hc
    obtain ⟨k, hk, rfl⟩ := List.mem_iff_getElem.mp (mem_selected.mpr ⟨hi, hc⟩)
    by_cases hkeep : k ∈ nms argsort persons threshold
    · exact ⟨_, List.mem_map_of_mem hkeep, .inl (hget k hk)⟩
    · obtain ⟨l, hl, hov, hs⟩ := exists_nms ha (hlen ▸ hk) hkeep
      rw [hget k hk] at hov hs
      exact ⟨_, List.mem_map_of_mem hl, .inr ⟨hov, hs⟩⟩

theorem decodePerson_of_head {output : NdArray K} {array : Matrix K} (hh : head output = .ok array) :
    decodePerson argsort output confidence threshold size =
      if (channelsFirst array).rows < 5 then .error s!"detection head has too few channels: {(channelsFirst array).rows}"
      else
        let persons := (selected (channelsFirst array) confidence).map (person (channelsFirst array) size)
        .ok ((nms argsort persons threshold).map fun i => persons.getD i default) := by
  simp only [decodePerson, hh]
  by_cases h : (channelsFirst array).rows < 5
  · rw [if_pos h]
    simp only [bind, Except.bind, h, if_true]
    rfl
  · rw [if_neg h]
    simp only [bind, Except.bind, h, if_false]
    rfl

end

/-! ## The detections -/

section

variable [Field K] [LinearOrder K] [IsStrictOrderedRing K] {argsort : List K → List Nat} {confidence threshold : K} {size : Nat}

theorem clip_mem (x : K) (hi : Nat) : 0 ≤ clip x hi ∧ clip x hi ≤ hi :=
  ⟨le_min (le_max_right _ _) (Nat.cast_nonneg _), min_le_right _ _⟩

theorem div_mem {x : K} (hx : 0 ≤ x ∧ x ≤ size) : 0 ≤ x / size ∧ x / size ≤ 1 :=
  ⟨div_nonneg hx.1 (Nat.cast_nonneg _), div_le_one_of_le₀ hx.2 (Nat.cast_nonneg _)⟩

/-- The corners of a detection are those of the box. -/
theorem within_detection (hpos : 0 < size) (array : Matrix K) (i : Nat) : Within ((person array size i).detection size) := by
  have hsize : (size : K) ≠ 0 := Nat.cast_ne_zero.mpr (Nat.ne_of_gt hpos)
  have htwo : (2.0 : K) = 2 := by norm_num
  have hlow : ∀ a b : K, (a + b) / 2.0 / size - (b - a) / size / 2 = a / size := fun a b => by
    rw [htwo]
    field_simp
    ring
  have hhigh : ∀ a b : K, (a + b) / 2.0 / size + (b - a) / size / 2 = b / size := fun a b => by
    rw [htwo]
    field_simp
    ring
  constructor
  · rw [Person.detection, hlow]
    exact div_mem (clip_mem _ _)
  · rw [Person.detection, hlow]
    exact div_mem (clip_mem _ _)
  · rw [Person.detection, hhigh]
    exact div_mem (clip_mem _ _)
  · rw [Person.detection, hhigh]
    exact div_mem (clip_mem _ _)

end

/-- Three sure columns, of which the first two are the same box. -/
def crowd : NdArray ℚ where
  shape := [1, 5, 6]
  get
    | [_, 0, j] => if j < 2 then 100 else 400
    | [_, 1, _] => 200
    | [_, 2, _] => 50
    | [_, 3, _] => 120
    | [_, 4, j] => if j < 3 then 9 / 10 else 0
    | _ => 0

example : (decodePerson stableArgsort crowd 0.35 0.45 640).map List.length = .ok 2 := by decide +kernel

end RetailVision.PersonDetector
