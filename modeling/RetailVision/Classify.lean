/-
The decoder of a classifier (`core-cpp/vb/src/post/classify.cpp`): the classes that
are surest, as detections of the whole frame.
-/
import RetailVision.Lib.Best
import RetailVision.YoloDecode

set_option linter.all false

namespace RetailVision.Vb.Classify

open RetailVision.Lib
open RetailVision.Vb.Yolo (checkView noteDropped Decoded)

variable {F : Type}

/-- What the decoder reads of its `DecodeSpec`. -/
structure Spec where
  numClasses : Int
  topK : Int
  softmax : Bool

def ctx : String := "classify decoder"

section

variable [Floats F]

/-- Of nothing there is no maximum; `check_view` lets no empty tensor through. -/
def softmax (p : List F) : List F :=
  let mx := match p with
    | [] => 0.0
    | x :: xs => xs.foldl stdMax x
  let es := p.map fun v => Floats.exp (v - mx)
  let sum := es.foldl (· + ·) 0.0
  es.map (· / sum)

/-- What is not finite goes to the end of the order. -/
def demote (v : F) : F := if Floats.isfinite v then v else -Floats.infinity

def scores (spec : Spec) (logits : List F) : List F := if spec.softmax then softmax logits else logits

/-- `order`, with the scores that it indexes. -/
def order (p : List F) : List (F × Nat) := (p.map demote).zipIdx.insertionSort fun a b => ¬ a.1 < b.1

/-- The loop goes on. -/
def Goes (score : F) (c : F × Nat) : Prop := Floats.isfinite c.1 = true ∧ ¬ c.1 ≤ score

instance (score : F) : DecidablePred (Goes score) :=
  fun c => inferInstanceAs (Decidable (Floats.isfinite c.1 = true ∧ ¬ c.1 ≤ score))

def whole (c : F × Nat) : Detection F where
  cx := 0.5
  cy := 0.5
  w := 1.0
  h := 1.0
  score := c.1
  classId := Int32.ofNat c.2
  trackId := 0
  kptOffset := 0
  kptCount := 0

def decode (spec : Spec) (outs : List (TensorView F)) (score : F) : Except String (Decoded F) :=
  match outs with
  | [t] =>
    match checkView t ctx with
    | .error err => .error err
    | .ok data =>
      match t.dims with
      | [nc] =>
        if nc ≠ spec.numClasses then .error "classify decoder: output size does not match num_classes"
        else
          let p := scores spec (data.take nc.toNat)
          let dropped := p.countP fun v => ¬ Floats.isfinite v
          .ok
            { dets := (Best.best (Goes score) spec.topK.toNat (order p)).map whole
              kpts := []
              note := noteDropped ctx dropped }
      | _ => .error "classify decoder expects one [nc] output vector"
  | _ => .error "classify decoder expects one [nc] output vector"

/-- `≤` and the infinity below all numbers, as IEEE 754 has them. -/
structure Bounds (F : Type) [Floats F] : Prop where
  ordered : Floats.Ordered F
  le_iff : ∀ {x y : F}, x ≤ y ↔ ¬ Floats.isnan x ∧ ¬ Floats.isnan y ∧ ¬ y < x
  bottom_number : ¬ Floats.isnan (-Floats.infinity : F)
  bottom_infinite : Floats.isfinite (-Floats.infinity : F) = false
  bottom_lt : ∀ {y : F}, Floats.isfinite y = true → -Floats.infinity < y

/-- One output of the one size that there is to be. -/
def OneVector (spec : Spec) (outs : List (TensorView F)) (logits : List F) : Prop :=
  ∃ t, outs = [t] ∧ t.dims = [spec.numClasses] ∧ checkView t ctx = .ok logits

/-- A class comes before another. -/
def Before (a b : F × Nat) : Prop := b.1 < a.1 ∨ ¬ a.1 < b.1 ∧ a.2 < b.2

/-- The classes that are reported, with their scores: those that pass, the surest
first and equals in their order; and all of them, unless there are as many before. -/
structure Surest (p : List F) (k : Nat) (score : F) (cs : List (F × Nat)) : Prop where
  found : ∀ c ∈ cs, p[c.2]? = some c.1 ∧ Goes score c
  sorted : cs.Pairwise Before
  bounded : cs.length ≤ k
  complete : ∀ v i, p[i]? = some v → Goes score (v, i) → (v, i) ∈ cs ∨ cs.length = k ∧ ∀ c ∈ cs, Before c (v, i)

end

/-! ## The order

NaN is put below all numbers, so that the order is weak on all of them. There is
none in the list that is sorted. -/

section

open Floats (isnan isfinite)

variable [Floats F] {p : List F} {a b c x y z score : F} {i k : Nat}

def Below (x y : F) : Prop := isnan x ∧ ¬ isnan y ∨ x < y

instance : DecidableRel (Below (F := F)) := fun x y => inferInstanceAs (Decidable (isnan x ∧ ¬ isnan y ∨ x < y))

theorem below_asymm (h : Floats.Ordered F) (hxy : Below x y) : ¬ Below y x := by
  rintro (⟨hy, hx⟩ | hyx)
  · exact hxy.elim (fun hn => hx hn.1) fun hlt => (h.number hlt).2 hy
  · exact hxy.elim (fun hn => (h.number hyx).2 hn.1) fun hlt => h.asymm hlt hyx

theorem below_between (h : Floats.Ordered F) (y : F) (hxz : Below x z) : Below x y ∨ Below y z := by
  by_cases hy : isnan y
  · exact .inr (.inl ⟨hy, hxz.elim And.right fun hlt => (h.number hlt).2⟩)
  · rcases hxz with ⟨hx, -⟩ | hlt
    · exact .inl (.inl ⟨hx, hy⟩)
    · exact (h.between hlt hy).imp .inr .inr

theorem demote_number (h : Bounds F) (v : F) : ¬ isnan (demote v) := by
  unfold demote
  split
  · exact h.ordered.finite ‹_›
  · exact h.bottom_number

theorem demote_of_finite (h : isfinite a = true) : demote a = a := if_pos h

theorem mem_order : (a, i) ∈ order p ↔ (p.map demote)[i]? = some a := by
  rw [order, List.mem_insertionSort, List.mem_zipIdx_iff_getElem?]

theorem number_of_mem_order (h : Bounds F) (ha : (a, i) ∈ order p) : ¬ isnan a := by
  obtain ⟨v, -, rfl⟩ := List.mem_map.mp (List.mem_of_getElem? (mem_order.mp ha))
  exact demote_number h v

/-- Of what was demoted nothing is finite, so what is finite is the class's own. -/
theorem mem_order_of_finite (h : Bounds F) (hfin : isfinite a = true) : (a, i) ∈ order p ↔ p[i]? = some a := by
  rw [mem_order, List.getElem?_map, Option.map_eq_some_iff]
  constructor
  · rintro ⟨v, hv, rfl⟩
    by_cases hvfin : isfinite v = true
    · rwa [demote_of_finite hvfin]
    · rw [demote, if_neg hvfin, h.bottom_infinite] at hfin
      cases hfin
  · exact fun hv => ⟨a, hv, demote_of_finite hfin⟩

theorem order_sorted (h : Bounds F) (p : List F) : (order p).Pairwise Before := by
  have hweak := pairwise_insertionSort_weak (fun x y => below_asymm h.ordered (x := x) (y := y))
    (fun x y z => below_between h.ordered y) (p.map demote)
  have hlt : ∀ a b : F × Nat, ¬ isnan a.1 → (Below a.1 b.1 ↔ a.1 < b.1) := fun a b ha =>
    ⟨fun hb => hb.resolve_left fun hn => ha hn.1, .inr⟩
  have hnumber : ∀ a ∈ (p.map demote).zipIdx, ¬ isnan a.1 := fun a ha =>
    number_of_mem_order h ((List.mem_insertionSort _).mpr ha)
  have hsame : (p.map demote).zipIdx.insertionSort (fun a b => ¬ Below a.1 b.1) = order p :=
    insertionSort_congr (List.pairwise_of_forall_mem_list fun a ha b hb => not_congr (hlt a b (hnumber a ha)))
  rw [hsame] at hweak
  refine hweak.imp_of_mem fun {a b} ha hb hab => ?_
  rwa [hlt b a (number_of_mem_order h hb), hlt a b (number_of_mem_order h ha)] at hab

theorem finite_or_bottom (ha : (a, i) ∈ order p) : isfinite a = true ∨ a = -Floats.infinity := by
  obtain ⟨v, -, rfl⟩ := List.mem_map.mp (List.mem_of_getElem? (mem_order.mp ha))
  by_cases hv : isfinite v = true
  · exact .inl (by rwa [demote_of_finite hv])
  · exact .inr (if_neg hv)

/-- What comes before a class that passes passes. -/
theorem goes_of_before (h : Bounds F) {a b : F × Nat} (hb : b ∈ order p) (hba : Before b a) (ha : Goes score a) : Goes score b := by
  obtain ⟨hfin, habove⟩ := ha
  have hnot : ¬ b.1 < a.1 := hba.elim (fun hlt => h.ordered.asymm hlt) And.left
  have hbfin : isfinite b.1 = true := (finite_or_bottom hb).resolve_right fun hbot => hnot (hbot ▸ h.bottom_lt hfin)
  refine ⟨hbfin, fun hle => habove (h.le_iff.mpr ?_)⟩
  obtain ⟨hnb, hnum, hlt⟩ := h.le_iff.mp hle
  exact ⟨h.ordered.finite hfin, hnum, fun hsa => (h.ordered.between hsa hnb).elim hlt hnot⟩

theorem surest_best (h : Bounds F) (p : List F) (k : Nat) (score : F) : Surest p k score (Best.best (Goes score) k (order p)) where
  found := fun c hc => by
    obtain ⟨hmem, hgoes⟩ := Best.mem_best hc
    exact ⟨(mem_order_of_finite h hgoes.1).mp hmem, hgoes⟩
  sorted := (order_sorted h p).sublist (Best.best_sublist k _)
  bounded := Best.length_best_le k _
  complete := fun v i hv hgoes => by
    have hmem := (mem_order_of_finite h hgoes.1).mpr hv
    have hsorted : (order p).Pairwise fun a b => a ∈ order p ∧ Before a b :=
      (order_sorted h p).imp_of_mem fun ha _ hab => ⟨ha, hab⟩
    by_cases hin : (v, i) ∈ Best.best (Goes score) k (order p)
    · exact .inl hin
    · obtain ⟨hlen, hbefore⟩ :=
        Best.before_of_not_mem hsorted (fun b hb => goes_of_before h hb.1 hb.2 hgoes) hmem hgoes hin
      exact .inr ⟨hlen, fun c hc => (hbefore c hc).2⟩

theorem decode_of_oneVector {spec : Spec} {outs : List (TensorView F)} {logits : List F} (hv : OneVector spec outs logits) (score : F) :
    let p := scores spec (logits.take spec.numClasses.toNat)
    decode spec outs score =
      .ok
        { dets := (Best.best (Goes score) spec.topK.toNat (order p)).map whole
          kpts := []
          note := noteDropped ctx (p.countP fun v => ¬ isfinite v) } := by
  obtain ⟨t, rfl, hdims, hview⟩ := hv
  simp only [decode, hview, hdims, ne_eq, not_true_eq_false, if_false]

theorem oneVector_of_decode {spec : Spec} {outs : List (TensorView F)} {out : Decoded F} (h : decode spec outs score = .ok out) :
    ∃ logits, OneVector spec outs logits := by
  match outs with
  | [] => cases h
  | _ :: _ :: _ => cases h
  | [t] =>
    rcases hview : checkView t ctx with err | logits
    · simp only [decode, hview, reduceCtorEq] at h
    · simp only [decode, hview] at h
      split at h
      · rename_i nc hdims
        by_cases hnc : nc ≠ spec.numClasses
        · rw [if_pos hnc] at h
          cases h
        · exact ⟨logits, t, rfl, by rw [hdims, not_not.mp hnc], hview⟩
      · cases h

/-- One vector of the right size gives its surest classes, as detections of the whole
frame, and a note of what was not finite; nothing else gives any. -/
theorem classes_reported (h : Bounds F) (spec : Spec) (outs : List (TensorView F)) (score : F) :
    ((∃ out, decode spec outs score = .ok out) ↔ ∃ logits, OneVector spec outs logits) ∧
      ∀ logits, OneVector spec outs logits →
        let p := scores spec (logits.take spec.numClasses.toNat)
        ∃ cs, Surest p spec.topK.toNat score cs ∧
          decode spec outs score =
            .ok { dets := cs.map whole, kpts := [], note := noteDropped ctx (p.countP fun v => ¬ isfinite v) } := by
  refine ⟨⟨fun ⟨out, hout⟩ => oneVector_of_decode hout, fun ⟨logits, hv⟩ => ⟨_, decode_of_oneVector hv score⟩⟩, fun logits hv => ?_⟩
  exact ⟨_, surest_best h _ _ score, decode_of_oneVector hv score⟩

end

theorem bounds_extended : Bounds Extended where
  ordered := Extended.ordered
  le_iff {x y} := by
    simp only [Extended.isnan_iff]
    change Extended.le x y = true ↔ x ≠ .nan ∧ y ≠ .nan ∧ ¬ Extended.lt y x = true
    cases x <;> cases y <;> simp [Extended.le, Extended.lt]
    rename_i x y
    exact le_iff_lt_or_eq.symm
  bottom_number := by
    rw [Extended.isnan_iff]
    exact fun h => by cases h
  bottom_infinite := rfl
  bottom_lt {y} hy := by
    cases y <;> first | rfl | cases hy

/-- Four classes without `softmax`, one of them NaN. -/
def fourScores : TensorView Extended := ⟨some [.fin (1 / 2), .nan, .fin (9 / 10), .fin (1 / 2)], 4, [4], "scores"⟩

theorem classes_reported_fourScores :
    ∃ cs, Surest (F := Extended) [.fin (1 / 2), .nan, .fin (9 / 10), .fin (1 / 2)] 2 (.fin (1 / 4)) cs ∧
      decode ⟨4, 2, false⟩ [fourScores] (.fin (1 / 4)) = .ok { dets := cs.map whole, kpts := [], note := noteDropped ctx 1 } :=
  (classes_reported bounds_extended ⟨4, 2, false⟩ [fourScores] (.fin (1 / 4))).2 _ ⟨fourScores, rfl, rfl, rfl⟩

end RetailVision.Vb.Classify
