/-
`nms` of the native core (`core-cpp/vb/src/post/nms.cpp`): greedy suppression
by descending score, with the keypoints of what is kept packed into a new
vector. `iou` is written there as it is in `tracker.cpp`.
-/
import RetailVision.Lib.Greedy
import RetailVision.Lib.Parallel
import RetailVision.Lib.StableSort
import RetailVision.VbTracker
import Mathlib.Algebra.Order.Ring.Nat

set_option linter.all false

namespace RetailVision.Vb.Nms

open RetailVision.Lib

variable {F : Type}

/-- `order`, with the detections that it indexes. `stable_sort` puts one before
another unless the other's score is greater. -/
def order [Num F] (dets : List (Detection F)) : List (Detection F × Nat) :=
  dets.zipIdx.insertionSort fun a b => ¬ a.1.score < b.1.score

/-- `kept_dets` and `kept_kpts` -/
structure Packed (F : Type) where
  dets : List (Detection F)
  kpts : List (Keypoint F)

/-- What the loop does with a detection that it keeps. The sum in the test is
that of two `uint32_t`, that of the iterators is not. -/
def Packed.push (kpts : List (Keypoint F)) (out : Packed F) (keep : Detection F) : Packed F :=
  let cnt := keep.kptCount
  if cnt > 0 ∧ (keep.kptOffset + cnt).toNat ≤ kpts.length then
    { dets := out.dets ++ [{ keep with kptOffset := UInt32.ofNat out.kpts.length }]
      kpts := out.kpts ++ (kpts.drop keep.kptOffset.toNat).take cnt.toNat }
  else { out with dets := out.dets ++ [{ keep with kptCount := 0, kptOffset := 0 }] }

def pack (kpts : List (Keypoint F)) (l : List (Detection F)) : Packed F := l.foldl (Packed.push kpts) ⟨[], []⟩

section

variable [Num F] (iouTh : F) (classAware : Bool)

/-- One turn of the inner loop. -/
def flag (keep : Detection F × Nat) (suppressed : List Bool) (other : Detection F × Nat) : List Bool :=
  if other.2 = keep.2 ∨ suppressed.getD other.2 false = true then suppressed
  else if classAware = true ∧ keep.1.classId ≠ other.1.classId then suppressed
  else if iou keep.1 other.1 > iouTh then suppressed.set other.2 true
  else suppressed

/-- One turn of the outer loop, over all of `order`. -/
def turn (order : List (Detection F × Nat)) (kpts : List (Keypoint F)) (s : List Bool × Packed F)
    (oi : Detection F × Nat) : List Bool × Packed F :=
  if s.1.getD oi.2 false = true then s
  else (order.foldl (flag iouTh classAware oi) s.1, s.2.push kpts oi.1)

def nms (dets : List (Detection F)) (kpts : List (Keypoint F)) : List (Detection F) × List (Keypoint F) :=
  let order := order dets
  let s := order.foldl (turn iouTh classAware order kpts) (List.replicate dets.length false, ⟨[], []⟩)
  (s.2.dets, s.2.kpts)

/-! ## The selection -/

/-- The two may suppress each other. -/
def Comparable (a b : Detection F) : Prop := classAware = true → a.classId = b.classId

instance (a b : Detection F) : Decidable (Comparable classAware a b) :=
  inferInstanceAs (Decidable (classAware = true → a.classId = b.classId))

def Clash (a b : Detection F × Nat) : Prop := Comparable classAware a.1 b.1 ∧ iou a.1 b.1 > iouTh

instance : DecidableRel (Clash iouTh classAware (F := F)) :=
  fun a b => inferInstanceAs (Decidable (Comparable classAware a.1 b.1 ∧ iou a.1 b.1 > iouTh))

/-- What greedy suppression selects: in the order of the scores, each detection
but those that overlap a selected one. -/
def greedy (dets : List (Detection F)) : List (Detection F × Nat) := Greedy.select (Clash iouTh classAware) (order dets)

end

/-! ## The flags

A flag is set exactly where a detection that was kept clashes, so the loop keeps
what the selection keeps. Flags of detections that were visited are set as well,
and are not read again. -/

section

variable [Num F] {iouTh : F} {classAware : Bool} {keep p : Detection F × Nat} {sup : List Bool} {l ps : List (Detection F × Nat)}
  {kpts : List (Keypoint F)}

theorem flag_length : (flag iouTh classAware keep sup p).length = sup.length := by
  unfold flag
  split_ifs <;> simp

theorem flag_eq (keep : Detection F × Nat) (sup : List Bool) (p : Detection F × Nat) :
    flag iouTh classAware keep sup p =
      if p.2 ≠ keep.2 ∧ Clash iouTh classAware keep p then sup.set p.2 true else sup := by
  by_cases hs : sup.getD p.2 false = true
  · have hset : sup.set p.2 true = sup := by
      have hget : sup[p.2]? = some true := by
        rw [List.getD_eq_getElem?_getD] at hs
        cases h : sup[p.2]? <;> simp_all
      obtain ⟨hlt, he⟩ := List.getElem?_eq_some_iff.mp hget
      rw [← he, List.set_getElem_self]
    simp [flag, hset]
  · simp only [flag, hs, Clash, Comparable]
    split_ifs <;> simp_all

theorem flag_getD {j : Nat} (hp : p.2 < sup.length) :
    (flag iouTh classAware keep sup p).getD j false = true ↔
      sup.getD j false = true ∨ p.2 = j ∧ j ≠ keep.2 ∧ Clash iouTh classAware keep p := by
  rw [flag_eq]
  by_cases hc : p.2 ≠ keep.2 ∧ Clash iouTh classAware keep p
  · rw [if_pos hc]
    by_cases hj : p.2 = j
    · subst hj
      simp [hp, hc]
    · simp [List.getElem?_set_ne hj, hj]
  · rw [if_neg hc]
    refine ⟨Or.inl, fun h => h.elim id ?_⟩
    rintro ⟨rfl, hj, hclash⟩
    exact absurd ⟨hj, hclash⟩ hc

theorem flags_getD {j : Nat} (hl : ∀ p ∈ l, p.2 < sup.length) :
    (l.foldl (flag iouTh classAware keep) sup).getD j false = true ↔
      sup.getD j false = true ∨ ∃ p ∈ l, p.2 = j ∧ j ≠ keep.2 ∧ Clash iouTh classAware keep p := by
  induction l generalizing sup with
  | nil => simp
  | cons p l ih =>
    have hp := hl p List.mem_cons_self
    have hrest : ∀ q ∈ l, q.2 < (flag iouTh classAware keep sup p).length := fun q hq => by
      rw [flag_length]
      exact hl q (List.mem_cons_of_mem _ hq)
    rw [List.foldl_cons, ih hrest, flag_getD hp]
    simp only [List.exists_mem_cons_iff, or_assoc]

theorem flags_length : (l.foldl (flag iouTh classAware keep) sup).length = sup.length := by
  induction l generalizing sup with
  | nil => rfl
  | cons p l ih => rw [List.foldl_cons, ih, flag_length]

/-- Detections with their indices, each index once and within the flags. -/
structure Indexed (n : Nat) (ps : List (Detection F × Nat)) : Prop where
  nodup : ps.Nodup
  within : ∀ p ∈ ps, p.2 < n
  inj : ∀ p ∈ ps, ∀ q ∈ ps, p.2 = q.2 → p = q

theorem turns_eq (iouTh : F) (classAware : Bool) (kpts : List (Keypoint F)) {n : Nat} (hps : Indexed n ps) (hl : List.Sublist l ps) :
    let s := l.foldl (turn iouTh classAware ps kpts) (List.replicate n false, ⟨[], []⟩)
    let kept := Greedy.select (Clash iouTh classAware) l
    s.1.length = n ∧
      (∀ j, s.1.getD j false = true ↔ ∃ k ∈ kept, ∃ p ∈ ps, p.2 = j ∧ j ≠ k.2 ∧ Clash iouTh classAware k p) ∧
      s.2 = (kept.map (·.1)).foldl (Packed.push kpts) ⟨[], []⟩ := by
  induction l using List.reverseRecOn with
  | nil =>
    refine ⟨by simp, fun j => ?_, rfl⟩
    by_cases hj : j < n <;> simp [hj]
  | append_singleton l a ih =>
    obtain ⟨hlen, hflags, hout⟩ := ih ((List.sublist_append_left l [a]).trans hl)
    have ha : a ∈ ps := hl.subset (by simp)
    have hnew : a ∉ l := fun hal => (List.nodup_append.mp (hl.nodup hps.nodup)).2.2 a hal a List.mem_cons_self rfl
    -- the flag of the next detection is that of a clash
    have hskip : ((l.foldl (turn iouTh classAware ps kpts) (List.replicate n false, ⟨[], []⟩)).1.getD a.2 false = true) ↔
        ∃ k ∈ Greedy.select (Clash iouTh classAware) l, Clash iouTh classAware k a := by
      rw [hflags]
      constructor
      · rintro ⟨k, hk, p, hp, hpa, -, hc⟩
        rw [← hps.inj p hp a ha hpa]
        exact ⟨k, hk, hc⟩
      · rintro ⟨k, hk, hc⟩
        have hkl := (Greedy.select_sublist l).subset hk
        refine ⟨k, hk, a, ha, rfl, fun he => hnew ?_, hc⟩
        rwa [hps.inj a ha k (hl.subset (List.mem_append_left _ hkl)) he]
    simp only [List.foldl_append, List.foldl_cons, List.foldl_nil, Greedy.select_concat]
    by_cases h : ∃ k ∈ Greedy.select (Clash iouTh classAware) l, Clash iouTh classAware k a
    · rw [Greedy.visit_of_clash h, turn, if_pos (hskip.mpr h)]
      exact ⟨hlen, hflags, hout⟩
    · rw [Greedy.visit_of_not h, turn, if_neg (mt hskip.mp h)]
      refine ⟨flags_length.trans hlen, fun j => ?_, by rw [hout]; simp⟩
      have hwithin : ∀ p ∈ ps, p.2 < (l.foldl (turn iouTh classAware ps kpts) (List.replicate n false, ⟨[], []⟩)).1.length :=
        fun p hp => (hps.within p hp).trans_eq hlen.symm
      rw [flags_getD hwithin, hflags]
      constructor
      · rintro (⟨k, hk, hc⟩ | hc)
        · exact ⟨k, List.mem_append_left _ hk, hc⟩
        · exact ⟨a, by simp, hc⟩
      · rintro ⟨k, hk, hc⟩
        rcases List.mem_append.mp hk with hk | hk
        · exact .inl ⟨k, hk, hc⟩
        · obtain rfl := List.mem_singleton.mp hk
          exact .inr hc

theorem order_indexed (dets : List (Detection F)) : Indexed dets.length (order dets) where
  nodup := by
    have hsnd : (dets.zipIdx.map Prod.snd).Nodup := by
      rw [List.zipIdx_map_snd]
      exact List.nodup_range'
    exact (List.perm_insertionSort _ _).nodup_iff.mpr hsnd.of_map
  within := fun p hp => by
    have := List.mem_zipIdx_iff_getElem?.mp ((List.mem_insertionSort _).mp hp)
    exact (List.getElem?_eq_some_iff.mp this).1
  inj := fun p hp q hq h => by
    have hp := List.mem_zipIdx_iff_getElem?.mp ((List.mem_insertionSort _).mp hp)
    have hq := List.mem_zipIdx_iff_getElem?.mp ((List.mem_insertionSort _).mp hq)
    rw [← h, hp] at hq
    exact Prod.ext (Option.some.inj hq) h

theorem nms_eq (dets : List (Detection F)) :
    nms iouTh classAware dets kpts =
      ((pack kpts ((greedy iouTh classAware dets).map (·.1))).dets,
        (pack kpts ((greedy iouTh classAware dets).map (·.1))).kpts) := by
  obtain ⟨-, -, hout⟩ :=
    turns_eq iouTh classAware kpts (order_indexed dets) (List.Sublist.refl _)
  simp only [nms, hout]
  rfl

end

/-! ## The keypoints -/

/-- The slice that a detection names. -/
def slice (kpts : List (Keypoint F)) (d : Detection F) : List (Keypoint F) :=
  (kpts.drop d.kptOffset.toNat).take d.kptCount.toNat

/-- The slice, if there is one, is within the vector. -/
def Valid (kpts : List (Keypoint F)) (d : Detection F) : Prop :=
  0 < d.kptCount → d.kptOffset.toNat + d.kptCount.toNat ≤ kpts.length

instance (kpts : List (Keypoint F)) (d : Detection F) : Decidable (Valid kpts d) :=
  inferInstanceAs (Decidable (0 < d.kptCount → d.kptOffset.toNat + d.kptCount.toNat ≤ kpts.length))

/-- How many keypoints the detections have. -/
def total (l : List (Detection F)) : Nat := (l.map fun d => d.kptCount.toNat).sum

/-- Where the slice of each detection begins, once they are packed, is a number
that the offset can hold. -/
def Fits (l : List (Detection F)) : Prop := ∀ pre d post, l = pre ++ d :: post → 0 < d.kptCount → total pre < 2 ^ 32

/-- A detection that is kept, as it goes in and as it comes out. -/
structure Carried (kpts kpts' : List (Keypoint F)) (d d' : Detection F) : Prop where
  same : d' = { d with kptOffset := d'.kptOffset }
  inside : d'.kptOffset.toNat + d'.kptCount.toNat ≤ kpts'.length
  own : slice kpts' d' = slice kpts d

variable {d d' : Detection F} {ds : List (Detection F)} {ks more : List (Keypoint F)}

theorem kptCount_toNat_pos : 0 < d.kptCount ↔ 0 < d.kptCount.toNat := by simp [UInt32.lt_iff_toNat_lt]

theorem slice_append (h : d.kptOffset.toNat + d.kptCount.toNat ≤ ks.length) : slice (ks ++ more) d = slice ks d := by
  unfold slice
  rw [List.drop_append_of_le_length (by omega), List.take_append_of_le_length (by rw [List.length_drop]; omega)]

theorem slice_length (h : Valid kpts d) : (slice kpts d).length = d.kptCount.toNat := by
  unfold slice
  by_cases hpos : 0 < d.kptCount
  · have := h hpos
    simp
    omega
  · have := mt kptCount_toNat_pos.mpr hpos
    simp
    omega

theorem push_of_pos {out : Packed F} (h : Valid kpts d) (hpos : 0 < d.kptCount) :
    out.push kpts d =
      ⟨out.dets ++ [{ d with kptOffset := UInt32.ofNat out.kpts.length }], out.kpts ++ slice kpts d⟩ := by
  have hsum : (d.kptOffset + d.kptCount).toNat ≤ kpts.length :=
    (UInt32.toNat_add _ _ ▸ Nat.mod_le _ _).trans (h hpos)
  unfold Packed.push
  exact if_pos ⟨hpos, hsum⟩

theorem push_of_none {out : Packed F} (hpos : ¬ 0 < d.kptCount) :
    out.push kpts d = { out with dets := out.dets ++ [{ d with kptCount := 0, kptOffset := 0 }] } := by
  simp [Packed.push, hpos]

theorem pack_concat : pack kpts (ds ++ [d]) = (pack kpts ds).push kpts d := by simp [pack, List.foldl_append]

theorem push_length {out : Packed F} (h : Valid kpts d) :
    (out.push kpts d).kpts.length = out.kpts.length + d.kptCount.toNat := by
  by_cases hpos : 0 < d.kptCount
  · simp [push_of_pos h hpos, slice_length h]
  · have := mt kptCount_toNat_pos.mpr hpos
    simp only [push_of_none hpos]
    omega

theorem pack_length (h : ∀ d ∈ ds, Valid kpts d) : (pack kpts ds).kpts.length = total ds := by
  induction ds using List.reverseRecOn with
  | nil => rfl
  | append_singleton ds d ih =>
    have hds : ∀ d ∈ ds, Valid kpts d := fun e he => h e (List.mem_append_left _ he)
    rw [pack_concat, push_length (h d (by simp)), ih hds]
    simp [total]

theorem Carried.mono (h : Carried kpts ks d d') : Carried kpts (ks ++ more) d d' where
  same := h.same
  inside := by
    have := h.inside
    rw [List.length_append]
    omega
  own := (slice_append h.inside).trans h.own

theorem Carried.valid (h : Carried kpts ks d d') : Valid ks d' := fun _ => h.inside

/-- One turn: the detection goes out with its keypoints, and the same turn over
what came out puts the same out. -/
theorem push_carries {out : Packed F} (h : Valid kpts d) (hfit : 0 < d.kptCount → out.kpts.length < 2 ^ 32) :
    ∃ d' more, out.push kpts d = ⟨out.dets ++ [d'], out.kpts ++ more⟩ ∧ Carried kpts (out.kpts ++ more) d d' ∧
      out.push (out.kpts ++ more) d' = ⟨out.dets ++ [d'], out.kpts ++ more⟩ := by
  by_cases hpos : 0 < d.kptCount
  · have hoff : (UInt32.ofNat out.kpts.length).toNat = out.kpts.length := UInt32.toNat_ofNat_of_lt' (hfit hpos)
    have hlen := slice_length h
    let d' : Detection F := { d with kptOffset := UInt32.ofNat out.kpts.length }
    have hown : slice (out.kpts ++ slice kpts d) d' = slice kpts d := by
      change ((out.kpts ++ slice kpts d).drop (UInt32.ofNat out.kpts.length).toNat).take d.kptCount.toNat = slice kpts d
      rw [hoff, List.drop_left, ← hlen, List.take_length]
    have hvalid : Valid (out.kpts ++ slice kpts d) d' := fun _ => by
      simp only [d', hoff, List.length_append, hlen, le_refl]
    refine ⟨d', slice kpts d, push_of_pos h hpos, ⟨rfl, hvalid hpos, hown⟩, ?_⟩
    rw [push_of_pos hvalid hpos, hown]
  · have hzero : d.kptCount = 0 := UInt32.toNat_inj.mp (Nat.eq_zero_of_not_pos (mt kptCount_toNat_pos.mpr hpos))
    let d' : Detection F := { d with kptCount := 0, kptOffset := 0 }
    have hnone : ¬ 0 < d'.kptCount := UInt32.lt_irrefl 0
    refine ⟨d', [], by rw [push_of_none hpos, List.append_nil], ⟨?_, ?_, ?_⟩, ?_⟩
    · simp [d', ← hzero]
    · simp [d']
    · simp [slice, d', hzero]
    · rw [push_of_none hnone, List.append_nil]

theorem push_mono {out : Packed F} (h : d.kptOffset.toNat + d.kptCount.toNat ≤ ks.length) :
    out.push (ks ++ more) d = out.push ks d := by
  by_cases hpos : 0 < d.kptCount
  · have hlong : d.kptOffset.toNat + d.kptCount.toNat ≤ (ks ++ more).length := by
      rw [List.length_append]
      omega
    rw [push_of_pos (fun _ => h) hpos, push_of_pos (fun _ => hlong) hpos, slice_append h]
  · rw [push_of_none hpos, push_of_none hpos]

theorem pack_mono (h : ∀ d ∈ ds, d.kptOffset.toNat + d.kptCount.toNat ≤ ks.length) :
    pack (ks ++ more) ds = pack ks ds := by
  induction ds using List.reverseRecOn with
  | nil => rfl
  | append_singleton ds d ih =>
    have hds := ih fun e he => h e (List.mem_append_left _ he)
    rw [pack_concat, pack_concat, hds, push_mono (h d (by simp))]

theorem Fits.init (h : Fits (ds ++ [d])) : Fits ds := fun pre e post he => h pre e (post ++ [d]) (by simp [he])

theorem Fits.last (h : Fits (ds ++ [d])) : 0 < d.kptCount → total ds < 2 ^ 32 := h ds d [] rfl

/-- The detections go out with their keypoints, and packed again they are as
they are. -/
theorem pack_spec (hv : ∀ d ∈ ds, Valid kpts d) (hf : Fits ds) :
    List.Forall₂ (Carried kpts (pack kpts ds).kpts) ds (pack kpts ds).dets ∧
      pack (pack kpts ds).kpts (pack kpts ds).dets = pack kpts ds := by
  induction ds using List.reverseRecOn with
  | nil => exact ⟨.nil, rfl⟩
  | append_singleton ds d ih =>
    have hds : ∀ e ∈ ds, Valid kpts e := fun e he => hv e (List.mem_append_left _ he)
    obtain ⟨hcarried, hagain⟩ := ih hds hf.init
    have hfit : 0 < d.kptCount → (pack kpts ds).kpts.length < 2 ^ 32 := fun hpos => by
      rw [pack_length hds]
      exact hf.last hpos
    obtain ⟨d', more, hpush, hd', hturn⟩ := push_carries (hv d (by simp)) hfit
    have hinside : ∀ e ∈ (pack kpts ds).dets, e.kptOffset.toNat + e.kptCount.toNat ≤ (pack kpts ds).kpts.length := by
      intro e he
      obtain ⟨e₀, -, hc⟩ := forall₂_right hcarried e he
      exact hc.inside
    simp only [pack_concat, hpush]
    refine ⟨List.rel_append (hcarried.imp fun _ _ hc => hc.mono) (.cons hd' .nil), ?_⟩
    rw [pack_mono hinside, hagain, hturn]

/-! ## Exact numbers -/

section

variable {iouTh : ℚ} {classAware : Bool} {dets : List (Detection ℚ)} {kpts : List (Keypoint ℚ)} {a b a' b' : Detection ℚ}

theorem stdMax_comm (x y : ℚ) : stdMax x y = stdMax y x := by
  unfold stdMax
  rcases lt_trichotomy x y with h | rfl | h
  · rw [if_pos h, if_neg h.not_gt]
  · rfl
  · rw [if_pos h, if_neg h.not_gt]

theorem stdMin_comm (x y : ℚ) : stdMin x y = stdMin y x := by
  unfold stdMin
  rcases lt_trichotomy x y with h | rfl | h
  · rw [if_pos h, if_neg h.not_gt]
  · rfl
  · rw [if_pos h, if_neg h.not_gt]

theorem iou_comm (a b : Detection ℚ) : iou a b = iou b a := by
  simp only [iou, stdMax_comm (a.cx - _), stdMax_comm (a.cy - _), stdMin_comm (a.cx + _), stdMin_comm (a.cy + _),
    add_comm (a.w * a.h)]

/-- What is to be left of `dets` and `kpts`: the selected detections, each with
its own keypoints. -/
structure Suppressed (iouTh : ℚ) (classAware : Bool) (dets : List (Detection ℚ)) (kpts : List (Keypoint ℚ))
    (out : List (Detection ℚ) × List (Keypoint ℚ)) : Prop where
  selected : List.Forall₂ (Carried kpts out.2) ((greedy iouTh classAware dets).map (·.1)) out.1
  chosen : ∀ p ∈ greedy iouTh classAware dets, dets[p.2]? = some p.1
  descending : out.1.Pairwise fun a b => b.score ≤ a.score
  stable : (greedy iouTh classAware dets).Pairwise fun p q => p.1.score = q.1.score → p.2 < q.2
  apart : out.1.Pairwise fun a b => Comparable classAware a b → iou a b ≤ iouTh ∧ iou b a ≤ iouTh
  dropped : ∀ p ∈ dets.zipIdx, p ∉ greedy iouTh classAware dets →
    ∃ k ∈ greedy iouTh classAware dets,
      Comparable classAware k.1 p.1 ∧ p.1.score ≤ k.1.score ∧ iou k.1 p.1 > iouTh
  again : nms iouTh classAware out.1 out.2 = out

theorem order_pairwise (dets : List (Detection ℚ)) :
    (order dets).Pairwise fun p q => q.1.score < p.1.score ∨ p.1.score = q.1.score ∧ p.2 < q.2 := by
  have h := pairwise_insertionSort_zipIdx (fun d : Detection ℚ => d.score) dets
  simpa only [order, not_lt] using h

theorem pairwise_zipIdx {R : Detection ℚ → Detection ℚ → Prop} (h : dets.Pairwise R) :
    dets.zipIdx.Pairwise fun p q => R p.1 q.1 := by
  have hfst : (dets.zipIdx.map (·.1)).Pairwise R := by rwa [List.zipIdx_map_fst]
  exact List.pairwise_map.mp hfst

theorem order_of_descending (h : dets.Pairwise fun a b => b.score ≤ a.score) : order dets = dets.zipIdx :=
  List.Pairwise.insertionSort_eq (pairwise_zipIdx (h.imp fun hab => not_lt.mpr hab))

theorem greedy_of_apart (h : dets.Pairwise fun a b => b.score ≤ a.score)
    (hc : dets.Pairwise fun a b => Comparable classAware a b → iou a b ≤ iouTh) :
    (greedy iouTh classAware dets).map (·.1) = dets := by
  have hzip : dets.zipIdx.Pairwise fun p q => ¬ Clash iouTh classAware p q :=
    (pairwise_zipIdx hc).imp fun hab hclash => absurd hclash.2 (not_lt.mpr (hab hclash.1))
  rw [greedy, order_of_descending h, Greedy.select_of_pairwise hzip, List.zipIdx_map_fst]

theorem Carried.iou_eq {ks : List (Keypoint ℚ)} (h : Carried kpts ks a a') (h' : Carried kpts ks b b') :
    iou a' b' = iou a b := by
  rw [h.same, h'.same]
  rfl

theorem Carried.comparable {ks : List (Keypoint ℚ)} (h : Carried kpts ks a a') (h' : Carried kpts ks b b') :
    Comparable classAware a' b' ↔ Comparable classAware a b := by
  rw [h.same, h'.same]
  rfl

theorem Carried.score_eq {ks : List (Keypoint ℚ)} (h : Carried kpts ks a a') : a'.score = a.score := by rw [h.same]

theorem mem_of_greedy {p : Detection ℚ × Nat} (hp : p ∈ greedy iouTh classAware dets) : p ∈ dets.zipIdx :=
  (List.mem_insertionSort _).mp ((Greedy.select_sublist _).subset hp)

theorem fits_of_total {l : List (Detection F)} (h : total l < 2 ^ 32) : Fits l := by
  rintro pre d post rfl -
  have : total (pre ++ d :: post) = total pre + (d.kptCount.toNat + total post) := by simp [total]
  omega

/-- A box around the centre. -/
def centred (classId : Int32) (score : ℚ) (kptOffset kptCount : UInt32) : Detection ℚ :=
  ⟨1 / 2, 1 / 2, 1 / 4, 1 / 4, score, classId, 0, kptOffset, kptCount⟩

/-- Three detections, each of a class of its own. The keypoints of the first two
are as many as the offsets are: the third one goes out with the first keypoint
of the first, not with its own. -/
def crowd : List (Detection ℚ) := [centred 0 3 0 (-1), centred 1 2 0 1, centred 2 1 1 1]

def crowdKpts (n : Nat) : List (Keypoint ℚ) := ⟨0, 0, 0⟩ :: ⟨1, 0, 0⟩ :: List.replicate n ⟨0, 0, 0⟩

theorem crowd_valid {n : Nat} (hn : n + 3 = 2 ^ 32) : ∀ d ∈ crowd, Valid (crowdKpts n) d := by
  have hlen : (crowdKpts n).length = n + 2 := by simp [crowdKpts]
  have hmax : (-1 : UInt32).toNat = 2 ^ 32 - 1 := rfl
  simp only [crowd, List.mem_cons, List.not_mem_nil, or_false]
  rintro d (rfl | rfl | rfl) -
  · simp [centred, hlen, hmax]
    omega
  · simp [centred, hlen]
  · simp [centred, hlen]

theorem crowd_slice {n : Nat} (hn : n + 3 = 2 ^ 32) : slice (crowdKpts n) (centred 0 3 0 (-1)) = crowdKpts n := by
  have hmax : (-1 : UInt32).toNat = 2 ^ 32 - 1 := rfl
  have hlen : (crowdKpts n).length = n + 2 := by simp [crowdKpts]
  simp only [slice, centred, UInt32.toNat_zero, List.drop_zero, hmax]
  exact List.take_of_length_le (by omega)

theorem crowd_greedy : (greedy 0 true crowd).map (·.1) = crowd :=
  greedy_of_apart (by decide +kernel) (by decide +kernel)

end

end RetailVision.Vb.Nms
