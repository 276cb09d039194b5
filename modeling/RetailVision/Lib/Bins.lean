/-
Items kept in bins: `bins` lists the bins in use, each once, and `f b` is
what bin `b` holds, so `bins.flatMap f` is everything held. What a
change of one bin (its items, or its replacement by another bin) does to
the whole.
-/
import Mathlib.Data.List.Perm.Basic
import Mathlib.Data.List.Nodup
import Mathlib.Data.List.Flatten
import Mathlib.Data.List.Pairwise
import Mathlib.Logic.Function.Basic

set_option linter.all false

namespace RetailVision.Lib

variable {β ι : Type*} [DecidableEq ι] {bins : List ι} {f : ι → List β} {b c : ι} {xs : List β}

/-- A bin not in use may change: nothing held does. -/
theorem flatMap_update_of_notMem (h : b ∉ bins) :
    bins.flatMap (Function.update f b xs) = bins.flatMap f := by
  apply List.flatMap_congr
  intro d hd
  rw [Function.update_of_ne]
  rintro rfl
  exact h hd

/-- One bin in use, split off from the others. -/
theorem flatMap_update_perm (hn : bins.Nodup) (h : b ∈ bins) :
    (bins.flatMap (Function.update f b xs)).Perm (xs ++ (bins.erase b).flatMap f) := by
  have hp := List.perm_cons_erase h
  have hb : b ∉ bins.erase b := hn.not_mem_erase
  refine (hp.flatMap_right _).trans ?_
  rw [List.flatMap_cons, Function.update_self, flatMap_update_of_notMem hb]

/-- The whole is the bin and the rest. -/
theorem flatMap_perm (hn : bins.Nodup) (h : b ∈ bins) :
    (bins.flatMap f).Perm (f b ++ (bins.erase b).flatMap f) := by
  have hp : (bins.flatMap (Function.update f b (f b))).Perm (f b ++ (bins.erase b).flatMap f) :=
    flatMap_update_perm hn h
  rwa [Function.update_eq_self] at hp

/-- Adding an item to a bin in use adds it to the whole. -/
theorem flatMap_update_append (hn : bins.Nodup) (h : b ∈ bins) (x : β) :
    (bins.flatMap (Function.update f b (f b ++ [x]))).Perm (x :: bins.flatMap f) := by
  refine (flatMap_update_perm hn h).trans ?_
  have hp := (flatMap_perm (f := f) hn h).cons x
  refine List.Perm.trans ?_ hp.symm
  rw [List.append_assoc]
  exact (List.perm_append_comm_assoc _ _ _).trans (by simp)

/-- Thinning out one bin thins out the whole. -/
theorem flatMap_update_sublist (h : xs.Sublist (f b)) :
    (bins.flatMap (Function.update f b xs)).Sublist (bins.flatMap f) := by
  induction bins with
  | nil => exact List.Sublist.refl _
  | cons d bins ih =>
    simp only [List.flatMap_cons]
    refine List.Sublist.append ?_ ih
    by_cases hd : d = b
    · subst hd; simpa using h
    · rw [Function.update_of_ne hd]

/-- An empty bin may go out of use. -/
theorem flatMap_erase_of_nil (h : f b = []) : (bins.erase b).flatMap f = bins.flatMap f := by
  induction bins with
  | nil => rfl
  | cons d bins ih =>
    by_cases hd : d = b
    · subst hd; simp [h]
    · rw [List.erase_cons_tail (by simpa using hd), List.flatMap_cons, List.flatMap_cons, ih]

/-- A fresh bin holding the same takes another's place unnoticed. -/
theorem flatMap_replace (hc : c ∉ bins) :
    (bins.map fun d => if d = b then c else d).flatMap (Function.update f c (f b)) =
      bins.flatMap f := by
  induction bins with
  | nil => rfl
  | cons d bins ih =>
    simp only [List.mem_cons, not_or] at hc
    simp only [List.map_cons, List.flatMap_cons, ih hc.2]
    by_cases hd : d = b
    · subst hd; simp
    · simp only [hd, if_false]
      rw [Function.update_of_ne (Ne.symm hc.1)]

/-- Bins are in use once each, also after such a replacement. -/
theorem nodup_replace (hn : bins.Nodup) (hc : c ∉ bins) :
    (bins.map fun d => if d = b then c else d).Nodup := by
  refine hn.map_on ?_
  intro x hx y hy hxy
  have hxc : x ≠ c := fun h => hc (h ▸ hx)
  have hyc : y ≠ c := fun h => hc (h ▸ hy)
  split at hxy <;> split at hxy <;> simp_all

/-- Where nothing is held twice, an item is in one bin. -/
theorem eq_of_mem_flatMap {x : β} (hn : (bins.flatMap f).Nodup) (hb : b ∈ bins) (hc : c ∈ bins) (hxb : x ∈ f b)
    (hxc : x ∈ f c) : b = c := by
  by_contra hne
  have : Std.Symm (Function.onFun List.Disjoint f) := ⟨fun _ _ hd _ hx hy => hd hy hx⟩
  exact (List.nodup_flatMap.mp hn).2.forall hb hc hne hxb hxc

end RetailVision.Lib
