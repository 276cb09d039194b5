/-
The keys of a history in the order of their last use (`recent`), and a cache of
the keys last used: it holds the end of that list (`Holds`), moves a key to its
end when it is used, and drops its first when it has one too many. A key that
it has lost was followed by as many others as it has room for
(`Holds.lost`).
-/
import Mathlib.Data.List.Dedup
import Mathlib.Data.List.Induction

set_option linter.all false

namespace RetailVision.Lib

variable {κ : Type*} [DecidableEq κ]

/-- A key is used: it goes to the end. -/
def touch (l : List κ) (k : κ) : List κ := l.filter (· ≠ k) ++ [k]

/-- The keys of a history, the one used last at the end. -/
def recent (h : List κ) : List κ := h.foldl touch []

variable {h keys : List κ} {k x : κ} {limit : Nat}

theorem filter_ne_eq_self (hk : k ∉ keys) : keys.filter (· ≠ k) = keys := by
  refine List.filter_eq_self.mpr fun x hx => decide_eq_true ?_
  rintro rfl
  exact hk hx

@[simp] theorem recent_nil : recent ([] : List κ) = [] := rfl

@[simp] theorem recent_snoc : recent (h ++ [k]) = touch (recent h) k := by simp [recent]

theorem mem_touch : x ∈ touch keys k ↔ x ∈ keys ∨ x = k := by
  by_cases hx : x = k
  · simp [touch, hx]
  · simp [touch, hx]

theorem nodup_touch (hn : keys.Nodup) : (touch keys k).Nodup :=
  List.nodup_append.mpr ⟨hn.filter _, List.nodup_singleton k, fun x hx y hy => by
    rw [List.mem_singleton.mp hy]
    simpa using (List.mem_filter.mp hx).2⟩

theorem mem_recent : x ∈ recent h ↔ x ∈ h := by
  induction h using List.reverseRecOn with
  | nil => simp
  | append_singleton h k ih => simp [mem_touch, ih]

theorem nodup_recent : (recent h).Nodup := by
  induction h using List.reverseRecOn with
  | nil => simp
  | append_singleton h k ih =>
    rw [recent_snoc]
    exact nodup_touch ih

/-- What was used after the last use of a key stands behind it. -/
theorem recent_split {older newer : List κ} (hk : k ∉ newer) :
    ∃ p q, recent (older ++ k :: newer) = p ++ k :: q ∧ ∀ x, x ∈ q ↔ x ∈ newer := by
  induction newer using List.reverseRecOn with
  | nil => exact ⟨(recent older).filter (· ≠ k), [], by rw [recent_snoc]; rfl, fun x => Iff.rfl⟩
  | append_singleton newer y ih =>
    rw [List.mem_append, List.mem_singleton, not_or] at hk
    obtain ⟨p, q, he, hq⟩ := ih hk.1
    refine ⟨p.filter (· ≠ y), touch q y, ?_, fun x => ?_⟩
    · have hcons : older ++ k :: (newer ++ [y]) = older ++ k :: newer ++ [y] := by simp
      rw [hcons, recent_snoc, he, touch, touch, List.filter_append, List.filter_cons_of_pos (by simpa using hk.2)]
      simp
    · simp [mem_touch, hq]

/-- A cache of at most `limit` keys holds the ones used last. -/
structure Holds (limit : Nat) (h keys : List κ) : Prop where
  bounded : keys.length ≤ limit
  suffix : ∃ older, recent h = older ++ keys ∧ (older = [] ∨ keys.length = limit)

namespace Holds

theorem empty : Holds limit ([] : List κ) [] := ⟨Nat.zero_le _, [], rfl, .inl rfl⟩

theorem nodup (hh : Holds limit h keys) : keys.Nodup := by
  obtain ⟨older, he, _⟩ := hh.suffix
  exact (he ▸ @nodup_recent κ _ h).sublist (List.sublist_append_right _ _)

/-- A key that it holds is used. -/
theorem hit (hh : Holds limit h keys) (hk : k ∈ keys) : Holds limit (h ++ [k]) (touch keys k) := by
  obtain ⟨older, he, hfull⟩ := hh.suffix
  have hnodup : (older ++ keys).Nodup := he ▸ nodup_recent
  have holder : k ∉ older := fun ho => (List.nodup_append.mp hnodup).2.2 k ho k hk rfl
  have hlength : (touch keys k).length = keys.length := by
    have hcount := List.length_erase_add_one hk
    rw [hh.nodup.erase_eq_filter] at hcount
    rw [← hcount, touch, List.length_append, List.length_singleton]
    congr 2
    exact List.filter_congr fun x _ => by by_cases hx : x = k <;> simp [hx]
  refine ⟨hlength ▸ hh.bounded, older, ?_, hlength ▸ hfull⟩
  rw [recent_snoc, he, touch, touch, List.filter_append, List.append_assoc]
  congr 1
  exact filter_ne_eq_self holder

/-- A key that it does not hold is used: it is added, and the first goes if
there is one too many. -/
theorem miss (hh : Holds limit h keys) (hk : k ∉ keys) :
    Holds limit (h ++ [k]) (if limit < (keys ++ [k]).length then (keys ++ [k]).tail else keys ++ [k]) := by
  obtain ⟨older, he, hfull⟩ := hh.suffix
  have hb := hh.bounded
  have hrecent : recent (h ++ [k]) = older.filter (· ≠ k) ++ (keys ++ [k]) := by
    rw [recent_snoc, he, touch, List.filter_append, List.append_assoc]
    congr 2
    exact filter_ne_eq_self hk
  split
  next hlt =>
    rw [List.length_append, List.length_singleton] at hlt
    obtain ⟨x, rest, hx⟩ : ∃ x rest, keys ++ [k] = x :: rest := List.exists_cons_of_ne_nil (by simp)
    have hlength : rest.length = keys.length := by
      have := congrArg List.length hx
      simpa using this.symm
    rw [hx, List.tail_cons]
    exact ⟨by omega, older.filter (· ≠ k) ++ [x], by rw [hrecent, hx]; simp, .inr (by omega)⟩
  next hle =>
    rw [List.length_append, List.length_singleton] at hle
    refine ⟨by simp; omega, older.filter (· ≠ k), hrecent, .inl ?_⟩
    obtain rfl | hfull := hfull
    · rfl
    · omega

/-- **A key that it does not hold any more was followed by `limit` others.** -/
theorem lost {older newer : List κ} (hh : Holds limit (older ++ k :: newer) keys) (hk : k ∉ keys) (hnewer : k ∉ newer) :
    limit ≤ newer.dedup.length := by
  obtain ⟨first, he, hfull⟩ := hh.suffix
  obtain ⟨p, q, hsplit, hq⟩ := @recent_split κ _ k older newer hnewer
  have hmem : k ∈ first := by
    have hrecent : k ∈ first ++ keys := by
      rw [← he, mem_recent]
      simp
    exact (List.mem_append.mp hrecent).resolve_right hk
  have hlimit : keys.length = limit := hfull.resolve_left (List.ne_nil_of_mem hmem)
  -- The key stands before what the cache holds, which is thus an end of `q`.
  obtain ⟨first₁, first₂, rfl⟩ := List.append_of_mem hmem
  have hnodup : (p ++ k :: q).Nodup := hsplit ▸ nodup_recent
  have hends : p ++ k :: q = first₁ ++ k :: (first₂ ++ keys) := by
    rw [← hsplit, he]
    simp
  have hp : k ∉ p := fun hkp => (List.nodup_append.mp hnodup).2.2 k hkp k List.mem_cons_self rfl
  have hkq : k ∉ q := fun hkq => hnewer ((hq k).mp hkq)
  have hsame : q = first₂ ++ keys := ((List.append_cons_inj_of_notMem hp hkq).mp hends).2.2
  have hperm : q.Perm newer.dedup := by
    refine (List.perm_ext_iff_of_nodup ?_ (List.nodup_dedup _)).mpr fun x => by rw [hq, List.mem_dedup]
    exact hnodup.sublist ((List.sublist_cons_self k q).trans (List.sublist_append_right _ _))
  rw [← hperm.length_eq, hsame, List.length_append]
  omega

end Holds

end RetailVision.Lib
