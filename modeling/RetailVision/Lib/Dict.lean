/-
Dictionaries: entries in the order they were added, one for each key.
-/
import Mathlib.Data.List.Nodup

set_option linter.all false

namespace RetailVision.Lib

structure Dict (κ α : Type) where
  entries : List (κ × α)
  nodup : (entries.map (·.1)).Nodup

namespace Dict

variable {κ α : Type} [DecidableEq κ]

def empty : Dict κ α := ⟨[], List.nodup_nil⟩

def get? (d : Dict κ α) (k : κ) : Option α := (d.entries.find? fun e => e.1 = k).map (·.2)

def erase (d : Dict κ α) (k : κ) : Dict κ α where
  entries := d.entries.filter fun e => e.1 ≠ k
  nodup := d.nodup.sublist (List.filter_sublist.map _)

/-- `d[k] = v`: a key that is there keeps its place. -/
def set (d : Dict κ α) (k : κ) (v : α) : Dict κ α where
  entries := if k ∈ d.entries.map (·.1) then d.entries.map fun e => if e.1 = k then (k, v) else e else d.entries ++ [(k, v)]
  nodup := by
    split
    · have hkeys : (d.entries.map fun e => if e.1 = k then (k, v) else e).map (·.1) = d.entries.map (·.1) := by
        rw [List.map_map]
        refine List.map_congr_left fun e _ => ?_
        by_cases he : e.1 = k <;> simp [he]
      rw [hkeys]
      exact d.nodup
    · next hk =>
      rw [List.map_append, List.nodup_append]
      refine ⟨d.nodup, List.nodup_singleton k, fun k₁ h₁ k₂ h₂ he => ?_⟩
      have hk₁ : k₁ = k := he.trans (List.mem_singleton.mp h₂)
      exact hk (hk₁ ▸ h₁)

def keys (d : Dict κ α) : List κ := d.entries.map (·.1)

variable {d : Dict κ α} {k k' : κ} {v v' : α}

theorem mem_keys_set : k' ∈ (d.set k v).keys ↔ k' = k ∨ k' ∈ d.keys := by
  unfold set keys
  split
  · next hk =>
    simp only [List.map_map, List.mem_map, Function.comp_apply]
    constructor
    · rintro ⟨e, he, rfl⟩
      split
      · exact .inl rfl
      · exact .inr ⟨e, he, rfl⟩
    · rintro (rfl | ⟨e, he, rfl⟩)
      · obtain ⟨e, he, hek⟩ := List.mem_map.mp hk
        exact ⟨e, he, by simp [hek]⟩
      · refine ⟨e, he, ?_⟩
        split
        · next hek => exact hek.symm
        · rfl
  · simp [or_comm]

theorem mem_keys_erase : k' ∈ (d.erase k).keys ↔ k' ∈ d.keys ∧ k' ≠ k := by
  simp only [keys, erase, List.mem_map, List.mem_filter, decide_eq_true_eq]
  constructor
  · rintro ⟨e, ⟨he, hne⟩, rfl⟩
    exact ⟨⟨e, he, rfl⟩, hne⟩
  · rintro ⟨⟨e, he, rfl⟩, hne⟩
    exact ⟨e, ⟨he, hne⟩, rfl⟩

omit [DecidableEq κ] in
theorem keys_eq_nil : d.keys = [] ↔ d.entries = [] := List.map_eq_nil_iff

theorem get?_eq_none : d.get? k = none ↔ ∀ v, (k, v) ∉ d.entries := by
  rw [get?, Option.map_eq_none_iff, List.find?_eq_none]
  constructor
  · intro h v hm
    exact h (k, v) hm (decide_eq_true rfl)
  · intro h e hm he
    have hk : e.1 = k := of_decide_eq_true he
    exact h e.2 (hk ▸ hm)

theorem get?_eq_none_iff_keys : d.get? k = none ↔ k ∉ d.keys := by
  rw [get?_eq_none]
  simp [keys]

theorem get?_eq_some (h : d.get? k = some v) : (k, v) ∈ d.entries := by
  obtain ⟨e, he, rfl⟩ := Option.map_eq_some_iff.mp h
  have hk : e.1 = k := of_decide_eq_true (List.find?_eq_some_iff_append.mp he).1
  exact hk ▸ List.mem_of_find?_eq_some he

theorem mem_erase : (k, v) ∈ (d.erase k').entries ↔ (k, v) ∈ d.entries ∧ k ≠ k' := by
  simp [erase]

theorem not_mem_erase : (k, v) ∉ (d.erase k).entries := fun h => (mem_erase.mp h).2 rfl

/-- A key that is not there is put in. -/
def add (d : Dict κ α) (k : κ) (v : α) (h : d.get? k = none) : Dict κ α where
  entries := d.entries ++ [(k, v)]
  nodup := by
    rw [List.map_append, List.nodup_append]
    refine ⟨d.nodup, List.nodup_singleton k, fun k₁ h₁ k₂ h₂ he => ?_⟩
    obtain ⟨e, hm, rfl⟩ := List.mem_map.mp h₁
    have hk : k₂ = k := List.mem_singleton.mp h₂
    exact get?_eq_none.mp h e.2 (hk ▸ he ▸ hm)

theorem mem_add {h : d.get? k' = none} : (k, v) ∈ (d.add k' v' h).entries ↔ (k, v) ∈ d.entries ∨ k = k' ∧ v = v' := by
  simp [add]

end Dict

end RetailVision.Lib
