/-
Entries of a list picked by their positions, against an enumeration of these
positions: the k-th one picked is the one at the k-th position. A counter that
picks at the multiples of a step has such an enumeration, also where the counter
comes round to 0 (`enumerates_multiple`).
-/
import Mathlib.Data.List.Induction
import Mathlib.Order.Lattice
import Mathlib.Order.Monotone.Basic

set_option linter.all false

namespace RetailVision.Lib

variable {α : Type*} {sel sel' : Nat → Bool} {p q : Nat → Nat} {l : List α} {m n i j k : Nat}

/-- `p` goes through the positions that are picked, in order. -/
structure Enumerates (sel : Nat → Bool) (p : Nat → Nat) : Prop where
  mono : StrictMono p
  mem : ∀ i, sel i = true ↔ ∃ k, p k = i

/-- The entries at the picked positions, the first entry being at `i`. -/
def pick (sel : Nat → Bool) : Nat → List α → List α
  | _, [] => []
  | i, x :: xs => if sel i then x :: pick sel (i + 1) xs else pick sel (i + 1) xs

theorem pick_append_singleton {x : α} : pick sel i (l ++ [x]) = pick sel i l ++ if sel (i + l.length) then [x] else [] := by
  induction l generalizing i with
  | nil =>
    simp [pick]
  | cons y l ih =>
    have hlen : i + (y :: l).length = i + 1 + l.length := by
      simp
      omega
    rw [List.cons_append, pick, pick, ih, hlen]
    split <;> rfl

/-- The `k`-th one picked is the one at the `k`-th position. -/
theorem Enumerates.getElem?_pick (hp : Enumerates sel p) (l : List α) (k : Nat) : (pick sel 0 l)[k]? = l[p k]? := by
  induction l using List.reverseRecOn generalizing k with
  | nil => rfl
  | append_singleton l x ih =>
    have hlen : ∀ k, k < (pick sel 0 l).length ↔ p k < l.length := fun k => by
      rw [← Nat.not_le, ← Nat.not_le, ← List.getElem?_eq_none_iff, ← List.getElem?_eq_none_iff, ih]
    rw [pick_append_singleton, Nat.zero_add]
    by_cases hx : sel l.length = true
    · obtain ⟨j, hj⟩ := (hp.mem _).mp hx
      -- so `j` are picked before
      have hcount : (pick sel 0 l).length = j := by
        have hbelow : ∀ k, k < (pick sel 0 l).length ↔ k < j := fun k => by rw [hlen, ← hj, hp.mono.lt_iff_lt]
        have hleft := hbelow (pick sel 0 l).length
        have hright := hbelow j
        omega
      rw [if_pos hx]
      rcases Nat.lt_trichotomy k j with hk | hk | hk
      · have hpk : p k < l.length := hj ▸ hp.mono hk
        rw [List.getElem?_append_left (hcount ▸ hk), List.getElem?_append_left hpk, ih]
      · rw [hk, hj, ← hcount, List.getElem?_concat_length, List.getElem?_concat_length]
      · have hpk : l.length < p k := hj ▸ hp.mono hk
        rw [List.getElem?_eq_none (by simp; omega), List.getElem?_eq_none (by simp; omega)]
    · have hne : p k ≠ l.length := fun h => hx ((hp.mem _).mpr ⟨k, h⟩)
      rw [if_neg hx, List.append_nil, ih]
      rcases Nat.lt_or_gt_of_ne hne with hk | hk
      · rw [List.getElem?_append_left hk]
      · rw [List.getElem?_eq_none (by omega), List.getElem?_eq_none (by simp; omega)]

/-- Two rules of picking give the same where their positions hold the same, one by one. -/
theorem pick_eq_iff {l' : List α} (hp : Enumerates sel p) (hq : Enumerates sel' q) :
    pick sel 0 l = pick sel' 0 l' ↔ ∀ k, l[p k]? = l'[q k]? := by
  rw [List.ext_getElem?_iff]
  simp only [hp.getElem?_pick, hq.getElem?_pick]

/-! ## Multiples -/

theorem enumerates_mul (hn : 0 < n) : Enumerates (fun i => i % n == 0) fun k => k * n where
  mono := fun j k hjk => Nat.mul_lt_mul_of_pos_right hjk hn
  mem := fun i => by
    rw [beq_iff_eq, ← Nat.dvd_iff_mod_eq_zero]
    exact ⟨fun h => ⟨i / n, Nat.div_mul_cancel h⟩, fun h => Exists.elim h fun k hk => ⟨k, by rw [← hk, Nat.mul_comm]⟩⟩

/-- The `j`-th time that a counter of `m` values, which goes on from 0, is at a
multiple of `n`. -/
def multiple (m n j : Nat) : Nat := j / ((m - 1) / n + 1) * m + j % ((m - 1) / n + 1) * n

@[simp] theorem multiple_zero : multiple m n 0 = 0 := by simp [multiple]

/-- Until it comes round these are the multiples themselves. -/
theorem multiple_of_lt (hn : 0 < n) (h : j * n < m) : multiple m n j = j * n := by
  have hle : j ≤ (m - 1) / n := (Nat.le_div_iff_mul_le hn).mpr (by omega)
  rw [multiple, Nat.div_eq_of_lt (by omega), Nat.mod_eq_of_lt (by omega), Nat.zero_mul, Nat.zero_add]

/-- After `a` rounds and `t` multiples in the one that it is in. -/
theorem multiple_rounds {a t : Nat} (ht : t ≤ (m - 1) / n) : multiple m n (a * ((m - 1) / n + 1) + t) = a * m + t * n := by
  have hpos : 0 < (m - 1) / n + 1 := Nat.succ_pos _
  have hlt : t < (m - 1) / n + 1 := Nat.lt_succ_of_le ht
  rw [multiple, Nat.mul_comm a, Nat.mul_add_div hpos, Nat.mul_add_mod, Nat.div_eq_of_lt hlt, Nat.mod_eq_of_lt hlt, Nat.add_zero]

theorem rounds (j : Nat) : ∃ a t, t ≤ (m - 1) / n ∧ j = a * ((m - 1) / n + 1) + t :=
  ⟨_, _, Nat.le_of_lt_succ (Nat.mod_lt _ (Nat.succ_pos _)), (Nat.div_add_mod' _ _).symm⟩

theorem multiple_lt_succ (hm : 0 < m) (hn : 0 < n) : multiple m n j < multiple m n (j + 1) := by
  obtain ⟨a, t, ht, rfl⟩ := @rounds m n j
  rw [multiple_rounds ht]
  rcases Nat.lt_or_eq_of_le ht with hlt | rfl
  · rw [Nat.add_assoc, multiple_rounds hlt, Nat.succ_mul]
    omega
  · -- the last multiple of a round, and then 0
    have hlast : (m - 1) / n * n ≤ m - 1 := Nat.div_mul_le_self _ _
    have hnext : a * ((m - 1) / n + 1) + (m - 1) / n + 1 = (a + 1) * ((m - 1) / n + 1) + 0 := by
      rw [Nat.succ_mul, Nat.add_assoc]
      rfl
    rw [hnext, multiple_rounds (Nat.zero_le _), Nat.succ_mul]
    omega

/-- A counter of `m` values that picks at the multiples of `n`. -/
theorem enumerates_multiple (hm : 0 < m) (hn : 0 < n) : Enumerates (fun i => i % m % n == 0) (multiple m n) where
  mono := strictMono_nat_of_lt_succ fun _ => multiple_lt_succ hm hn
  mem := fun i => by
    rw [beq_iff_eq]
    constructor
    · intro h
      have hle : i % m / n ≤ (m - 1) / n := Nat.div_le_div_right (Nat.le_sub_one_of_lt (Nat.mod_lt _ hm))
      refine ⟨i / m * ((m - 1) / n + 1) + i % m / n, ?_⟩
      rw [multiple_rounds hle, Nat.div_mul_cancel (Nat.dvd_of_mod_eq_zero h), Nat.div_add_mod']
    · intro h
      obtain ⟨j, rfl⟩ := h
      obtain ⟨a, t, ht, rfl⟩ := @rounds m n j
      have hlt : t * n < m := by
        have hmul := (Nat.le_div_iff_mul_le hn).mp ht
        omega
      rw [multiple_rounds ht, Nat.mul_comm a, Nat.mul_add_mod, Nat.mod_eq_of_lt hlt, Nat.mul_mod_left]

/-- The same for a rule that looks after counting. -/
theorem Enumerates.after (hp : Enumerates sel p) (hzero : p 0 = 0) : Enumerates (fun i => sel (i + 1)) fun k => p (k + 1) - 1 where
  mono := fun j k hjk => by
    have hpos : p 0 < p (j + 1) := hp.mono (Nat.succ_pos _)
    have hlt : p (j + 1) < p (k + 1) := hp.mono (Nat.succ_lt_succ hjk)
    show p (j + 1) - 1 < p (k + 1) - 1
    omega
  mem := fun i => by
    rw [hp.mem]
    constructor
    · intro h
      obtain ⟨k, hk⟩ := h
      cases k with
      | zero =>
        omega
      | succ k =>
        exact ⟨k, by omega⟩
    · intro h
      obtain ⟨k, hk⟩ := h
      have hpos : p 0 < p (k + 1) := hp.mono (Nat.succ_pos _)
      exact ⟨k + 1, by omega⟩

end RetailVision.Lib
