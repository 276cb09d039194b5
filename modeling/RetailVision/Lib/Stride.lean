/-
A window that strides around a cycle: `n` places, of which the window sees
`w` in a row, then moves on by `s`. In `n` moves it has seen every place if
and only if it is as wide as the greatest common divisor of the stride and
the cycle (`covered_iff`), wherever it starts.
-/
import Mathlib.Data.Int.GCD
import Mathlib.Data.Int.ModEq
import Mathlib.Tactic.Ring

set_option linter.all false

namespace RetailVision.Lib

variable {n s w c i : Nat}

/-- A place a multiple of the divisor away is met by the window's first. -/
theorem exists_mul_modEq {d : Int} (hn : 0 < n) (hd : (Nat.gcd s n : Int) ∣ d) :
    ∃ r < n, (r * s : Int) ≡ d [ZMOD n] := by
  obtain ⟨q, rfl⟩ := hd
  have hn' : (n : Int) ≠ 0 := by omega
  have hbez := Nat.gcd_eq_gcd_ab s n
  let x := Nat.gcdA s n * q
  have hnonneg : 0 ≤ x % n := Int.emod_nonneg _ hn'
  have hlt : x % n < n := Int.emod_lt_of_pos _ (by omega)
  refine ⟨(x % n).toNat, by omega, ?_⟩
  rw [Int.toNat_of_nonneg hnonneg]
  have hx : x % n * s ≡ x * s [ZMOD n] := (Int.mod_modEq x n).mul_right _
  refine hx.trans ?_
  have hdiff : (Nat.gcd s n : Int) * q - x * s = n * (Nat.gcdB s n * q) := by
    rw [hbez]
    show (s * Nat.gcdA s n + n * Nat.gcdB s n : Int) * q - Nat.gcdA s n * q * s = _
    ring
  exact Int.modEq_iff_dvd.mpr ⟨_, hdiff⟩

theorem covered_of_gcd_le (hw : Nat.gcd s n ≤ w) (hi : i < n) : ∃ r < n, ∃ k < w, (c + r * s + k) % n = i := by
  have hn : 0 < n := by omega
  have hg : 0 < Nat.gcd s n := Nat.gcd_pos_of_pos_right s hn
  have hnonneg : 0 ≤ ((i : Int) - c) % (Nat.gcd s n) := Int.emod_nonneg _ (by omega)
  have hlt : ((i : Int) - c) % (Nat.gcd s n) < Nat.gcd s n := Int.emod_lt_of_pos _ (by omega)
  obtain ⟨k, hk⟩ := Int.eq_ofNat_of_zero_le hnonneg
  have hdvd : (Nat.gcd s n : Int) ∣ i - c - k := by
    rw [← hk]
    exact Int.dvd_self_sub_emod
  obtain ⟨r, hr, hmod⟩ := exists_mul_modEq hn hdvd
  refine ⟨r, hr, k, by omega, ?_⟩
  have hsum : ((c + r * s + k : Nat) : Int) ≡ i [ZMOD n] := by
    have h := (hmod.add_left (c : Int)).add_right (k : Int)
    have he : (c : Int) + (i - c - k) + k = i := by omega
    rw [he] at h
    push_cast
    exact h
  have hnat : c + r * s + k ≡ i [MOD n] := Int.natCast_modEq_iff.mp hsum
  exact Eq.trans hnat (Nat.mod_eq_of_lt hi)

theorem not_covered_of_lt_gcd (hw : w < Nat.gcd s n) {r k : Nat} (hk : k < w) :
    (c + r * s + k) % n ≠ (c + w) % n := by
  intro he
  have hmod : c + r * s + k ≡ c + w [MOD Nat.gcd s n] := Nat.ModEq.of_dvd (Nat.gcd_dvd_right s n) he
  have hrs : r * s ≡ 0 [MOD Nat.gcd s n] :=
    (Nat.modEq_zero_iff_dvd).mpr (Dvd.dvd.mul_left (Nat.gcd_dvd_left s n) r)
  have hck : c + r * s + k ≡ c + k [MOD Nat.gcd s n] := (hrs.add_left c).add_right k
  have hkw : k ≡ w [MOD Nat.gcd s n] := Nat.ModEq.add_left_cancel' c (hck.symm.trans hmod)
  have := hkw.eq_of_lt_of_lt (hk.trans hw) hw
  omega

/-- **The window sees every place in `n` moves** if and only if no common
divisor of stride and cycle is wider than it. -/
theorem covered_iff (hn : 0 < n) : (∀ i < n, ∃ r < n, ∃ k < w, (c + r * s + k) % n = i) ↔ Nat.gcd s n ≤ w := by
  constructor
  · intro h
    by_contra hw
    obtain ⟨r, -, k, hk, he⟩ := h ((c + w) % n) (Nat.mod_lt _ hn)
    exact not_covered_of_lt_gcd (Nat.lt_of_not_le hw) hk he
  · exact fun hw i hi => covered_of_gcd_le hw hi

/-- From another place on, the same places. -/
theorem rotateLeft_perm {α : Type*} (l : List α) (j : Nat) : (l.rotateLeft j).Perm l := by
  unfold List.rotateLeft
  dsimp only
  split
  · exact List.Perm.refl l
  · exact List.perm_append_comm.trans (List.Perm.of_eq (List.take_append_drop _ l))

end RetailVision.Lib
