/-
Binary floating-point numbers: what a significand of so many bits and an
exponent in a range give, the infinities and NaN. The two zeros are one, which
no comparison and no conversion to an integer tells apart. The integer parts of
such a number are such numbers (`Format.Holds.floor`), and so are the integers
that the significand has the bits for (`ofInt_eq`); others are rounded.
-/
import RetailVision.Lib.Buffers
import RetailVision.Lib.HalfEven
import Mathlib.Data.Nat.Log
import Mathlib.Tactic.Zify

set_option linter.all false

namespace RetailVision.Lib

open Buffers

structure Format where
  precision : Nat
  emin : Int
  emax : Int
  precision_pos : 0 < precision
  emin_nonpos : emin ≤ 0
  emax_pos : 0 < emax

namespace Format

/-- binary32 -/
def single : Format where
  precision := 24
  emin := -149
  emax := 104
  precision_pos := by decide
  emin_nonpos := by decide
  emax_pos := by decide

/-- The finite numbers of the format. -/
def Holds (f : Format) (x : ℚ) : Prop :=
  ∃ m e : Int, m.natAbs < 2 ^ f.precision ∧ f.emin ≤ e ∧ e ≤ f.emax ∧ x = m * 2 ^ e

variable {f : Format} {x : ℚ} {n : Int}

theorem holds_int (h : n.natAbs < 2 ^ f.precision) : f.Holds n :=
  ⟨n, 0, h, f.emin_nonpos, f.emax_pos.le, by simp⟩

theorem Holds.neg (h : f.Holds x) : f.Holds (-x) := by
  obtain ⟨m, e, hm, he, he', rfl⟩ := h
  exact ⟨-m, e, by rwa [Int.natAbs_neg], he, he', by push_cast; ring⟩

/-- The integer below lies between the number and 0 or is of the same
significand, so the bits are enough for it. -/
theorem Holds.floor (h : f.Holds x) : f.Holds ⌊x⌋ := by
  obtain ⟨m, e, hm, he, he', rfl⟩ := h
  rcases le_or_gt 0 e with hpos | hneg
  · obtain ⟨k, rfl⟩ := Int.eq_ofNat_of_zero_le hpos
    have hint : (m : ℚ) * 2 ^ (k : Int) = ((m * 2 ^ k : Int) : ℚ) := by
      push_cast
      rw [zpow_natCast]
    rw [hint, Int.floor_intCast, ← hint]
    exact ⟨m, k, hm, he, he', rfl⟩
  · obtain ⟨k, hk⟩ := Int.eq_ofNat_of_zero_le (show 0 ≤ -e by omega)
    have hquot : (m : ℚ) * 2 ^ e = m / ((2 ^ k : Nat) : ℚ) := by
      rw [show e = -k by omega, zpow_neg, zpow_natCast, div_eq_mul_inv]
      push_cast
      rfl
    rw [hquot, Rat.floor_intCast_div_natCast]
    have hdiv : (m / ((2 ^ k : Nat) : Int)).natAbs ≤ m.natAbs := Int.natAbs_ediv_le_natAbs m _
    exact holds_int (by omega)

theorem Holds.ceil (h : f.Holds x) : f.Holds ⌈x⌉ := by
  have hfloor := h.neg.floor.neg
  rw [Int.floor_neg] at hfloor
  simpa using hfloor

/-- How many bits of an integer are too many for the significand. -/
def excess (f : Format) (n : Int) : Nat := n.natAbs.log2 + 1 - f.precision

/-- The significand that it is rounded to. -/
def significand (f : Format) (n : Int) : Int := roundEven ((n : ℚ) / 2 ^ f.excess n)

theorem natAbs_lt_excess (f : Format) (n : Int) : n.natAbs < 2 ^ (f.precision + f.excess n) := by
  have hbits : n.natAbs < 2 ^ (n.natAbs.log2 + 1) := Nat.lt_log2_self
  have hle : n.natAbs.log2 + 1 ≤ f.precision + f.excess n := by
    unfold excess
    omega
  exact hbits.trans_le (Nat.pow_le_pow_right (by decide) hle)

theorem significand_le (f : Format) (n : Int) : (f.significand n).natAbs ≤ 2 ^ f.precision := by
  have habs : |(n : ℚ)| < 2 ^ f.precision * 2 ^ f.excess n := by
    have h := f.natAbs_lt_excess n
    rw [pow_add] at h
    zify at h
    exact_mod_cast h
  have hpos : (0 : ℚ) < 2 ^ f.excess n := by positivity
  rw [abs_lt] at habs
  have hupper : f.significand n ≤ 2 ^ f.precision := by
    refine roundEven_le ?_
    push_cast
    exact ((div_lt_iff₀ hpos).mpr habs.2).le
  have hlower : -2 ^ f.precision ≤ f.significand n := by
    refine le_roundEven ?_
    push_cast
    rw [le_div_iff₀ hpos]
    linarith
  have hcast : ((2 ^ f.precision : Nat) : Int) = 2 ^ f.precision := by push_cast; rfl
  omega

/-- A rounded integer is one of the format, unless it is too great. Where the
rounding has reached the next power of two, the exponent takes it up. -/
theorem holds_rounded {m : Int} {k : Nat} (hm : m.natAbs ≤ 2 ^ f.precision) (hk : (k : Int) ≤ f.emax)
    (hlt : m.natAbs * 2 ^ k < 2 ^ (f.emax.toNat + f.precision)) : f.Holds ((m * 2 ^ k : Int) : ℚ) := by
  have hmin := f.emin_nonpos
  rcases hm.lt_or_eq with hfits | hpow
  · exact ⟨m, k, hfits, by omega, hk, by push_cast; rw [zpow_natCast]⟩
  · have hroom : k + 1 ≤ f.emax.toNat := by
      rw [hpow, ← pow_add] at hlt
      have := (Nat.pow_lt_pow_iff_right (by decide)).mp hlt
      omega
    obtain ⟨p, hp⟩ := Nat.exists_eq_succ_of_ne_zero f.precision_pos.ne'
    have hhalf : m = m / 2 * 2 := by
      rw [hp, Nat.succ_eq_add_one, pow_succ] at hpow
      omega
    refine ⟨m / 2, k + 1, ?_, by omega, by omega, ?_⟩
    · rw [hp, Nat.succ_eq_add_one, pow_succ] at hpow ⊢
      have := Nat.two_pow_pos p
      omega
    · have hzpow : (2 : ℚ) ^ ((k : Int) + 1) = 2 ^ k * 2 := by
        rw [zpow_add₀ (by norm_num), zpow_natCast, zpow_one]
      rw [hzpow]
      calc ((m * 2 ^ k : Int) : ℚ) = ((m / 2 * 2 * 2 ^ k : Int) : ℚ) := by rw [← hhalf]
        _ = _ := by push_cast; ring

end Format

/-- A number of the format. -/
inductive Binary (f : Format)
  | nan
  | inf (negative : Bool)
  | fin (x : ℚ) (holds : f.Holds x)

namespace Binary

variable {f : Format} {x y : Binary f} {n : Int}

def value : Binary f → Option ℚ
  | fin x _ => some x
  | _ => none

/-- False on NaN. -/
def lt : Binary f → Binary f → Bool
  | fin x _, fin y _ => x < y
  | fin _ _, inf negative => !negative
  | inf negative, fin _ _ => negative
  | inf negative, inf negative' => negative && !negative'
  | _, _ => false

instance : LT (Binary f) := ⟨fun x y => lt x y = true⟩

instance : DecidableLT (Binary f) := fun x y => inferInstanceAs (Decidable (lt x y = true))

instance : Zero (Binary f) := ⟨fin 0 (Format.holds_int (by simp))⟩

/-- `std::min` -/
def stdMin (x y : Binary f) : Binary f := if y < x then y else x

/-- `std::max` -/
def stdMax (x y : Binary f) : Binary f := if x < y then y else x

def floor : Binary f → Binary f
  | fin x h => fin ⌊x⌋ h.floor
  | x => x

def ceil : Binary f → Binary f
  | fin x h => fin ⌈x⌉ h.ceil
  | x => x

/-- The conversion of an integer, which rounds to nearest, halves to even. -/
def ofInt (n : Int) : Binary f :=
  if h : (f.excess n : Int) ≤ f.emax ∧ (f.significand n).natAbs * 2 ^ f.excess n < 2 ^ (f.emax.toNat + f.precision) then
    fin ((f.significand n * 2 ^ f.excess n : Int) : ℚ) (Format.holds_rounded (f.significand_le n) h.1 h.2)
  else inf (n < 0)

def toInt : Binary f → Except Undefined Int
  | fin x _ => truncate x
  | _ => .error .conversion

/-- The integers up to the power of two after the greatest significand are
numbers of the format. -/
theorem ofInt_eq (h : n.natAbs ≤ 2 ^ f.precision) : (ofInt n : Binary f).value = some (n : ℚ) := by
  have hexact : ∃ q, n = q * 2 ^ f.excess n ∧ f.excess n ≤ 1 := by
    rcases h.lt_or_eq with hlt | hpow
    · have hzero : f.excess n = 0 := by
        unfold Format.excess
        have hprec := f.precision_pos
        rcases Nat.eq_zero_or_pos n.natAbs with hn | hn
        · rw [hn, Nat.log2_zero]
          omega
        · have := (Nat.log2_lt hn.ne').mpr hlt
          omega
      exact ⟨n, by rw [hzero, pow_zero, mul_one], by omega⟩
    · have hone : f.excess n = 1 := by
        unfold Format.excess
        rw [hpow, Nat.log2_two_pow]
        omega
      obtain ⟨p, hp⟩ := Nat.exists_eq_succ_of_ne_zero f.precision_pos.ne'
      rw [hp, Nat.succ_eq_add_one, pow_succ] at hpow
      exact ⟨n / 2, by rw [hone]; omega, hone.le⟩
  obtain ⟨q, hq, hle⟩ := hexact
  have hsig : f.significand n = q := by
    have hpos : (2 : ℚ) ^ f.excess n ≠ 0 := by positivity
    have hquot : (n : ℚ) / 2 ^ f.excess n = q := by
      rw [div_eq_iff hpos]
      exact_mod_cast hq
    rw [Format.significand, hquot, roundEven_intCast]
  have habs : q.natAbs * 2 ^ f.excess n = n.natAbs := by
    conv_rhs => rw [hq, Int.natAbs_mul, Int.natAbs_pow]
    rfl
  have hemax := f.emax_pos
  have hlt : n.natAbs < 2 ^ (f.emax.toNat + f.precision) :=
    h.trans_lt ((Nat.pow_lt_pow_iff_right (by decide)).mpr (by omega))
  have hfits : (f.excess n : Int) ≤ f.emax ∧ (f.significand n).natAbs * 2 ^ f.excess n < 2 ^ (f.emax.toNat + f.precision) :=
    ⟨by omega, by rw [hsig, habs]; exact hlt⟩
  rw [ofInt, dif_pos hfits, value, hsig, ← hq]

/-! ## Finite numbers -/

variable {a b : ℚ}

theorem value_eq_some : x.value = some a ↔ ∃ h, x = fin a h := by
  constructor
  · intro h
    cases x with
    | fin x hx =>
      cases h
      exact ⟨hx, rfl⟩
    | _ => cases h
  · rintro ⟨h, rfl⟩
    rfl

theorem lt_iff (hx : x.value = some a) (hy : y.value = some b) : x < y ↔ a < b := by
  obtain ⟨_, rfl⟩ := value_eq_some.mp hx
  obtain ⟨_, rfl⟩ := value_eq_some.mp hy
  exact decide_eq_true_iff

theorem value_stdMin (hx : x.value = some a) (hy : y.value = some b) : (stdMin x y).value = some (min a b) := by
  unfold stdMin
  split
  · next h => rw [hy, min_eq_right ((lt_iff hy hx).mp h).le]
  · next h => rw [hx, min_eq_left (not_lt.mp fun hlt => h ((lt_iff hy hx).mpr hlt))]

theorem value_stdMax (hx : x.value = some a) (hy : y.value = some b) : (stdMax x y).value = some (max a b) := by
  unfold stdMax
  split
  · next h => rw [hy, max_eq_right ((lt_iff hx hy).mp h).le]
  · next h => rw [hx, max_eq_left (not_lt.mp fun hlt => h ((lt_iff hx hy).mpr hlt))]

theorem value_floor (hx : x.value = some a) : x.floor.value = some (⌊a⌋ : ℚ) := by
  obtain ⟨_, rfl⟩ := value_eq_some.mp hx
  rfl

theorem value_ceil (hx : x.value = some a) : x.ceil.value = some (⌈a⌉ : ℚ) := by
  obtain ⟨_, rfl⟩ := value_eq_some.mp hx
  rfl

theorem value_zero : (0 : Binary f).value = some 0 := rfl

theorem toInt_eq (hx : x.value = some a) : x.toInt = truncate a := by
  obtain ⟨_, rfl⟩ := value_eq_some.mp hx
  rfl

/-- A comparison that holds is not of NaN. -/
theorem ne_nan_of_lt (h : x < y) : x ≠ nan ∧ y ≠ nan := by
  constructor
  · rintro rfl
    cases h
  · rintro rfl
    cases x <;> cases h

/-- What is between 0 and an integer of the format is converted. -/
theorem toInt_between (hx : x.value = some a) (h : 0 ≤ a) (hle : a ≤ n) (hint : n < 2 ^ 31) : x.toInt = .ok ⌊a⌋ := by
  have hlt : a < 2 ^ 31 := hle.trans_lt (by exact_mod_cast hint)
  rw [toInt_eq hx, truncate_ok h hlt]

/-- **A number that is clamped to the range of an integer** is converted, the
infinities to the ends of the range. -/
theorem toInt_clamp (h : 0 ≤ n) (hprec : n.natAbs ≤ 2 ^ f.precision) (hint : n < 2 ^ 31) (hy : y ≠ nan) :
    ∃ c, (stdMax 0 (stdMin (ofInt n) y)).toInt = .ok c ∧ 0 ≤ c ∧ c ≤ n ∧
      ∀ k : Int, y.value = some (k : ℚ) → c = max 0 (min n k) := by
  have hn := ofInt_eq hprec
  have hcast : (0 : ℚ) ≤ n := by exact_mod_cast h
  obtain ⟨hholds, hfin⟩ := value_eq_some.mp hn
  cases y with
  | nan => exact absurd rfl hy
  | inf negative =>
    cases negative with
    | true =>
      have hmin : stdMin (ofInt n) (inf true : Binary f) = inf true := by
        rw [hfin]
        exact if_pos rfl
      have hmax : stdMax 0 (inf true : Binary f) = 0 := if_neg Bool.false_ne_true
      refine ⟨0, ?_, le_refl 0, h, fun k hk => by cases hk⟩
      rw [hmin, hmax, toInt_between value_zero (le_refl 0) hcast hint, Int.floor_zero]
    | false =>
      have hmin : stdMin (ofInt n) (inf false : Binary f) = ofInt n := by
        rw [hfin]
        exact if_neg Bool.false_ne_true
      refine ⟨n, ?_, h, le_refl n, fun k hk => by cases hk⟩
      rw [hmin, toInt_between (value_stdMax value_zero hn) (le_max_left _ _) (max_le hcast le_rfl) hint,
        max_eq_right hcast, Int.floor_intCast]
  | fin x hx =>
    have hvalue : (fin x hx).value = some x := rfl
    have hclamped := value_stdMax value_zero (value_stdMin hn hvalue)
    have hlow : (0 : ℚ) ≤ max 0 (min (n : ℚ) x) := le_max_left _ _
    have hhigh : max 0 (min (n : ℚ) x) ≤ n := max_le hcast (min_le_left _ _)
    refine ⟨⌊max 0 (min (n : ℚ) x)⌋, toInt_between hclamped hlow hhigh hint, Int.floor_nonneg.mpr hlow, ?_, fun k hk => ?_⟩
    · have := (Int.floor_mono hhigh).trans_eq (Int.floor_intCast n)
      exact this
    · cases hk
      have hints : max (0 : ℚ) (min n k) = ((max 0 (min n k) : Int) : ℚ) := by push_cast; rfl
      rw [hints, Int.floor_intCast]

end Binary

end RetailVision.Lib
