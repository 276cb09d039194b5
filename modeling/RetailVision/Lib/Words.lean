/-
Words of a given number of bytes in little-endian order, written at the end of
a list of bytes and read at an offset of one. A word is read as it was written
(`word_here`), whatever stands before (`word_there`) and after it.
-/
import Mathlib.Algebra.Ring.Nat
import Mathlib.Data.List.GetD

set_option linter.all false

namespace RetailVision.Lib

/-- The number that bytes are, the lowest first. -/
def ofBytes (bs : List UInt8) : Nat := bs.foldr (fun b v => b.toNat + 256 * v) 0

/-- The lowest bytes of a number. -/
def putWord : Nat → Nat → List UInt8
  | 0, _ => []
  | n + 1, v => UInt8.ofNat (v % 256) :: putWord n (v / 256)

/-- The word at an offset; what is not there counts as zero. -/
def word (n off : Nat) (bs : List UInt8) : Nat := ofBytes ((bs.drop off).take n)

/-- Numbers with the same digits are the same. -/
theorem eq_of_digits {b n x y : Nat} (hx : x < b ^ n) (hy : y < b ^ n) (h : ∀ i < n, x / b ^ i % b = y / b ^ i % b) : x = y := by
  induction n generalizing x y with
  | zero =>
    rw [Nat.pow_zero] at hx hy
    omega
  | succ n ih =>
    rw [Nat.pow_succ, Nat.mul_comm] at hx hy
    have hlow : x % b = y % b := by simpa using h 0 (Nat.succ_pos n)
    have hhigh : x / b = y / b := by
      refine ih (Nat.div_lt_of_lt_mul hx) (Nat.div_lt_of_lt_mul hy) fun i hi => ?_
      rw [Nat.div_div_eq_div_mul, Nat.div_div_eq_div_mul, Nat.mul_comm, ← Nat.pow_succ]
      exact h (i + 1) (Nat.succ_lt_succ hi)
    rw [← Nat.div_add_mod x b, ← Nat.div_add_mod y b, hlow, hhigh]

variable {n off v : Nat} {l rest : List UInt8}

@[simp] theorem ofBytes_nil : ofBytes [] = 0 := rfl
@[simp] theorem ofBytes_cons {b : UInt8} : ofBytes (b :: l) = b.toNat + 256 * ofBytes l := rfl

theorem ofBytes_lt : ofBytes l < 256 ^ l.length := by
  induction l with
  | nil => decide
  | cons b l ih =>
    have hb := b.toNat_lt
    rw [ofBytes_cons, List.length_cons, Nat.pow_succ]
    omega

@[simp] theorem length_putWord : (putWord n v).length = n := by
  induction n generalizing v with
  | zero => rfl
  | succ n ih => rw [putWord, List.length_cons, ih]

theorem ofBytes_putWord (hv : v < 256 ^ n) : ofBytes (putWord n v) = v := by
  induction n generalizing v with
  | zero =>
    rw [Nat.pow_zero] at hv
    have hzero : v = 0 := by omega
    rw [hzero]
    rfl
  | succ n ih =>
    have hrest : v / 256 < 256 ^ n := by
      rw [Nat.pow_succ] at hv
      omega
    have hb : (UInt8.ofNat (v % 256)).toNat = v % 256 := UInt8.toNat_ofNat_of_lt (Nat.mod_lt v (by decide))
    rw [putWord, ofBytes_cons, ih hrest, hb]
    omega

/-- Bytes are those of the number they are. -/
theorem putWord_ofBytes : putWord l.length (ofBytes l) = l := by
  induction l with
  | nil => rfl
  | cons b l ih =>
    have hb := b.toNat_lt
    have hlow : (b.toNat + 256 * ofBytes l) % 256 = b.toNat := by omega
    have hhigh : (b.toNat + 256 * ofBytes l) / 256 = ofBytes l := by omega
    rw [List.length_cons, ofBytes_cons, putWord, hlow, hhigh, ih, UInt8.ofNat_toNat]

theorem word_lt : word n off l < 256 ^ n := by
  have hlt := ofBytes_lt (l := (l.drop off).take n)
  have hle : ((l.drop off).take n).length ≤ n := List.length_take_le n _
  exact Nat.lt_of_lt_of_le hlt (Nat.pow_le_pow_right (by decide) hle)

/-- A word is read as it was written, -/
theorem word_here (hv : v < 256 ^ n) : word n 0 (putWord n v ++ rest) = v := by
  have htake : (putWord n v ++ rest).take n = putWord n v := List.take_left' length_putWord
  rw [word, List.drop_zero, htake, ofBytes_putWord hv]

theorem word_self (hv : v < 256 ^ n) : word n 0 (putWord n v) = v := by
  have h : word n 0 (putWord n v ++ []) = v := word_here hv
  rwa [List.append_nil] at h

/-- whatever stands before it. -/
theorem word_there (hl : l.length ≤ off) : word n off (l ++ rest) = word n (off - l.length) rest := by
  have hdrop : (l ++ rest).drop off = rest.drop (off - l.length) := by
    rw [List.drop_append, List.drop_eq_nil_of_le hl, List.nil_append]
  rw [word, word, hdrop]

theorem word_drop {m : Nat} : word n off (l.drop m) = word n (m + off) l := by
  rw [word, word, List.drop_drop]

/-- The lowest byte of a word, and the others. -/
theorem word_succ : word (n + 1) off l = (l.getD off 0).toNat + 256 * word n (off + 1) l := by
  by_cases hoff : off < l.length
  · rw [word, List.drop_eq_getElem_cons hoff, List.take_succ_cons, ofBytes_cons, List.getD_eq_getElem l 0 hoff]
    rfl
  · have hdrop : ∀ k, l.length ≤ k → l.drop k = [] := fun k hk => List.drop_eq_nil_of_le hk
    rw [word, word, hdrop off (by omega), hdrop (off + 1) (by omega), List.getD_eq_default l 0 (by omega)]
    simp

/-- Two words, one after the other. -/
theorem word_add {m : Nat} : word (m + n) off l = word m off l + 256 ^ m * word n (off + m) l := by
  induction m generalizing off with
  | zero => simp [word]
  | succ m ih =>
    have hlen : m + 1 + n = m + n + 1 := by omega
    have hoff : off + 1 + m = off + (m + 1) := by omega
    rw [hlen, word_succ, ih, word_succ, Nat.mul_add, hoff, Nat.add_assoc, ← Nat.mul_assoc, Nat.pow_succ,
      Nat.mul_comm (256 ^ m)]

/-- A word of a slice. -/
theorem word_take_drop {m k : Nat} (h : off + n ≤ k) : word n off ((l.drop m).take k) = word n (m + off) l := by
  rw [word, word, List.drop_take, List.take_take, List.drop_drop, Nat.min_eq_left (by omega)]

end RetailVision.Lib
