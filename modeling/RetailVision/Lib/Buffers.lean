/-
Buffers as C++ has them. What the language leaves undefined is an error: a
read or a write beyond a buffer, signed arithmetic that overflows, the
conversion of a number to an integer type that does not hold it. A loop that
writes blocks of one length side by side writes their concatenation
(`writes_eq`).
-/
import Mathlib.Algebra.Order.Floor.Defs
import Mathlib.Data.Rat.Floor

set_option linter.all false

namespace RetailVision.Lib.Buffers

/-- What the language leaves undefined. -/
inductive Undefined
  | access
  | overflow
  | conversion
  deriving DecidableEq

/-- What is defined goes on. -/
theorem ok_bind {α β : Type} (a : α) (f : α → Except Undefined β) : (Except.ok a >>= f) = f a := rfl

/-! ## Integers -/

def IsInt (n : Int) : Prop := -2 ^ 31 ≤ n ∧ n < 2 ^ 31

instance (n : Int) : Decidable (IsInt n) := inferInstanceAs (Decidable (_ ∧ _))

/-- The result of signed arithmetic. -/
def signed (n : Int) : Except Undefined Int := if IsInt n then .ok n else .error .overflow

/-- `static_cast<int>`: the fraction is discarded. -/
def truncate (x : ℚ) : Except Undefined Int :=
  let n := x.num.tdiv x.den
  if IsInt n then .ok n else .error .conversion

/-- A result of `size_t` arithmetic. -/
def sizeT (n : Int) : Nat := (n % 2 ^ 64).toNat

theorem signed_ok {n : Int} (h : IsInt n) : signed n = .ok n := if_pos h

theorem truncate_ok {x : ℚ} (h : 0 ≤ x) (hlt : x < 2 ^ 31) : truncate x = .ok ⌊x⌋ := by
  have hnum : 0 ≤ x.num := Rat.num_nonneg.mpr h
  have hfloor : x.num.tdiv x.den = ⌊x⌋ := by rw [Int.tdiv_eq_ediv_of_nonneg hnum, Rat.floor_def']
  have hnonneg : 0 ≤ ⌊x⌋ := Int.floor_nonneg.mpr h
  have hbound : ⌊x⌋ < 2 ^ 31 := Int.floor_lt.mpr (by exact_mod_cast hlt)
  have hint : IsInt ⌊x⌋ := ⟨by omega, hbound⟩
  simp only [truncate, hfloor, if_pos hint]

theorem sizeT_natCast {n : Nat} (h : n < 2 ^ 64) : sizeT n = n := by
  unfold sizeT
  omega

/-! ## Reads and writes -/

section

variable {α : Type} {buf bytes more : List α} {off n k i j m : Nat}

def slice (buf : List α) (off n : Nat) : List α := (buf.drop off).take n

def overwrite (buf : List α) (off : Nat) (bytes : List α) : List α :=
  buf.take off ++ bytes ++ buf.drop (off + bytes.length)

def read (buf : List α) (off n : Nat) : Except Undefined (List α) :=
  if off + n ≤ buf.length then .ok (slice buf off n) else .error .access

def write (buf : List α) (off : Nat) (bytes : List α) : Except Undefined (List α) :=
  if off + bytes.length ≤ buf.length then .ok (overwrite buf off bytes) else .error .access

theorem read_ok (h : off + n ≤ buf.length) : read buf off n = .ok (slice buf off n) := if_pos h

theorem write_ok (h : off + bytes.length ≤ buf.length) : write buf off bytes = .ok (overwrite buf off bytes) := if_pos h

theorem length_slice (h : off + n ≤ buf.length) : (slice buf off n).length = n := by
  simp only [slice, List.length_take, List.length_drop]
  omega

theorem length_overwrite (h : off + bytes.length ≤ buf.length) : (overwrite buf off bytes).length = buf.length := by
  simp only [overwrite, List.length_append, List.length_take, List.length_drop]
  omega

theorem slice_all (h : n = buf.length) : slice buf 0 n = buf := by
  rw [h]
  exact List.take_length

theorem overwrite_all (h : bytes.length = buf.length) : overwrite buf 0 bytes = bytes := by
  simp [overwrite, h]

theorem overwrite_nil : overwrite buf off [] = buf := by simp [overwrite]

/-- A write right after another is one write. -/
theorem overwrite_append (h : off + bytes.length ≤ buf.length) :
    overwrite (overwrite buf off bytes) (off + bytes.length) more = overwrite buf off (bytes ++ more) := by
  have hhead : (buf.take off ++ bytes).length = off + bytes.length := by
    rw [List.length_append, List.length_take]
    omega
  have htail : (buf.drop (off + bytes.length)).drop more.length = buf.drop (off + (bytes ++ more).length) := by
    rw [List.drop_drop, List.length_append, Nat.add_assoc]
  unfold overwrite
  rw [List.take_left' hhead, ← List.drop_drop, List.drop_left' hhead, htail, List.append_assoc (buf.take off)]

/-- A write right before another is one write. -/
theorem overwrite_before (h : off + bytes.length ≤ buf.length) :
    overwrite (overwrite buf (off + bytes.length) more) off bytes = overwrite buf off (bytes ++ more) := by
  have hhead : (buf.take (off + bytes.length)).length = off + bytes.length := by
    rw [List.length_take]
    omega
  have htake : (buf.take (off + bytes.length) ++ more ++ buf.drop (off + bytes.length + more.length)).take off = buf.take off := by
    rw [List.append_assoc, List.take_append_of_le_length (by omega), List.take_take, Nat.min_eq_left (by omega)]
  have hdrop : (buf.take (off + bytes.length) ++ more ++ buf.drop (off + bytes.length + more.length)).drop (off + bytes.length) =
      more ++ buf.drop (off + bytes.length + more.length) := by
    rw [List.append_assoc, List.drop_left' hhead]
  unfold overwrite
  rw [htake, hdrop, List.length_append, ← Nat.add_assoc]
  simp only [List.append_assoc]

theorem set_eq_overwrite {x : α} (h : i < buf.length) : buf.set i x = overwrite buf i [x] := by
  rw [overwrite, List.set_eq_take_append_cons_drop, if_pos h]
  simp

/-- A loop that goes backwards and writes one element after the other. -/
theorem sets_eq (f : Nat → α) (hk : k ≤ n) (hn : n ≤ buf.length) :
    (List.range k).foldl (fun b i => b.set (n - 1 - i) (f i)) buf = overwrite buf (n - k) ((List.range k).reverse.map f) := by
  induction k with
  | zero => simp [overwrite]
  | succ k ih =>
    have hroom : n - k + ((List.range k).reverse.map f).length ≤ buf.length := by simp; omega
    have hoff : n - k = n - (k + 1) + 1 := by omega
    rw [List.range_succ, List.foldl_append, ih (by omega), List.foldl_cons, List.foldl_nil, List.reverse_append, List.map_append,
      set_eq_overwrite (by rw [length_overwrite hroom]; omega), Nat.sub_sub, Nat.add_comm 1 k, hoff]
    have hone : n - (k + 1) + 1 = n - (k + 1) + [f k].length := rfl
    rw [hone]
    exact overwrite_before (by simp; omega)

/-! ## Blocks of one length -/

variable {block : Nat → List α}

theorem length_blocks (h : ∀ i < n, (block i).length = k) : ((List.range n).flatMap block).length = n * k := by
  induction n with
  | zero => simp
  | succ n ih =>
    rw [List.range_succ, List.flatMap_append, List.length_append, ih fun i hi => h i (by omega)]
    simp only [List.flatMap_cons, List.flatMap_nil, List.append_nil, h n (by omega), Nat.succ_mul]

/-- A part of one block. -/
theorem slice_blocks (h : ∀ i < n, (block i).length = k) (hi : i < n) (hj : j + m ≤ k) :
    slice ((List.range n).flatMap block) (i * k + j) m = slice (block i) j m := by
  obtain ⟨rest, rfl⟩ := Nat.exists_eq_add_of_lt hi
  have hhead : ((List.range i).flatMap block).length = i * k := length_blocks fun i' hi' => h i' (by omega)
  have hlen : (block i).length = k := h i (by omega)
  have hsplit : List.range (i + rest + 1) = List.range i ++ i :: (List.range rest).map (i + 1 + ·) := by
    rw [Nat.add_right_comm, List.range_add, List.range_succ, List.append_assoc]
    rfl
  have hroom : m ≤ ((block i).drop j).length := by
    rw [List.length_drop]
    omega
  unfold slice
  rw [hsplit, List.flatMap_append, List.flatMap_cons, ← List.drop_drop, List.drop_left' hhead,
    List.drop_append_of_le_length (by omega), List.take_append_of_le_length hroom]

/-- A slice is made of the blocks it is cut into. -/
theorem slice_mul (buf : List α) (off n k : Nat) :
    slice buf off (n * k) = (List.range n).flatMap fun i => slice buf (off + i * k) k := by
  induction n with
  | zero => simp [slice]
  | succ n ih =>
    rw [List.range_succ, List.flatMap_append, ← ih, Nat.succ_mul]
    simp only [slice, List.take_add, List.drop_drop, List.flatMap_cons, List.flatMap_nil, List.append_nil]

/-- A loop that writes block after block writes all of them at once. -/
theorem writes_eq {step : List α → Nat → Except Undefined (List α)} (hlen : ∀ i < n, (block i).length = k)
    (hroom : off + n * k ≤ buf.length)
    (hstep : ∀ i < n, ∀ b, b.length = buf.length → step b i = .ok (overwrite b (off + i * k) (block i))) :
    (List.range n).foldlM step buf = .ok (overwrite buf off ((List.range n).flatMap block)) := by
  induction n with
  | zero =>
    rw [List.range_zero, List.flatMap_nil, overwrite_nil]
    rfl
  | succ n ih =>
    have hmul : (n + 1) * k = n * k + k := Nat.succ_mul n k
    have hdone : ((List.range n).flatMap block).length = n * k := length_blocks fun i hi => hlen i (by omega)
    have hfits : off + ((List.range n).flatMap block).length ≤ buf.length := by omega
    have hfirst := ih (fun i hi => hlen i (by omega)) (by omega) fun i hi => hstep i (by omega)
    have hlast := hstep n (by omega) _ (length_overwrite hfits)
    have hnext : overwrite (overwrite buf off ((List.range n).flatMap block)) (off + n * k) (block n) =
        overwrite buf off ((List.range n).flatMap block ++ block n) := by
      rw [← overwrite_append hfits, hdone]
    rw [List.range_succ, List.foldlM_append, hfirst, List.flatMap_append]
    calc
      _ = step (overwrite buf off ((List.range n).flatMap block)) n := bind_pure _
      _ = .ok (overwrite buf off ((List.range n).flatMap block ++ block n)) := by rw [hlast, hnext]
      _ = _ := by simp

/-- A loop whose blocks are all of the buffer. -/
theorem writes_all {step : List α → Nat → Except Undefined (List α)} (hlen : ∀ i < n, (block i).length = k)
    (hall : buf.length = n * k)
    (hstep : ∀ i < n, ∀ b, b.length = n * k → step b i = .ok (overwrite b (i * k) (block i))) :
    (List.range n).foldlM step buf = .ok ((List.range n).flatMap block) := by
  have hroom : 0 + n * k ≤ buf.length := by omega
  rw [writes_eq hlen hroom fun i hi b hb => ?_, overwrite_all (by rw [length_blocks hlen, hall])]
  rw [Nat.zero_add]
  exact hstep i hi b (hb.trans hall)

end

end RetailVision.Lib.Buffers
