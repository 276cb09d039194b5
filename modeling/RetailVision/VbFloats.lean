/-
What the decoders use of `float` beyond `Num`: `std::exp`, `std::isfinite`,
infinity and NaN. `Extended` has them over exact numbers.
-/
import RetailVision.VbTracker

set_option linter.all false

namespace RetailVision.Vb

class Floats (F : Type) extends Num F where
  /-- `std::exp` -/
  exp : F → F
  /-- `std::numeric_limits<float>::infinity()` -/
  infinity : F
  /-- `std::isfinite` -/
  isfinite : F → Bool

variable {F : Type} [Floats F] {x y z : F}

/-- NaN is what is not equal to itself. -/
def Floats.isnan (x : F) : Prop := ¬ x ≤ x

instance : Decidable (Floats.isnan x) := inferInstanceAs (Decidable (¬ x ≤ x))

/-- Comparisons as IEEE 754 has them: false on NaN, a weak order on the rest, in
which an infinity is beyond every finite number. -/
structure Floats.Ordered (F : Type) [Floats F] : Prop where
  number : ∀ {x y : F}, x < y → ¬ isnan x ∧ ¬ isnan y
  asymm : ∀ {x y : F}, x < y → ¬ y < x
  between : ∀ {x y z : F}, x < z → ¬ isnan y → x < y ∨ y < z
  finite : ∀ {x : F}, isfinite x = true → ¬ isnan x
  infinite : ∀ {x : F}, isfinite x = false → ¬ isnan x →
    (∀ y : F, isfinite y = true → x < y) ∨ ∀ y : F, isfinite y = true → y < x
  literal : ∀ (m : Nat) (s : Bool) (e : Nat), isfinite (OfScientific.ofScientific m s e : F) = true
  neg : ∀ {x : F}, isfinite x = true → isfinite (-x) = true
  /-- `1.0f + kProbTol`, the one sum that is compared with -/
  add_one : isfinite (1.0 + 1e-6 : F) = true

namespace Floats.Ordered

variable (h : Floats.Ordered F)

include h

theorem lt_trans (hxy : x < y) (hyz : y < z) : x < z :=
  (h.between hxy (h.number hyz).2).resolve_right fun hzy => h.asymm hyz hzy

theorem stdMin_lt (hx : ¬ isnan x) : stdMin x y < z ↔ x < z ∨ y < z := by
  unfold stdMin
  by_cases hyx : y < x
  · rw [if_pos hyx]
    exact ⟨.inr, fun hz => hz.elim (h.lt_trans hyx) id⟩
  · rw [if_neg hyx]
    exact ⟨.inl, fun hz => hz.elim id fun hy => (h.between hy hx).resolve_left hyx⟩

theorem lt_stdMax (hx : ¬ isnan x) : z < stdMax x y ↔ z < x ∨ z < y := by
  unfold stdMax
  by_cases hxy : x < y
  · rw [if_pos hxy]
    exact ⟨.inr, fun hz => hz.elim (fun hz => h.lt_trans hz hxy) id⟩
  · rw [if_neg hxy]
    exact ⟨.inl, fun hz => hz.elim id fun hy => (h.between hy hx).resolve_right hxy⟩

theorem stdMin_number (hx : ¬ isnan x) : ¬ isnan (stdMin x y) := by
  unfold stdMin
  split_ifs with hyx
  · exact (h.number hyx).1
  · exact hx

theorem stdMax_number (hx : ¬ isnan x) : ¬ isnan (stdMax x y) := by
  unfold stdMax
  split_ifs with hxy
  · exact (h.number hxy).2
  · exact hx

theorem foldl_stdMin_lt {l : List F} (hx : ¬ isnan x) : l.foldl stdMin x < z ↔ ∃ y ∈ x :: l, y < z := by
  induction l generalizing x with
  | nil => simp
  | cons y l ih =>
    rw [List.foldl_cons, ih (h.stdMin_number hx)]
    simp only [List.exists_mem_cons_iff, h.stdMin_lt hx, or_assoc]

theorem lt_foldl_stdMax {l : List F} (hx : ¬ isnan x) : z < l.foldl stdMax x ↔ ∃ y ∈ x :: l, z < y := by
  induction l generalizing x with
  | nil => simp
  | cons y l ih =>
    rw [List.foldl_cons, ih (h.stdMax_number hx)]
    simp only [List.exists_mem_cons_iff, h.lt_stdMax hx, or_assoc]

/-- NaN is neither smaller nor greater than anything, so a fold that begins with
it keeps it. -/
theorem foldl_stdMin_nan {l : List F} (hx : isnan x) : l.foldl stdMin x = x := by
  induction l with
  | nil => rfl
  | cons y l ih =>
    have hkeep : stdMin x y = x := if_neg fun hyx => (h.number hyx).2 hx
    rw [List.foldl_cons, hkeep, ih]

theorem foldl_stdMax_nan {l : List F} (hx : isnan x) : l.foldl stdMax x = x := by
  induction l with
  | nil => rfl
  | cons y l ih =>
    have hkeep : stdMax x y = x := if_neg fun hxy => (h.number hxy).1 hx
    rw [List.foldl_cons, hkeep, ih]

end Floats.Ordered

/-! ## Exact numbers with infinities and NaN -/

inductive Extended
  | nan
  | negInf
  | fin (x : ℚ)
  | posInf
  deriving DecidableEq

namespace Extended

/-- The sign, for those that have one. -/
def sign : Extended → ℚ
  | nan => 0
  | negInf => -1
  | fin x => if x < 0 then -1 else if x = 0 then 0 else 1
  | posInf => 1

/-- The infinity of that sign. -/
def infOf (s : ℚ) : Extended := if s < 0 then negInf else if s = 0 then nan else posInf

def add : Extended → Extended → Extended
  | fin x, fin y => fin (x + y)
  | fin _, y => y
  | x, fin _ => x
  | x, y => if x = y then x else nan

def neg : Extended → Extended
  | nan => nan
  | negInf => posInf
  | fin x => fin (-x)
  | posInf => negInf

def mul : Extended → Extended → Extended
  | fin x, fin y => fin (x * y)
  | x, y => infOf (x.sign * y.sign)

def div : Extended → Extended → Extended
  | nan, _ => nan
  | _, nan => nan
  | fin x, fin y => if y = 0 then infOf (fin x).sign else fin (x / y)
  | fin _, _ => fin 0
  | x, fin y => infOf (x.sign * if y = 0 then 1 else (fin y).sign)
  | _, _ => nan

def lt : Extended → Extended → Bool
  | fin x, fin y => x < y
  | negInf, fin _ => true
  | negInf, posInf => true
  | fin _, posInf => true
  | _, _ => false

def le (x y : Extended) : Bool := x.lt y || (x = y && x != nan)

/-- Exact at 0, and close to `exp` around it. -/
def exp : Extended → Extended
  | nan => nan
  | negInf => fin 0
  | fin x => fin ((1 + x / 16) ^ 16)
  | posInf => posInf

def hypot : Extended → Extended → Extended
  | fin x, fin y => fin (Num.hypot x y)
  | nan, fin _ => nan
  | fin _, nan => nan
  | nan, nan => nan
  | _, _ => posInf

def isfinite : Extended → Bool
  | fin _ => true
  | _ => false

instance : Floats Extended where
  add := add
  sub x y := add x (neg y)
  mul := mul
  div := div
  neg := neg
  lt x y := lt x y
  le x y := le x y
  ofScientific m s e := fin (OfScientific.ofScientific m s e)
  intCast n := fin n
  hypot := hypot
  decLt x y := inferInstanceAs (Decidable (lt x y = true))
  decLe x y := inferInstanceAs (Decidable (le x y = true))
  exp := exp
  infinity := posInf
  isfinite := isfinite

theorem isnan_iff {x : Extended} : Floats.isnan x ↔ x = nan := by
  change ¬ le x x = true ↔ x = nan
  cases x <;> simp [le, lt]

theorem ordered : Floats.Ordered Extended where
  number {x y} h := by
    change lt x y = true at h
    simp only [isnan_iff]
    cases x <;> cases y <;> simp_all [lt]
  asymm {x y} h := by
    change ¬ lt y x = true
    change lt x y = true at h
    cases x <;> cases y <;> simp_all [lt]
    exact le_of_lt h
  between {x y z} h hy := by
    change lt x y = true ∨ lt y z = true
    change lt x z = true at h
    rw [isnan_iff] at hy
    cases x <;> cases y <;> cases z <;> simp_all [lt]
    rename_i x y z
    exact lt_or_ge x y |>.imp_right fun hyx => lt_of_le_of_lt hyx h
  finite {x} h := by
    rw [isnan_iff]
    rintro rfl
    cases h
  infinite {x} h hx := by
    rw [isnan_iff] at hx
    cases x with
    | nan => exact absurd rfl hx
    | negInf => exact .inl fun y hy => by cases y <;> first | rfl | cases hy
    | fin x => cases h
    | posInf => exact .inr fun y hy => by cases y <;> first | rfl | cases hy
  literal _ _ _ := rfl
  neg {x} h := by cases x <;> first | rfl | cases h
  add_one := rfl

end Extended

end RetailVision.Vb
