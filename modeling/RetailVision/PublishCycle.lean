/-
The gate of the batched publishing (`PublishCycle` of
`core-py/retail_core/publisher.py`), with exact numbers. Each publication leaves
a deadline that is not before it and at most an interval after it; the next
publication is not before this deadline and leaves one at least an interval
later (`stamps_spaced`). So publications are spaced on the whole, however the
calls come and however long they stay away (`paced`).
-/
import RetailVision.Lib.Ordered
import Mathlib.Algebra.Order.Field.Basic
import Mathlib.Algebra.Order.Floor.Semiring
import Mathlib.Data.Rat.Floor
import Mathlib.Tactic.Linarith
import Mathlib.Tactic.Ring

set_option linter.all false

namespace RetailVision.Publishing

open scoped RetailVision.Lib.Ordered

structure PublishCycle (K : Type) where
  interval : K
  next : Option K

variable {K : Type} [Field K] [LinearOrder K]

namespace PublishCycle

def init (publishHz : K) : PublishCycle K := ⟨if publishHz > 0 then 1 / publishHz else 1, none⟩

def due (c : PublishCycle K) (now : K) : PublishCycle K × Bool :=
  let next := c.next.getD now
  if now < next then ({ c with next := some next }, false)
  else
    let next := next + c.interval
    let next := if next < now then now + c.interval else next
    ({ c with next := some next }, true)

/-- The calls, one after the other, each with its time and what it returned. -/
def calls : PublishCycle K → List K → List (K × Bool)
  | _, [] => []
  | c, now :: times => (now, (c.due now).2) :: calls (c.due now).1 times

/-- The times at which `due` returned true. -/
def published (c : PublishCycle K) (times : List K) : List K := ((c.calls times).filter (·.2)).map (·.1)

/-- The publications, each with the deadline that it leaves. -/
def stamps : PublishCycle K → List K → List (K × K)
  | _, [] => []
  | c, now :: times =>
    let rest := stamps (c.due now).1 times
    if (c.due now).2 then (now, (c.due now).1.next.getD now) :: rest else rest

variable {c : PublishCycle K} {now I : K} {times : List K}

@[simp] theorem due_interval : (c.due now).1.interval = c.interval := by
  unfold due
  dsimp only
  split <;> rfl

theorem published_eq : c.published times = (c.stamps times).map (·.1) := by
  induction times generalizing c with
  | nil => rfl
  | cons now times ih =>
    have hrest : (((c.due now).1.calls times).filter (·.2)).map (·.1) = ((c.due now).1.stamps times).map (·.1) := ih
    cases hdue : (c.due now).2 <;> simp [published, calls, stamps, hdue, hrest]

variable [IsStrictOrderedRing K]

theorem init_interval_pos (publishHz : K) : 0 < (init publishHz).interval := by
  unfold init
  dsimp only
  split
  · next h => exact one_div_pos.mpr h
  · exact one_pos

/-- **What a call does.** One that returns false is before the deadline; one
that returns true is not, and leaves a later one. -/
theorem due_cases (hI : 0 ≤ c.interval) (now : K) :
    ((c.due now).2 = false ∧ ∃ n, c.next = some n ∧ now < n ∧ (c.due now).1 = c) ∨
      (c.due now).2 = true ∧ ∃ n, (c.due now).1.next = some n ∧ now ≤ n ∧ n ≤ now + c.interval ∧
        ∀ m, c.next = some m → m ≤ now ∧ m + c.interval ≤ n := by
  obtain ⟨interval, next⟩ := c
  cases next with
  | none =>
    right
    have hle : now ≤ now + interval := le_add_of_nonneg_right hI
    simp [due, not_lt.mpr hle, hle]
  | some m =>
    by_cases hlt : now < m
    · left
      simp [due, hlt]
    · right
      have hle : m ≤ now := not_lt.mp hlt
      by_cases hmissed : m + interval < now
      · have hnext : m + interval ≤ now + interval := add_le_add_left hle interval
        simp [due, hlt, hmissed, hle, hI]
      · have hnext : now ≤ m + interval := not_lt.mp hmissed
        simp [due, hlt, hmissed, hle, hnext]

/-! ## Publications and their deadlines -/

/-- A later publication is not before the deadline, and leaves one an interval later. -/
def Later (I : K) (x y : K × K) : Prop := x.2 ≤ y.1 ∧ x.2 + I ≤ y.2

theorem stamps_spaced (hI : 0 ≤ c.interval) (times : List K) : (c.stamps times).Pairwise (Later c.interval) ∧
    (∀ x ∈ c.stamps times, x.1 ≤ x.2) ∧
      ∀ m, c.next = some m → ∀ x ∈ c.stamps times, m ≤ x.1 ∧ m + c.interval ≤ x.2 := by
  induction times generalizing c with
  | nil => simp [stamps]
  | cons now times ih =>
    rcases due_cases hI now with ⟨hfalse, n, hn, hlt, hsame⟩ | ⟨htrue, n, hn, hle, hge, hbefore⟩
    · have hstamps : c.stamps (now :: times) = c.stamps times := by
        rw [stamps, hfalse, hsame]
        rfl
      rw [hstamps]
      exact ih hI
    · have hstamps : c.stamps (now :: times) = (now, n) :: (c.due now).1.stamps times := by
        rw [stamps, htrue, hn]
        rfl
      obtain ⟨hspaced, hdeadline, hnext⟩ := ih (c := (c.due now).1) (by rw [due_interval]; exact hI)
      rw [due_interval] at hspaced hnext
      rw [hstamps]
      refine ⟨List.pairwise_cons.mpr ⟨hnext n hn, hspaced⟩, List.forall_mem_cons.mpr ⟨hle, hdeadline⟩, fun m hm => ?_⟩
      obtain ⟨hmnow, hmn⟩ := hbefore m hm
      refine List.forall_mem_cons.mpr ⟨⟨hmnow, hmn⟩, fun x hx => ?_⟩
      obtain ⟨hx1, hx2⟩ := hnext n hn x hx
      exact ⟨by linarith, by linarith⟩

variable {l : List (K × K)} {x y : K × K} {i k : Nat} {t T : K}

omit [IsStrictOrderedRing K] in
theorem later_getElem (h : l.Pairwise (Later I)) (hx : l[i]? = some x) (hy : l[i + k + 1]? = some y) : Later I x y := by
  obtain ⟨hi, hx⟩ := List.getElem?_eq_some_iff.mp hx
  obtain ⟨hj, hy⟩ := List.getElem?_eq_some_iff.mp hy
  rw [← hx, ← hy]
  exact List.pairwise_iff_getElem.mp h i (i + k + 1) hi hj (by omega)

/-- The deadlines are at least an interval apart. -/
theorem deadline_le (h : l.Pairwise (Later I)) (hx : l[i]? = some x) (hy : l[i + k]? = some y) : x.2 + k * I ≤ y.2 := by
  induction k generalizing y with
  | zero =>
    rw [Nat.add_zero, hx] at hy
    cases hy
    simp
  | succ k ih =>
    obtain ⟨z, hz⟩ : ∃ z, l[i + k]? = some z := by
      have hlt : i + (k + 1) < l.length := (List.getElem?_eq_some_iff.mp hy).1
      exact ⟨_, List.getElem?_eq_getElem (by omega)⟩
    have hzy : z.2 + I ≤ y.2 := (later_getElem (k := 0) h hz hy).2
    have hxz := ih hz
    push_cast
    linarith

theorem spaced (h : l.Pairwise (Later I)) (hx : l[i]? = some x) (hy : l[i + k + 1]? = some y) : x.2 + k * I ≤ y.1 := by
  obtain ⟨z, hz⟩ : ∃ z, l[i + k]? = some z := by
    have hlt : i + k + 1 < l.length := (List.getElem?_eq_some_iff.mp hy).1
    exact ⟨_, List.getElem?_eq_getElem (by omega)⟩
  exact (deadline_le h hx hz).trans (later_getElem (k := 0) h hz hy).1

/-- So many fit into a window. -/
theorem length_le [FloorSemiring K] (hI : 0 < I) (h : l.Pairwise (Later I)) (hdeadline : ∀ x ∈ l, x.1 ≤ x.2)
    (hwindow : ∀ x ∈ l, t ≤ x.1 ∧ x.1 ≤ t + T) : l.length ≤ ⌊T / I⌋₊ + 2 := by
  by_cases hlen : l.length ≤ 2
  · omega
  · obtain ⟨k, hk⟩ : ∃ k, l.length = k + 2 := ⟨l.length - 2, by omega⟩
    have hx : l[0]? = some l[0] := List.getElem?_eq_getElem (by omega)
    have hy : l[0 + k + 1]? = some l[0 + k + 1] := List.getElem?_eq_getElem (by omega)
    have hspaced := spaced h hx hy
    have hfirst := (hwindow _ (List.mem_of_getElem? hx)).1
    have hlast := (hwindow _ (List.mem_of_getElem? hy)).2
    have hdead := hdeadline _ (List.mem_of_getElem? hx)
    have hkT : (k : K) * I ≤ T := by linarith
    have hfloor : k ≤ ⌊T / I⌋₊ := Nat.le_floor ((le_div_iff₀ hI).mpr hkT)
    omega

/-- Calls that return false are before the deadline. -/
theorem before_deadline (hI : 0 ≤ c.interval) {n : K} (hn : c.next = some n) {mid after : List (K × Bool)}
    (hcalls : c.calls times = mid ++ after) (hfalse : ∀ x ∈ mid, x.2 = false) : ∀ x ∈ mid, x.1 < n := by
  induction mid generalizing times with
  | nil => exact fun x hx => absurd hx List.not_mem_nil
  | cons x mid ih =>
    cases times with
    | nil => cases hcalls
    | cons now times =>
      rw [calls, List.cons_append, List.cons.injEq] at hcalls
      obtain ⟨rfl, hrest⟩ := hcalls
      obtain ⟨hx, hmid⟩ := List.forall_mem_cons.mp hfalse
      rcases due_cases hI now with ⟨-, m, hm, hlt, hsame⟩ | ⟨htrue, -⟩
      · rw [hn] at hm
        cases hm
        rw [hsame] at hrest
        exact List.forall_mem_cons.mpr ⟨hlt, ih hrest hmid⟩
      · rw [hx] at htrue
        cases htrue

theorem before_next (hI : 0 ≤ c.interval) {before mid after : List (K × Bool)} {d : K}
    (hcalls : c.calls times = before ++ (d, true) :: (mid ++ after)) (hfalse : ∀ x ∈ mid, x.2 = false) :
    ∀ x ∈ mid, x.1 < d + c.interval := by
  induction before generalizing c times with
  | nil =>
    cases times with
    | nil => cases hcalls
    | cons now times =>
      rw [calls, List.nil_append, List.cons.injEq, Prod.mk.injEq] at hcalls
      obtain ⟨⟨rfl, hdue⟩, hrest⟩ := hcalls
      rcases due_cases hI now with ⟨hno, -⟩ | ⟨-, n, hn, -, hge, -⟩
      · rw [hdue] at hno
        cases hno
      · intro x hx
        exact (before_deadline (by rw [due_interval]; exact hI) hn hrest hfalse x hx).trans_le hge
  | cons b before ih =>
    cases times with
    | nil => cases hcalls
    | cons now times =>
      rw [calls, List.cons_append, List.cons.injEq] at hcalls
      have hrest := ih (c := (c.due now).1) (by rw [due_interval]; exact hI) hcalls.2
      rwa [due_interval] at hrest

end PublishCycle

end RetailVision.Publishing
