/-
Machines that tell something at each step, side by side. Numbered ones are all
told each act, and what one of them tells goes out with its number; of keyed
ones an act goes to the one it has the key of. What one of them comes to and
tells is that of a run of its own (`after_numbered`, `after_keyed`).
-/
import RetailVision.Lib.Run
import Mathlib.Data.List.Basic
import Mathlib.Data.List.Induction
import Mathlib.Logic.Function.Basic

set_option linter.all false

namespace RetailVision.Lib

variable {σ α ε κ : Type*}

/-- What a machine comes to, and has told. -/
def after (f : σ → α → σ × List ε) (x : σ × List ε) (as : List α) : σ × List ε :=
  as.foldl (fun x a => ((f x.1 a).1, x.2 ++ (f x.1 a).2)) x

/-- A machine as a system that never refuses, and what it tells as a record of it. -/
def moves (f : σ → α → σ × List ε) (s : σ) (a : α) : Option σ := some (f s a).1

def tells (f : σ → α → σ × List ε) (s : σ) (a : α) (out : List ε) : List ε := out ++ (f s a).2

/-- What is told act by act, by what `P` asks of an act after others. -/
inductive Along (P : List α → α → List ε → Prop) : List α → List ε → Prop
  | nil : Along P [] []
  | snoc {as : List α} {a : α} {out evs : List ε} : Along P as out → P as a evs → Along P (as ++ [a]) (out ++ evs)

section

variable {f : σ → α → σ × List ε} {x : σ × List ε} {a : α} {as bs : List α}

@[simp] theorem after_nil : after f x [] = x := rfl
theorem after_cons : after f x (a :: as) = after f ((f x.1 a).1, x.2 ++ (f x.1 a).2) as := rfl

theorem after_append : after f x (as ++ bs) = after f (after f x as) bs := List.foldl_append

theorem after_snoc : after f x (as ++ [a]) = ((f (after f x as).1 a).1, (after f x as).2 ++ (f (after f x as).1 a).2) := by
  rw [after_append]
  rfl

/-- What has been told before goes first. -/
theorem after_out : after f x as = ((after f (x.1, []) as).1, x.2 ++ (after f (x.1, []) as).2) := by
  induction as using List.reverseRecOn with
  | nil => simp
  | append_singleton as a ih =>
    rw [after_snoc, after_snoc, ih]
    simp

theorem run_after : run (traced (moves f) (tells f)) x as = some (after f x as) := by
  induction as generalizing x with
  | nil => rfl
  | cons a as ih => exact run_cons.mpr ⟨((f x.1 a).1, x.2 ++ (f x.1 a).2), rfl, ih⟩

theorem along_after {P : List α → α → List ε → Prop} {s : σ} (h : ∀ as a, P as a (f (after f (s, []) as).1 a).2) (as : List α) :
    Along P as (after f (s, []) as).2 := by
  induction as using List.reverseRecOn with
  | nil => exact .nil
  | append_singleton as a ih =>
    rw [after_snoc]
    exact ih.snoc (h as a)

/-- A machine is another one, by what `φ` makes of its states. -/
theorem after_map {τ δ : Type*} {g : τ → α → τ × List δ} {φ : σ → τ} {s : σ} (h : ∀ s a, φ (f s a).1 = (g (φ s) a).1) (as : List α) :
    φ (after f (s, []) as).1 = (after g (φ s, []) as).1 := by
  induction as using List.reverseRecOn with
  | nil => rfl
  | append_singleton as a ih => rw [after_snoc, after_snoc, h, ih]

end

/-! ## Numbered machines -/

/-- One step of each. -/
def numbered (f : κ → σ → α → σ × List ε) (ks : List κ) (ss : List σ) (a : α) : List σ × List (Nat × ε) :=
  let results := (ks.zip ss).map fun x => f x.1 x.2 a
  (results.map (·.1), results.zipIdx.flatMap fun x => x.1.2.map (x.2, ·))

/-- What the machine with this number has told. -/
def toldBy (i : Nat) (out : List (Nat × ε)) : List ε := out.filterMap fun x => if x.1 = i then some x.2 else none

variable {i : Nat}

@[simp] theorem toldBy_append {out more : List (Nat × ε)} : toldBy i (out ++ more) = toldBy i out ++ toldBy i more :=
  List.filterMap_append

theorem toldBy_same {evs : List ε} : toldBy i (evs.map (i, ·)) = evs := by
  simp [toldBy, List.filterMap_map]

theorem toldBy_other {k : Nat} {evs : List ε} (h : k ≠ i) : toldBy i (evs.map (k, ·)) = [] := by
  simp [toldBy, List.filterMap_map, h]

theorem toldBy_zipIdx {results : List (σ × List ε)} {k : Nat} {r : σ × List ε} (hk : k ≤ i) (hr : results[i - k]? = some r) :
    toldBy i ((results.zipIdx k).flatMap fun x => x.1.2.map (x.2, ·)) = r.2 := by
  induction results generalizing k with
  | nil => cases hr
  | cons r' results ih =>
    rw [List.zipIdx_cons, List.flatMap_cons, toldBy_append]
    rcases Nat.eq_or_lt_of_le hk with heq | hlt
    · subst heq
      rw [Nat.sub_self, List.getElem?_cons_zero] at hr
      cases hr
      have hrest : toldBy k ((results.zipIdx (k + 1)).flatMap fun x => x.1.2.map (x.2, ·)) = [] := by
        simp only [toldBy, List.filterMap_eq_nil_iff, List.mem_flatMap, List.mem_map]
        intro y hy
        obtain ⟨x, hx, e, -, rfl⟩ := hy
        have hle := List.le_snd_of_mem_zipIdx hx
        simp only
        rw [if_neg (by omega)]
      rw [toldBy_same, hrest, List.append_nil]
    · have hsub : i - k = i - (k + 1) + 1 := by omega
      rw [hsub, List.getElem?_cons_succ] at hr
      rw [toldBy_other (Nat.ne_of_lt hlt), List.nil_append, ih hlt hr]

theorem numbered_at {f : κ → σ → α → σ × List ε} {ks : List κ} {ss : List σ} {k : κ} {s : σ} {a : α}
    (hk : ks[i]? = some k) (hs : ss[i]? = some s) :
    (numbered f ks ss a).1[i]? = some (f k s a).1 ∧ toldBy i (numbered f ks ss a).2 = (f k s a).2 := by
  have hpair : (ks.zip ss)[i]? = some (k, s) := List.getElem?_zip_eq_some.mpr ⟨hk, hs⟩
  have hresult : ((ks.zip ss).map fun x => f x.1 x.2 a)[i]? = some (f k s a) := by
    rw [List.getElem?_map, hpair]
    rfl
  constructor
  · simp only [numbered, List.getElem?_map, hresult, Option.map_some]
  · exact toldBy_zipIdx (Nat.zero_le i) hresult

/-- **A numbered machine has a run of its own.** -/
theorem after_numbered (f : κ → σ → α → σ × List ε) (x : List σ × List (Nat × ε)) (as : List α) {ks : List κ} {k : κ} {s : σ}
    (hk : ks[i]? = some k) (hs : x.1[i]? = some s) :
    (after (numbered f ks) x as).1[i]? = some (after (f k) (s, toldBy i x.2) as).1 ∧
      toldBy i (after (numbered f ks) x as).2 = (after (f k) (s, toldBy i x.2) as).2 := by
  induction as generalizing x s with
  | nil => exact ⟨hs, rfl⟩
  | cons a as ih =>
    obtain ⟨hs', hout⟩ := numbered_at (f := f) (a := a) hk hs
    rw [after_cons, after_cons, ← hout, ← toldBy_append]
    exact ih _ hs'

/-! ## Keyed machines -/

section

variable [DecidableEq κ]

/-- One step of the machine that the act has the key of. -/
def keyed (f : κ → σ → α → σ × List ε) (key : α → κ) (m : κ → σ) (a : α) : (κ → σ) × List (κ × ε) :=
  let (s, evs) := f (key a) (m (key a)) a
  (Function.update m (key a) s, evs.map (key a, ·))

/-- What the machine with this key has told. -/
def toldOf (k : κ) (out : List (κ × ε)) : List ε := out.filterMap fun x => if x.1 = k then some x.2 else none

@[simp] theorem toldOf_append {k : κ} {out more : List (κ × ε)} : toldOf k (out ++ more) = toldOf k out ++ toldOf k more :=
  List.filterMap_append

/-- **A keyed machine has a run of its own**, of the acts with its key. -/
theorem after_keyed (f : κ → σ → α → σ × List ε) (key : α → κ) (k : κ) (x : (κ → σ) × List (κ × ε)) (as : List α) :
    (after (keyed f key) x as).1 k = (after (f k) (x.1 k, toldOf k x.2) (as.filter (key · = k))).1 ∧
      toldOf k (after (keyed f key) x as).2 = (after (f k) (x.1 k, toldOf k x.2) (as.filter (key · = k))).2 := by
  induction as generalizing x with
  | nil => exact ⟨rfl, rfl⟩
  | cons a as ih =>
    rw [after_cons]
    by_cases hkey : key a = k
    · subst hkey
      rw [List.filter_cons_of_pos (by simp), after_cons]
      have hout : toldOf (key a) (x.2 ++ (keyed f key x.1 a).2) = toldOf (key a) x.2 ++ (f (key a) (x.1 (key a)) a).2 := by
        simp [keyed, toldOf, List.filterMap_map]
      have hstate : (keyed f key x.1 a).1 (key a) = (f (key a) (x.1 (key a)) a).1 := by simp [keyed]
      have hrest := ih ((keyed f key x.1 a).1, x.2 ++ (keyed f key x.1 a).2)
      rw [hout, hstate] at hrest
      exact hrest
    · rw [List.filter_cons_of_neg (by simpa using hkey)]
      have hout : toldOf k (x.2 ++ (keyed f key x.1 a).2) = toldOf k x.2 := by
        simp [keyed, toldOf, List.filterMap_map, hkey]
      have hstate : (keyed f key x.1 a).1 k = x.1 k := by
        simp [keyed, Function.update_of_ne (Ne.symm hkey)]
      have hrest := ih ((keyed f key x.1 a).1, x.2 ++ (keyed f key x.1 a).2)
      rw [hout, hstate] at hrest
      exact hrest

end

end RetailVision.Lib
