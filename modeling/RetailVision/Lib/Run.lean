/-
Runs of a system given by a transition function that may refuse an action:
`step s a` is the state after `a`, or `none` where `a` cannot happen in `s`.
What one step preserves, a run preserves (`run_invariant`); where the step
needs a condition on the state it is taken in, the run needs it of each of
its steps (`Meets`). What a run does beyond its states is kept beside them
(`traced`).
-/
import Mathlib.Data.Option.Basic

set_option linter.all false

namespace RetailVision.Lib

variable {σ α : Type*}

/-- The state after the actions in order, if none of them is refused. -/
def run (step : σ → α → Option σ) : σ → List α → Option σ
  | s, [] => some s
  | s, a :: as => (step s a).bind fun s' => run step s' as

/-- Each action of a run, and the state it is taken in, meet `C`. -/
def Meets (step : σ → α → Option σ) (C : σ → α → Prop) : σ → List α → Prop
  | _, [] => True
  | s, a :: as => C s a ∧ ∀ s', step s a = some s' → Meets step C s' as

variable {step : σ → α → Option σ} {C : σ → α → Prop} {s t u : σ} {a : α} {as bs : List α}

@[simp] theorem run_nil : run step s [] = some s := rfl

theorem run_cons : run step s (a :: as) = some u ↔ ∃ t, step s a = some t ∧ run step t as = some u := by
  simp [run, Option.bind_eq_some_iff]

theorem run_append : run step s (as ++ bs) = some u ↔
    ∃ t, run step s as = some t ∧ run step t bs = some u := by
  induction as generalizing s with
  | nil => simp
  | cons a as ih =>
    simp only [List.cons_append, run_cons, ih]
    constructor
    · rintro ⟨t, h, t', h', h''⟩; exact ⟨t', ⟨t, h, h'⟩, h''⟩
    · rintro ⟨t', ⟨t, h, h'⟩, h''⟩; exact ⟨t, h, t', h', h''⟩

theorem run_snoc : run step s (as ++ [a]) = some u ↔ ∃ t, run step s as = some t ∧ step t a = some u := by
  rw [run_append]
  refine exists_congr fun t => and_congr_right fun _ => ?_
  simp [run_cons]

theorem meets_cons : Meets step C s (a :: as) ↔ C s a ∧ ∀ t ∈ step s a, Meets step C t as := Iff.rfl

theorem meets_cons_some (hs : step s a = some t) : Meets step C s (a :: as) ↔ C s a ∧ Meets step C t as := by
  rw [meets_cons, hs]
  simp

/-- A condition that can be decided at each step can be decided of a run. -/
instance [∀ s a, Decidable (C s a)] : ∀ (s : σ) (as : List α), Decidable (Meets step C s as)
  | _, [] => inferInstanceAs (Decidable True)
  | s, a :: as =>
    match h : step s a with
    | none => decidable_of_iff (C s a) (by simp [meets_cons, h])
    | some t =>
      have : Decidable (Meets step C t as) := instDecidableMeets t as
      decidable_of_iff (C s a ∧ Meets step C t as) (by simp [meets_cons, h])

theorem Meets.append (h : Meets step C s (as ++ bs)) (hr : run step s as = some t) :
    Meets step C s as ∧ Meets step C t bs := by
  induction as generalizing s with
  | nil => cases hr; exact ⟨trivial, h⟩
  | cons a as ih =>
    obtain ⟨s', hs, hr⟩ := run_cons.mp hr
    have hs' := fun t ht => (ih (h.2 t ht) (by rw [hs] at ht; cases ht; exact hr))
    exact ⟨⟨h.1, fun t ht => (hs' t ht).1⟩, (hs' s' hs).2⟩

theorem Meets.snoc (h : Meets step C s as) (hr : run step s as = some t) (ha : C t a) : Meets step C s (as ++ [a]) := by
  induction as generalizing s with
  | nil =>
    cases hr
    exact ⟨ha, fun _ _ => trivial⟩
  | cons b as ih =>
    obtain ⟨s', hs, hr⟩ := run_cons.mp hr
    refine ⟨h.1, fun u hu => ?_⟩
    rw [hs] at hu
    cases hu
    exact ih (h.2 s' hs) hr

/-- **What each step preserves, a run preserves**, for a run whose steps all
meet the condition the step's proof needs. -/
theorem run_invariant {I : σ → Prop} (hstep : ∀ s a s', C s a → I s → step s a = some s' → I s')
    (hm : Meets step C s as) (hi : I s) (hr : run step s as = some t) : I t := by
  induction as generalizing s with
  | nil => cases hr; exact hi
  | cons a as ih =>
    obtain ⟨s', hs, hr⟩ := run_cons.mp hr
    exact ih (hm.2 s' hs) (hstep s a s' hm.1 hi hs) hr

/-- A condition that always holds. -/
theorem meets_all (h : ∀ s a, C s a) : ∀ {s : σ} {as : List α}, Meets step C s as
  | _, [] => trivial
  | _, _ :: _ => ⟨h _ _, fun _ _ => meets_all h⟩

theorem meets_true : Meets step (fun _ _ => True) s as := meets_all fun _ _ => trivial

/-- A condition on the actions alone. -/
theorem meets_of_forall {P : α → Prop} : ∀ {s : σ} {as : List α}, (∀ a ∈ as, P a) → Meets step (fun _ a => P a) s as
  | _, [], _ => trivial
  | _, a :: _, h => ⟨h a (by simp), fun _ _ => meets_of_forall fun b hb => h b (by simp [hb])⟩

/-- Actions that meet it in any state. -/
theorem meets_of_mem : ∀ {s : σ} {as : List α}, (∀ a ∈ as, ∀ s, C s a) → Meets step C s as
  | _, [], _ => trivial
  | s, a :: _, h => ⟨h a (by simp) s, fun _ _ => meets_of_mem fun b hb => h b (by simp [hb])⟩

theorem Meets.and {D : σ → α → Prop} (hc : Meets step C s as) (hd : Meets step D s as) :
    Meets step (fun s a => C s a ∧ D s a) s as := by
  induction as generalizing s with
  | nil => trivial
  | cons a as ih => exact ⟨⟨hc.1, hd.1⟩, fun t ht => ih (hc.2 t ht) (hd.2 t ht)⟩

/-- The same for a step that preserves unconditionally. -/
theorem run_invariant' {I : σ → Prop} (hstep : ∀ s a s', I s → step s a = some s' → I s')
    (hi : I s) (hr : run step s as = some t) : I t :=
  run_invariant (C := fun _ _ => True) (fun s a s' _ => hstep s a s') meets_true hi hr

/-- A run that does not meet the condition comes to a step that does not. -/
theorem exists_of_not_meets (hm : ¬ Meets step C s as) (hr : run step s as = some t) :
    ∃ bs a cs u u', as = bs ++ a :: cs ∧ run step s bs = some u ∧ ¬ C u a ∧ step u a = some u' ∧
      run step u' cs = some t := by
  induction as generalizing s with
  | nil => exact absurd trivial hm
  | cons a as ih =>
    obtain ⟨s', hs, hr⟩ := run_cons.mp hr
    by_cases hc : C s a
    · have hm' : ¬ Meets step C s' as := by
        intro h
        refine hm ⟨hc, fun t ht => ?_⟩
        rw [hs] at ht
        cases ht
        exact h
      obtain ⟨bs, b, cs, u, u', rfl, hb, hcb, hu, hcs⟩ := ih hm' hr
      exact ⟨a :: bs, b, cs, u, u', rfl, run_cons.mpr ⟨s', hs, hb⟩, hcb, hu, hcs⟩
    · exact ⟨[], a, as, s, s', rfl, rfl, hc, hs, hr⟩

/-! ## A record of a run -/

variable {γ : Type*} {upd : σ → α → γ → γ} {g g' : γ}

/-- The system with a record beside its state, which each step adds to and
none looks at. -/
def traced (step : σ → α → Option σ) (upd : σ → α → γ → γ) (sg : σ × γ) (a : α) : Option (σ × γ) :=
  (step sg.1 a).map fun s' => (s', upd sg.1 a sg.2)

theorem traced_eq_some : traced step upd (s, g) a = some (t, g') ↔ step s a = some t ∧ g' = upd s a g := by
  simp only [traced, Option.map_eq_some_iff, Prod.mk.injEq]
  constructor
  · rintro ⟨s', hs, rfl, rfl⟩; exact ⟨hs, rfl⟩
  · rintro ⟨hs, rfl⟩; exact ⟨t, hs, rfl, rfl⟩

/-- A run is a run of the traced system, with one record. -/
theorem run_traced : run step s as = some t ↔ ∃ g', run (traced step upd) (s, g) as = some (t, g') := by
  induction as generalizing s g with
  | nil => simp
  | cons a as ih =>
    rw [run_cons]
    constructor
    · rintro ⟨s', hs, hr⟩
      obtain ⟨g', hg⟩ := (ih (g := upd s a g)).mp hr
      exact ⟨g', run_cons.mpr ⟨(s', upd s a g), traced_eq_some.mpr ⟨hs, rfl⟩, hg⟩⟩
    · rintro ⟨g', hg⟩
      obtain ⟨⟨s', g₁⟩, hs, hr⟩ := run_cons.mp hg
      exact ⟨s', (traced_eq_some.mp hs).1, ih.mpr ⟨g', hr⟩⟩

theorem run_of_traced (hr : run (traced step upd) (s, g) as = some (t, g')) : run step s as = some t :=
  run_traced.mpr ⟨g', hr⟩

/-- What each step preserves of the state and its record, a run preserves. -/
theorem run_traced_invariant {I : σ → γ → Prop} (hstep : ∀ s g a s', C s a → I s g → step s a = some s' → I s' (upd s a g))
    (hm : Meets step C s as) (hi : I s g) (hr : run (traced step upd) (s, g) as = some (t, g')) : I t g' := by
  induction as generalizing s g with
  | nil => cases hr; exact hi
  | cons a as ih =>
    obtain ⟨⟨s', g₁⟩, ht, hr⟩ := run_cons.mp hr
    obtain ⟨hs, rfl⟩ := traced_eq_some.mp ht
    exact ih (hm.2 s' hs) (hstep s g a s' hm.1 hi hs) hr

/-- The record is no part of a condition on the run. -/
theorem meets_traced : Meets (traced step upd) (fun sg a => C sg.1 a) (s, g) as ↔ Meets step C s as := by
  induction as generalizing s g with
  | nil => exact Iff.rfl
  | cons a as ih =>
    refine and_congr_right fun _ => ⟨fun h s' hs => ?_, fun h sg hs => ?_⟩
    · exact ih.mp (h (s', upd s a g) (traced_eq_some.mpr ⟨hs, rfl⟩))
    · obtain ⟨s', g₁⟩ := sg
      exact ih.mpr (h s' (traced_eq_some.mp hs).1)

end RetailVision.Lib
