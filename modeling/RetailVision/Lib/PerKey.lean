/-
A loop that keeps a state for each key, and may refuse an element. It goes
through exactly if for each key the loop over the elements of that key does, and
leaves what those leave (`foldlM_place`): so only the order of the elements of
one key is of concern.
-/
import Mathlib.Logic.Function.Basic

set_option linter.all false

namespace RetailVision.Lib.PerKey

variable {α κ σ ε : Type*} [DecidableEq κ] (key : α → κ) (step : Option σ → α → Except ε σ)

/-- One element, with the states of all keys. -/
def place (states : κ → Option σ) (a : α) : Except ε (κ → Option σ) :=
  (step (states (key a)) a).map fun s => Function.update states (key a) (some s)

/-- Elements of one key. -/
def run (s : Option σ) (l : List α) : Except ε (Option σ) := l.foldlM (fun s a => (step s a).map some) s

variable {key step} {states states' : κ → Option σ} {l : List α} {a : α} {s : Option σ} {s' : σ}

@[simp] theorem run_nil : run step s [] = .ok s := rfl

theorem run_cons_of_ok (h : step s a = .ok s') : run step s (a :: l) = run step (some s') l := by
  simp [run, List.foldlM_cons, h, Except.map, bind, Except.bind]

theorem run_cons_of_error {e : ε} (h : step s a = .error e) : run step s (a :: l) = .error e := by
  simp [run, List.foldlM_cons, h, Except.map, bind, Except.bind]

/-- The first element is all that sees the state before it. -/
theorem run_cons_congr {o o' : Option σ} (h : step o a = step o' a) : run step o (a :: l) = run step o' (a :: l) := by
  cases hs : step o' a with
  | error e => rw [run_cons_of_error (h.trans hs), run_cons_of_error hs]
  | ok s' => rw [run_cons_of_ok (h.trans hs), run_cons_of_ok hs]

theorem foldlM_place :
    l.foldlM (place key step) states = .ok states' ↔
      ∀ k, run step (states k) (l.filter (key · = k)) = .ok (states' k) := by
  induction l generalizing states with
  | nil =>
    change Except.ok states = Except.ok states' ↔ _
    simp only [List.filter_nil, run_nil, Except.ok.injEq]
    exact funext_iff
  | cons a l ih =>
    rw [List.foldlM_cons]
    cases h : step (states (key a)) a with
    | error e =>
      simp only [place, h, Except.map, bind, Except.bind]
      refine iff_of_false (fun hne => by cases hne) fun hall => ?_
      have hkey := hall (key a)
      rw [List.filter_cons_of_pos (by simp), run_cons_of_error h] at hkey
      cases hkey
    | ok s' =>
      have hplace : place key step states a = .ok (Function.update states (key a) (some s')) := by simp [place, h, Except.map]
      simp only [hplace, bind, Except.bind]
      rw [ih]
      refine forall_congr' fun k => ?_
      by_cases hk : key a = k
      · subst hk
        rw [Function.update_self, List.filter_cons_of_pos (by simp), run_cons_of_ok h]
      · rw [Function.update_of_ne (Ne.symm hk), List.filter_cons_of_neg (by simpa using hk)]

end RetailVision.Lib.PerKey
