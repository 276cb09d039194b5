/-
A list of keyed values in which a key may come more than once, and an update
reaches the last entry of its key only. After updates each last entry has the
latest value for its key, and the others what they had (`setLast_settle`);
that is the list with the values in place by key exactly where no other entry
minds (`settle_eq_iff`).
-/
import Mathlib.Logic.Function.Basic
import Mathlib.Data.List.Basic

set_option linter.all false

namespace RetailVision.Lib

variable {κ α : Type*} [DecidableEq κ]

/-- The value of the last entry of a key. -/
def setLast (k : κ) (v : α) : List (κ × α) → List (κ × α)
  | [] => []
  | x :: rest =>
    if k ∈ rest.map (·.1) then x :: setLast k v rest
    else if x.1 = k then (k, v) :: rest
    else x :: rest

/-- Each last entry of a key with the value for the key, if there is one. -/
def settle (f : κ → Option α) : List (κ × α) → List (κ × α)
  | [] => []
  | x :: rest => (x.1, if x.1 ∈ rest.map (·.1) then x.2 else (f x.1).getD x.2) :: settle f rest

variable {f : κ → Option α} {l : List (κ × α)} {k : κ} {v : α}

@[simp] theorem keys_settle : (settle f l).map (·.1) = l.map (·.1) := by
  induction l with
  | nil => rfl
  | cons x rest ih => rw [settle, List.map_cons, List.map_cons, ih]

theorem settle_none : settle (fun _ => none) l = l := by
  induction l with
  | nil => rfl
  | cons x rest ih =>
    rw [settle, ih]
    simp

/-- A value for a key the list does not have. -/
theorem settle_update_of_not_mem (hk : k ∉ l.map (·.1)) : settle (Function.update f k (some v)) l = settle f l := by
  induction l with
  | nil => rfl
  | cons x rest ih =>
    rw [List.map_cons, List.mem_cons, not_or] at hk
    rw [settle, settle, ih hk.2, Function.update_of_ne (Ne.symm hk.1)]

/-- **An update is a new latest value.** -/
theorem setLast_settle (hk : k ∈ l.map (·.1)) :
    setLast k v (settle f l) = settle (Function.update f k (some v)) l := by
  induction l with
  | nil => exact absurd hk List.not_mem_nil
  | cons x rest ih =>
    rw [settle, setLast, keys_settle, settle]
    by_cases hrest : k ∈ rest.map (·.1)
    · rw [if_pos hrest, ih hrest]
      by_cases hx : x.1 = k
      · rw [if_pos (hx ▸ hrest), if_pos (hx ▸ hrest)]
      · rw [Function.update_of_ne hx]
    · obtain hx | hx := List.mem_cons.mp (List.map_cons ▸ hk)
      · subst hx
        rw [if_neg hrest, if_pos rfl, if_neg hrest, Function.update_self, settle_update_of_not_mem hrest]
        rfl
      · exact absurd hx hrest

/-- The entry an update reaches. -/
theorem setLast_append {before rest : List (κ × α)} {w : α} (hrest : k ∉ rest.map (·.1)) :
    setLast k v (before ++ (k, w) :: rest) = before ++ (k, v) :: rest := by
  induction before with
  | nil =>
    rw [List.nil_append, setLast, if_neg hrest]
    exact if_pos rfl
  | cons x before ih =>
    have hmem : k ∈ (before ++ (k, w) :: rest).map (·.1) := by simp
    rw [List.cons_append, setLast, if_pos hmem, ih]
    rfl

/-- **Values by key are values by last entry** exactly where every other entry
has the value for its key already, and every last one has either the same. -/
theorem settle_eq_iff {g : κ → Option α} : l.map (fun x => (x.1, (g x.1).getD x.2)) = settle f l ↔
    ∀ before x rest, l = before ++ x :: rest →
      (g x.1).getD x.2 = if x.1 ∈ rest.map (·.1) then x.2 else (f x.1).getD x.2 := by
  induction l with
  | nil => exact iff_of_true rfl fun before x rest h => by simp at h
  | cons y l ih =>
    rw [List.map_cons, settle, List.cons.injEq, Prod.mk.injEq, and_iff_right rfl, ih]
    constructor
    · intro ⟨hhead, hrest⟩ before x rest h
      cases before with
      | nil =>
        cases h
        exact hhead
      | cons z before =>
        cases h
        exact hrest before x rest rfl
    · intro h
      exact ⟨h [] y l rfl, fun before x rest hl => h (y :: before) x rest (by rw [hl]; rfl)⟩

end RetailVision.Lib
