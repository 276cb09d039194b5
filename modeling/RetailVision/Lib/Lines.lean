/-
Lines of a stream that arrives in pieces. `splitLines` is what a reader makes
of a buffer: the lines ended by a separator, in order, and what is left. How
the stream was cut does not matter (`splitLines_append`): the lines of `xs ++
ys` are those of `xs`, then those of what `xs` left followed by `ys`.
-/
import Mathlib.Data.List.Basic

set_option linter.all false

namespace RetailVision.Lib

variable {α : Type*} [DecidableEq α] (sep : α)

/-- The lines ended by the separator, without it, and the rest. -/
def splitLines : List α → List (List α) × List α
  | [] => ([], [])
  | b :: bs =>
    if b = sep then ([] :: (splitLines bs).1, (splitLines bs).2)
    else match splitLines bs with
      | ([], rest) => ([], b :: rest)
      | (l :: ls, rest) => ((b :: l) :: ls, rest)

variable {sep} {l xs ys : List α}

@[simp] theorem splitLines_nil : splitLines sep [] = ([], []) := rfl

/-- A line that is complete comes first. -/
theorem splitLines_line (hl : sep ∉ l) :
    splitLines sep (l ++ sep :: xs) = (l :: (splitLines sep xs).1, (splitLines sep xs).2) := by
  induction l with
  | nil => simp [splitLines]
  | cons b l ih =>
    have hb : b ≠ sep := fun he => hl (by simp [he])
    have hrest := ih fun hm => hl (by simp [hm])
    simp only [List.cons_append, splitLines, hb, if_false, hrest]

/-- The first line of a stream is one. -/
theorem line_unique {l' : List α} (hl : sep ∉ l) (hl' : sep ∉ l') (he : l ++ sep :: xs = l' ++ sep :: ys) : l = l' := by
  have h := congrArg (splitLines sep) he
  rw [splitLines_line hl, splitLines_line hl'] at h
  simp only [Prod.mk.injEq, List.cons.injEq] at h
  exact h.1.1

/-- Without a separator nothing is complete. -/
theorem splitLines_of_not_mem (hx : sep ∉ xs) : splitLines sep xs = ([], xs) := by
  induction xs with
  | nil => rfl
  | cons b xs ih =>
    have hb : b ≠ sep := fun he => hx (by simp [he])
    have hrest := ih fun hm => hx (by simp [hm])
    simp only [splitLines, hb, if_false, hrest]

theorem splitLines_rest : sep ∉ (splitLines sep xs).2 := by
  induction xs with
  | nil => simp
  | cons b xs ih =>
    simp only [splitLines]
    split
    · exact ih
    · next hb =>
      split <;> rename_i he <;> rw [he] at ih
      · have hne : sep ≠ b := fun h => hb h.symm
        simp only [List.mem_cons, not_or]
        exact ⟨hne, ih⟩
      · exact ih

theorem splitLines_append : splitLines sep (xs ++ ys) =
    ((splitLines sep xs).1 ++ (splitLines sep ((splitLines sep xs).2 ++ ys)).1,
      (splitLines sep ((splitLines sep xs).2 ++ ys)).2) := by
  induction xs with
  | nil => simp
  | cons b xs ih =>
    by_cases hb : b = sep
    · simp [splitLines, hb, ih]
    · cases hs : splitLines sep xs with
      | mk ls rest =>
        rw [hs] at ih
        simp only [List.cons_append, splitLines, hb, if_false, ih, hs]
        cases ls with
        | nil => simp [splitLines, hb]
        | cons l ls => simp

/-- A stream is a line to come, or starts with a complete one. -/
theorem splitLines_cases (sep : α) (xs : List α) : sep ∉ xs ∨ ∃ l ys, xs = l ++ sep :: ys ∧ sep ∉ l := by
  by_cases hx : sep ∈ xs
  · obtain ⟨l, ys, he, hl⟩ := List.eq_append_cons_of_mem hx
    exact .inr ⟨l, ys, he, hl⟩
  · exact .inl hx

end RetailVision.Lib
