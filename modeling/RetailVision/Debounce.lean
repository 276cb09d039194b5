/-
The debouncer of the motion analyzers (`core-cpp/vb/src/analyzers/motion_util.h`).
It keeps one pending value and the time of it; that is enough to know the block
of equal samples that a history ends with (`Inv`), which decides when it commits
(`commits_iff`).
-/
import RetailVision.VbTypes
import RetailVision.Lib.Machines
import Mathlib.Data.List.Chain
import Mathlib.Data.List.DropRight

set_option linter.all false

namespace RetailVision.Vb

open Lib (after after_snoc)

structure Debounce (α D : Type) where
  state : α
  pending : Bool
  pendingRaw : α
  pendingSince : D

namespace Debounce

variable {α D : Type} [Num D]

/-- The constructor. A `std::string` that is not given is empty. -/
def new [Inhabited α] (initial : α) : Debounce α D where
  state := initial
  pending := false
  pendingRaw := default
  pendingSince := 0.0

variable [DecidableEq α]

/-- `step`, with `prev` and `next` where it returns true. -/
def step (d : Debounce α D) (raw : α) (now hold : D) : Debounce α D × Option (α × α) :=
  if raw = d.state then ({ d with pending := false }, none)
  else if d.pending = false ∨ d.pendingRaw ≠ raw then
    ({ d with pending := true, pendingRaw := raw, pendingSince := now }, none)
  else if now - d.pendingSince ≥ hold then ({ d with state := raw, pending := false }, some (d.state, raw))
  else (d, none)

/-- A debouncer, with the samples there have been since it last committed. A
sample is a raw value and its time. -/
abbrev Watched (α D : Type) := Debounce α D × List (α × D)

/-- A sample, and the transition it leads to. -/
def watch (hold : D) (w : Watched α D) (x : α × D) : Watched α D × List (α × α) :=
  match w.1.step x.1 x.2 hold with
  | (d, none) => ((d, w.2 ++ [x]), [])
  | (d, some c) => ((d, []), [c])

/-- The samples in order. -/
def run [Inhabited α] (hold : D) (initial : α) (samples : List (α × D)) : Watched α D × List (α × α) :=
  after (watch hold) ((new initial, []), []) samples

/-- The samples that a history ends with, one after the other, that are all `s`. -/
def block (s : α) (xs : List (α × D)) : List (α × D) := xs.rtakeWhile (·.1 = s)

/-- `s` has been seen twice or more in a row, for `hold` at least. -/
def Held (hold : D) (s : α) (xs : List (α × D)) (now : D) : Prop :=
  ∃ first second rest, block s xs = first :: second :: rest ∧ hold ≤ now - first.2

variable {d : Debounce α D} {raw s : α} {now hold : D} {xs : List (α × D)} {x : α × D}

omit [Num D] in
theorem block_same (h : x.1 = s) : block s (xs ++ [x]) = block s xs ++ [x] :=
  List.rtakeWhile_concat_pos _ _ _ (by simpa using h)

omit [Num D] in
theorem block_other (h : x.1 ≠ s) : block s (xs ++ [x]) = [] :=
  List.rtakeWhile_concat_neg _ _ _ (by simpa using h)

/-! ## What a sample does -/

/-- What is pending is `s`. -/
def Pending (d : Debounce α D) (s : α) : Prop := d.pending = true ∧ d.pendingRaw = s

instance (d : Debounce α D) (s : α) : Decidable (d.Pending s) := inferInstanceAs (Decidable (_ ∧ _))

theorem step_same (h : raw = d.state) : d.step raw now hold = ({ d with pending := false }, none) := if_pos h

theorem step_first (h : raw ≠ d.state) (hp : ¬ d.Pending raw) :
    d.step raw now hold = ({ d with pending := true, pendingRaw := raw, pendingSince := now }, none) := by
  have hnew : d.pending = false ∨ d.pendingRaw ≠ raw := by
    cases hpend : d.pending with
    | false => exact .inl rfl
    | true => exact .inr fun heq => hp ⟨hpend, heq⟩
  rw [step, if_neg h, if_pos hnew]

theorem step_pending (h : raw ≠ d.state) (hp : d.Pending raw) : d.step raw now hold =
    if now - d.pendingSince ≥ hold then ({ d with state := raw, pending := false }, some (d.state, raw)) else (d, none) := by
  have hold' : ¬ (d.pending = false ∨ d.pendingRaw ≠ raw) := by simp [hp.1, hp.2]
  rw [step, if_neg h, if_neg hold']

/-- A sample that is committed to. -/
theorem step_commits {c : α × α} (h : (d.step raw now hold).2 = some c) :
    c = (d.state, raw) ∧ raw ≠ d.state ∧ (d.step raw now hold).1.state = raw := by
  by_cases hsame : raw = d.state
  · simp [step_same hsame] at h
  by_cases hp : d.Pending raw
  · rw [step_pending hsame hp] at h ⊢
    split at h
    · cases h
      exact ⟨rfl, hsame, by rw [if_pos ‹_›]⟩
    · cases h
  · simp [step_first hsame hp] at h

/-- One that is not. -/
theorem step_keeps (h : (d.step raw now hold).2 = none) : (d.step raw now hold).1.state = d.state := by
  by_cases hsame : raw = d.state
  · simp [step_same hsame]
  by_cases hp : d.Pending raw
  · rw [step_pending hsame hp] at h ⊢
    split at h
    · cases h
    · rw [if_neg ‹_›]
  · simp [step_first hsame hp]

theorem watch_none {w : Watched α D} (h : (w.1.step x.1 x.2 hold).2 = none) :
    watch hold w x = (((w.1.step x.1 x.2 hold).1, w.2 ++ [x]), []) := by
  rw [watch]
  split
  · next heq => rw [heq]
  · next heq => simp [heq] at h

theorem watch_some {w : Watched α D} {c : α × α} (h : (w.1.step x.1 x.2 hold).2 = some c) :
    watch hold w x = (((w.1.step x.1 x.2 hold).1, []), [c]) := by
  rw [watch]
  split
  · next heq => simp [heq] at h
  · next heq =>
    rw [heq] at h ⊢
    cases h
    rfl

/-! ## What is pending is what the history ends with -/

/-- The value that is pending is that of the block at the end, and its time that
of the first sample in it. -/
def Inv (w : Watched α D) : Prop := ∀ s, s ≠ w.1.state →
  (block s w.2).head?.map (·.2) = if w.1.Pending s then some w.1.pendingSince else none

theorem inv_new [Inhabited α] (initial : α) : Inv ((new initial, []) : Watched α D) := by
  intro s hs
  have hnot : ¬ (new initial : Debounce α D).Pending s := by simp [Pending, new]
  rw [if_neg hnot]
  rfl

/-- **One sample** keeps what is pending in step with the history. -/
theorem Inv.watch {w : Watched α D} (h : Inv w) (x : α × D) : Inv (watch hold w x).1 := by
  obtain ⟨d, xs⟩ := w
  intro s hs
  by_cases hsame : x.1 = d.state
  · simp only [Debounce.watch, step_same hsame] at hs ⊢
    rw [block_other (by rw [hsame]; exact Ne.symm hs)]
    simp [Pending]
  by_cases hp : d.Pending x.1
  · have hblock := h x.1 hsame
    rw [if_pos hp] at hblock
    by_cases hlong : x.2 - d.pendingSince ≥ hold
    · -- committed: nothing is left to be pending
      simp [Debounce.watch, step_pending hsame hp, hlong, Pending, block]
    · simp only [Debounce.watch, step_pending hsame hp, if_neg hlong]
      by_cases heq : x.1 = s
      · subst heq
        rw [block_same rfl, if_pos hp, ← hblock]
        cases hb : block x.1 xs with
        | nil => simp [hb] at hblock
        | cons first rest => rfl
      · have hother : ¬ d.Pending s := fun hps => heq (hp.2.symm.trans hps.2)
        rw [block_other heq, if_neg hother]
        rfl
  · have hblock := h x.1 hsame
    rw [if_neg hp] at hblock
    simp only [Debounce.watch, step_first hsame hp] at hs ⊢
    by_cases heq : x.1 = s
    · subst heq
      have hnil : block x.1 xs = [] := by simpa using hblock
      rw [block_same rfl, hnil]
      simp [Pending]
    · rw [block_other heq]
      simp [Pending, heq]

theorem inv_run [Inhabited α] (hold : D) (initial : α) (samples : List (α × D)) : Inv (run hold initial samples).1 := by
  induction samples using List.reverseRecOn with
  | nil => exact inv_new initial
  | append_singleton samples x ih =>
    rw [run, after_snoc]
    exact ih.watch x

/-- When a sample is committed to. -/
theorem Inv.commits_iff {w : Watched α D} (h : Inv w) (x : α × D) (s : α) :
    (∃ prev, (w.1.step x.1 x.2 hold).2 = some (prev, s)) ↔ s ≠ w.1.state ∧ Held hold s (w.2 ++ [x]) x.2 := by
  obtain ⟨d, xs⟩ := w
  by_cases heq : x.1 = s
  · subst heq
    by_cases hsame : x.1 = d.state
    · rw [step_same hsame]
      simp [hsame]
    have hblock := h x.1 hsame
    by_cases hp : d.Pending x.1
    · rw [if_pos hp] at hblock
      simp only [step_pending hsame hp, Held, block_same rfl]
      cases hb : block x.1 xs with
      | nil => simp [hb] at hblock
      | cons first rest =>
        have hsince : d.pendingSince = first.2 := by simpa [hb, eq_comm] using hblock
        rw [hsince]
        cases rest <;> by_cases hlong : hold ≤ x.2 - first.2 <;> simp [hsame, hlong]
    · have hnil : block x.1 xs = [] := by simpa [if_neg hp] using hblock
      simp [step_first hsame hp, Held, block_same rfl, hnil]
  · refine iff_of_false (fun hc => ?_) fun hc => ?_
    · obtain ⟨prev, hc⟩ := hc
      obtain ⟨hraw, -⟩ := step_commits hc
      cases hraw
      exact heq rfl
    · obtain ⟨-, first, second, rest, hb, -⟩ := hc
      rw [block_other heq] at hb
      cases hb

/-! ## What is committed -/

/-- Each transition is to another state than the one before it. -/
def Moves (initial : α) (w : Watched α D × List (α × α)) : Prop :=
  (initial :: w.2.map (·.2)).IsChain (· ≠ ·) ∧ (initial :: w.2.map (·.2)).getLast? = some w.1.1.state

theorem moves_run [Inhabited α] (hold : D) (initial : α) (samples : List (α × D)) :
    Moves initial (run hold initial samples) := by
  induction samples using List.reverseRecOn with
  | nil => exact ⟨.singleton initial, rfl⟩
  | append_singleton samples x ih =>
    obtain ⟨hchain, hlast⟩ := ih
    rw [run, after_snoc, ← run]
    generalize hw : run hold initial samples = w at hchain hlast
    cases hc : (w.1.1.step x.1 x.2 hold).2 with
    | none =>
      rw [watch_none hc]
      refine ⟨by simpa using hchain, ?_⟩
      simpa [step_keeps hc] using hlast
    | some c =>
      obtain ⟨rfl, hne, hstate⟩ := step_commits hc
      rw [watch_some hc]
      simp only [Moves, List.map_append, List.map_cons, List.map_nil, ← List.cons_append]
      refine ⟨?_, ?_⟩
      · refine List.isChain_append.mpr ⟨hchain, .singleton _, fun a ha b hb => ?_⟩
        rw [hlast] at ha
        cases ha
        cases hb
        exact Ne.symm hne
      · rw [List.getLast?_concat, hstate]

end Debounce

end RetailVision.Vb
