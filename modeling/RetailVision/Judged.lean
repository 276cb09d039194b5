/-
The motion analyzers that judge what they see and debounce it. A visit leaves
something to look at, and may read a raw value off it; the debouncer is given
the raw values and their times, and where it commits, an event goes out. After a
removal all starts anew.

So a visit tells of a raw value exactly where the values read since the last
removal end with a block of it that is held long enough, and it is not the one
that was told last (`Seen.along`).
-/
import RetailVision.Debounce

set_option linter.all false

namespace RetailVision.Vb.Judged

open Lib (after after_snoc after_map along_after Along)

/-- What a visit `τ` leaves to look at, and what is read off it: a raw value, and
what goes with it into an event. -/
structure Judge (π τ α ι D : Type) where
  start : π
  initial : α
  hold : D
  time : τ → D
  look : π → τ → π × Option (α × ι)

namespace Judge

variable {π τ α ι D κ ε σ : Type} [Num D] [DecidableEq α] [Inhabited α] (j : Judge π τ α ι D)

/-- What there is before the first visit. -/
def fresh : π × Debounce α D := (j.start, .new j.initial)

def visit (s : π × Debounce α D) (x : τ) : (π × Debounce α D) × List (α × ι) :=
  match j.look s.1 x with
  | (p, none) => ((p, s.2), [])
  | (p, some (raw, info)) => match s.2.step raw (j.time x) j.hold with
    | (d, none) => ((p, d), [])
    | (d, some (_, next)) => ((p, d), [(next, info)])

/-- What is left to look at by visits one after the other. -/
def left (xs : List τ) : π := xs.foldl (fun p x => (j.look p x).1) j.start

/-- What a visit after others reads. -/
def reading (xs : List τ) (x : τ) : Option (α × ι) := (j.look (j.left xs) x).2

/-- The values that visits read, and their times. -/
def samples (xs : List τ) : List (α × D) :=
  (xs.foldl (fun s x => ((j.look s.1 x).1, s.2 ++ ((j.look s.1 x).2.map fun r => (r.1, j.time x)).toList)) (j.start, [])).2

/-- The debouncer, given these values. -/
def watched (xs : List τ) : Debounce.Watched α D := (Debounce.run j.hold j.initial (j.samples xs)).1

/-- A visit after others tells of a raw value. -/
def Due (xs : List τ) (x : τ) (raw : α) (info : ι) : Prop :=
  j.reading xs x = some (raw, info) ∧ raw ≠ (j.watched xs).1.state ∧
    Debounce.Held j.hold raw ((j.watched xs).2 ++ [(raw, j.time x)]) (j.time x)

/-- A visit, or a removal. -/
def turn (obs : κ → Option τ) (s : π × Debounce α D) (a : κ) : (π × Debounce α D) × List (α × ι) :=
  match obs a with
  | none => (j.fresh, [])
  | some x => j.visit s x

/-- The visits since the last removal. -/
def life (obs : κ → Option τ) (as : List κ) : List τ :=
  as.foldl (fun xs a => match obs a with
    | none => []
    | some x => xs ++ [x]) []

variable {j} {xs : List τ} {x : τ} {raw : α} {info : ι} {obs : κ → Option τ} {as : List κ} {a : κ}

omit [Num D] [DecidableEq α] [Inhabited α] in
theorem left_snoc : j.left (xs ++ [x]) = (j.look (j.left xs) x).1 := by
  rw [left, List.foldl_append]
  rfl

omit [Num D] [DecidableEq α] [Inhabited α] in
theorem samples_snoc : j.samples (xs ++ [x]) = j.samples xs ++ ((j.reading xs x).map fun r => (r.1, j.time x)).toList := by
  have hleft : ∀ (xs : List τ) (p : π) (out : List (α × D)),
      (xs.foldl (fun s x => ((j.look s.1 x).1, s.2 ++ ((j.look s.1 x).2.map fun r => (r.1, j.time x)).toList)) (p, out)).1 =
        xs.foldl (fun p x => (j.look p x).1) p := by
    intro xs
    induction xs with
    | nil => exact fun p out => rfl
    | cons x xs ih => exact fun p out => ih _ _
  rw [samples, List.foldl_append]
  simp only [List.foldl_cons, List.foldl_nil, hleft]
  rfl

theorem watched_none (h : j.reading xs x = none) : j.watched (xs ++ [x]) = j.watched xs := by
  rw [watched, samples_snoc, h]
  simp [watched]

theorem watched_some (h : j.reading xs x = some (raw, info)) :
    j.watched (xs ++ [x]) = (Debounce.watch j.hold (j.watched xs) (raw, j.time x)).1 := by
  rw [watched, samples_snoc, h]
  show (after _ _ (j.samples xs ++ [(raw, j.time x)])).1 = _
  rw [after_snoc]
  rfl

/-- What is kept: what the visits have left, and the debouncer given what they read. -/
theorem after_visit (xs : List τ) : (after j.visit (j.fresh, []) xs).1 = (j.left xs, (j.watched xs).1) := by
  induction xs using List.reverseRecOn with
  | nil => rfl
  | append_singleton xs x ih =>
    rw [after_snoc, ih, left_snoc, visit]
    cases hlook : j.look (j.left xs) x with
    | mk p r =>
      cases r with
      | none =>
        rw [watched_none (by rw [reading, hlook])]
      | some r =>
        obtain ⟨raw, info⟩ := r
        rw [watched_some (by rw [reading, hlook])]
        dsimp only
        cases hstep : ((j.watched xs).1.step raw (j.time x) j.hold) with
        | mk d c =>
          cases c with
          | none =>
            rw [Debounce.watch_none (by rw [hstep]), hstep]
          | some c =>
            rw [Debounce.watch_some (by rw [hstep]), hstep]

/-- **A visit tells** of a raw value exactly where it is due, and of one at most. -/
theorem visit_told (xs : List τ) (x : τ) : ((j.visit (j.left xs, (j.watched xs).1) x).2.length ≤ 1) ∧
    ∀ raw info, (raw, info) ∈ (j.visit (j.left xs, (j.watched xs).1) x).2 ↔ j.Due xs x raw info := by
  have hinv : Debounce.Inv (j.watched xs) := Debounce.inv_run j.hold j.initial (j.samples xs)
  rw [visit]
  cases hlook : j.look (j.left xs) x with
  | mk p r =>
    cases r with
    | none =>
      refine ⟨Nat.zero_le _, fun raw info => ?_⟩
      simp [Due, reading, hlook]
    | some r =>
      obtain ⟨raw, info⟩ := r
      have hcommits : ∀ s, (∃ prev, ((j.watched xs).1.step raw (j.time x) j.hold).2 = some (prev, s)) ↔
          s ≠ (j.watched xs).1.state ∧ Debounce.Held j.hold s ((j.watched xs).2 ++ [(raw, j.time x)]) (j.time x) :=
        hinv.commits_iff (raw, j.time x)
      dsimp only at hcommits ⊢
      cases hstep : ((j.watched xs).1.step raw (j.time x) j.hold) with
      | mk d c =>
        rw [hstep] at hcommits
        cases c with
        | none =>
          refine ⟨Nat.zero_le _, fun raw' info' => ?_⟩
          simp only [List.not_mem_nil, false_iff]
          intro hdue
          obtain ⟨hread, hne, hheld⟩ := hdue
          rw [reading, hlook] at hread
          cases hread
          obtain ⟨prev, hprev⟩ := (hcommits raw).mpr ⟨hne, hheld⟩
          cases hprev
        | some c =>
          obtain ⟨prev, next⟩ := c
          have hsome : ((j.watched xs).1.step raw (j.time x) j.hold).2 = some (prev, next) := by rw [hstep]
          obtain ⟨hc, -, -⟩ := Debounce.step_commits hsome
          cases hc
          refine ⟨Nat.le_refl _, fun raw' info' => ?_⟩
          simp only [List.mem_singleton]
          constructor
          · intro heq
            cases heq
            obtain ⟨hne, hheld⟩ := (hcommits raw).mp ⟨_, rfl⟩
            exact ⟨by rw [reading, hlook], hne, hheld⟩
          · intro hdue
            obtain ⟨hread, -, -⟩ := hdue
            rw [reading, hlook] at hread
            cases hread
            rfl

omit [Num D] [DecidableEq α] [Inhabited α] in
theorem life_none (h : obs a = none) : life obs (as ++ [a]) = [] := by
  rw [life, List.foldl_append, List.foldl_cons, List.foldl_nil, h]

omit [Num D] [DecidableEq α] [Inhabited α] in
theorem life_some (h : obs a = some x) : life obs (as ++ [a]) = life obs as ++ [x] := by
  rw [life, List.foldl_append, List.foldl_cons, List.foldl_nil, h]
  rfl

/-- Only the visits since the last removal matter. -/
theorem after_turn (obs : κ → Option τ) (as : List κ) :
    (after (j.turn obs) (j.fresh, []) as).1 = (j.left (life obs as), (j.watched (life obs as)).1) := by
  rw [← after_visit]
  induction as using List.reverseRecOn with
  | nil => rfl
  | append_singleton as a ih =>
    rw [after_snoc, turn]
    cases hobs : obs a with
    | none => rw [life_none hobs]; rfl
    | some x =>
      rw [life_some hobs, after_snoc, ← ih]

/-- **In one life** no raw value is told twice in a row, and the first is not the
one at the start. -/
theorem told_chain (xs : List τ) : (j.initial :: (after j.visit (j.fresh, []) xs).2.map (·.1)).IsChain (· ≠ ·) := by
  have hout : (after j.visit (j.fresh, []) xs).2.map (·.1) = (Debounce.run j.hold j.initial (j.samples xs)).2.map (·.2) := by
    induction xs using List.reverseRecOn with
    | nil => rfl
    | append_singleton xs x ih =>
      rw [after_snoc, after_visit, List.map_append, ih, samples_snoc, visit]
      cases hlook : j.look (j.left xs) x with
      | mk p r =>
        cases r with
        | none => simp [reading, hlook]
        | some r =>
          obtain ⟨raw, info⟩ := r
          have hread : j.reading xs x = some (raw, info) := by rw [reading, hlook]
          rw [hread]
          show _ = (after _ _ (j.samples xs ++ [(raw, j.time x)])).2.map _
          rw [after_snoc, List.map_append]
          congr 1
          show _ = (Debounce.watch j.hold (j.watched xs) (raw, j.time x)).2.map (·.2)
          rw [Debounce.watch]
          dsimp only
          cases hstep : ((j.watched xs).1.step raw (j.time x) j.hold) with
          | mk d c =>
            cases c with
            | none => rfl
            | some c => rfl
  rw [hout]
  exact (Debounce.moves_run j.hold j.initial (j.samples xs)).1

/-- Where nothing is removed, it is the visits that tell. -/
theorem turn_visits (h : ∀ a ∈ as, (obs a).isSome) :
    (after (j.turn obs) (j.fresh, []) as).2 = (after j.visit (j.fresh, []) (as.filterMap obs)).2 ∧ life obs as = as.filterMap obs := by
  induction as using List.reverseRecOn with
  | nil => exact ⟨rfl, rfl⟩
  | append_singleton as a ih =>
    obtain ⟨x, hx⟩ := Option.isSome_iff_exists.mp (h a (by simp))
    obtain ⟨htold, hlife⟩ := ih fun b hb => h b (by simp [hb])
    have hsome : [a].filterMap obs = [x] := by simp [hx]
    rw [after_snoc, turn, hx, after_turn, hlife, htold, List.filterMap_append, hsome, after_snoc, life_some hx, hlife, after_visit]
    exact ⟨rfl, rfl⟩

omit [Num D] [DecidableEq α] [Inhabited α] in
theorem life_suffix (obs : κ → Option τ) (as : List κ) : life obs as <:+ as.filterMap obs := by
  induction as using List.reverseRecOn with
  | nil => exact List.suffix_rfl
  | append_singleton as a ih =>
    rw [List.filterMap_append]
    cases hobs : obs a with
    | none =>
      rw [life_none hobs]
      exact List.nil_suffix
    | some x =>
      obtain ⟨gone, hgone⟩ := ih
      rw [life_some hobs]
      exact ⟨gone, by simp [hobs, ← hgone]⟩

/-! ## An analyzer that judges -/

/-- What is told after others: of a removal nothing; of a visit one event at most,
of a raw value that has been held and is not the one told of last. -/
structure Told (j : Judge π τ α ι D) (obs : κ → Option τ) (event : α → ι → ε) (before : List κ) (a : κ) (evs : List (D × ε)) : Prop where
  one : evs.length ≤ 1
  due : ∀ t ev, (t, ev) ∈ evs ↔ ∃ x raw info, obs a = some x ∧ t = j.time x ∧ ev = event raw info ∧ j.Due (life obs before) x raw info

/-- A machine `f` is the judge, by what `φ` sees of its states. -/
structure Seen (j : Judge π τ α ι D) (obs : κ → Option τ) (event : α → ι → ε) (f : σ → κ → σ × List (D × ε)) (φ : σ → π × Debounce α D)
    (s₀ : σ) : Prop where
  start : φ s₀ = j.fresh
  gone : ∀ s a, obs a = none → φ (f s a).1 = j.fresh ∧ (f s a).2 = []
  visited : ∀ s a x, obs a = some x → φ (f s a).1 = (j.visit (φ s) x).1 ∧
    (f s a).2 = (j.visit (φ s) x).2.map fun r => (j.time x, event r.1 r.2)

variable {event : α → ι → ε} {f : σ → κ → σ × List (D × ε)} {φ : σ → π × Debounce α D} {s₀ : σ}

theorem Seen.after (h : j.Seen obs event f φ s₀) (as : List κ) :
    φ (Lib.after f (s₀, []) as).1 = (Lib.after (j.turn obs) (j.fresh, []) as).1 := by
  rw [← h.start]
  refine after_map (f := f) (g := j.turn obs) (fun s a => ?_) as
  rw [turn]
  cases hobs : obs a with
  | none => exact (h.gone s a hobs).1
  | some x => exact (h.visited s a x hobs).1

/-- **What the machine tells**, act by act. -/
theorem Seen.along (h : j.Seen obs event f φ s₀) (as : List κ) : Along (j.Told obs event) as (Lib.after f (s₀, []) as).2 := by
  refine along_after (fun before a => ?_) as
  cases hobs : obs a with
  | none =>
    rw [(h.gone _ a hobs).2]
    exact ⟨Nat.zero_le _, by simp [hobs]⟩
  | some x =>
    rw [(h.visited _ a x hobs).2, h.after, after_turn]
    obtain ⟨hone, hdue⟩ := visit_told (j := j) (life obs before) x
    refine ⟨by simpa using hone, fun t ev => ?_⟩
    simp only [List.mem_map]
    constructor
    · rintro ⟨⟨raw, info⟩, hmem, heq⟩
      cases heq
      exact ⟨x, raw, info, hobs, rfl, rfl, (hdue raw info).mp hmem⟩
    · rintro ⟨x', raw, info, hx, rfl, rfl, hdue'⟩
      cases hobs.symm.trans hx
      exact ⟨(raw, info), (hdue raw info).mpr hdue', rfl⟩

/-- **Where nothing is removed**, it tells of no raw value twice in a row. -/
theorem Seen.chain (h : j.Seen obs event f φ s₀) (kind : ε → α) (hkind : ∀ raw info, kind (event raw info) = raw)
    (has : ∀ a ∈ as, (obs a).isSome) : (j.initial :: (Lib.after f (s₀, []) as).2.map fun x => kind x.2).IsChain (· ≠ ·) := by
  have hout : (Lib.after f (s₀, []) as).2.map (fun x => kind x.2) = (Lib.after (j.turn obs) (j.fresh, []) as).2.map (·.1) := by
    clear has
    induction as using List.reverseRecOn with
    | nil => rfl
    | append_singleton as a ih =>
      rw [after_snoc, after_snoc, List.map_append, List.map_append, ih, turn]
      cases hobs : obs a with
      | none => rw [(h.gone _ a hobs).2]; rfl
      | some x =>
        rw [(h.visited _ a x hobs).2, h.after]
        simp [hkind]
  rw [hout, (turn_visits has).1]
  exact told_chain _

end Judge

end RetailVision.Vb.Judged
