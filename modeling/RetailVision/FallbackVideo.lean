/-
`FallbackVideoSource` of `retail_core/video.py`: a source that is given up for
another, once, where it fails.

Over any reads that come to a frame, to nothing or to an exception, the primary
source is given up at the first read that fails, unless there is nothing to give it up
for, and either source is closed once, after its last read (`source_fails_over`).

Left out: what the sources are.
-/
import RetailVision.Lib.Machines
import Mathlib.Data.List.DropRight

set_option linter.all false

namespace RetailVision.FallbackVideo

open Lib

/-- The two sources. -/
inductive Source
  | primary
  | fallback
  deriving DecidableEq

/-- What `read` comes to. -/
inductive Outcome (φ ε : Type)
  | frame (frame : φ)
  | none
  | raises (e : ε)

/-- What is done with a source. -/
inductive Use
  | read
  | close

/-- An exception of a source, or the `RuntimeError` that says how often a source has
returned no frame. -/
inductive Error (ε : Type)
  | source (e : ε)
  | noFrame (backend : Source) (times : Nat)

structure Video where
  hasFallback : Bool
  strict : Bool
  failureLimit : Nat
  active : Source
  failures : Nat

def Video.init (hasFallback strict : Bool) (failureLimit : Int) : Video where
  hasFallback := hasFallback
  strict := strict
  failureLimit := (max 1 failureLimit).toNat
  active := .primary
  failures := 0

/-- `_switch`, which raises where it cannot. -/
def Video.switch (v : Video) : Option Video :=
  if v.strict = true ∨ v.hasFallback = false ∨ v.active = .fallback then none
  else some { v with active := .fallback, failures := 0 }

variable {φ ε : Type}

/-- `read`, where that of the active source comes to this: the state after it, and what
has been done with the sources and what it comes to itself. -/
def Video.read (v : Video) : Outcome φ ε → Video × List (List (Source × Use) × Outcome φ (Error ε))
  | .frame frame => ({ v with failures := 0 }, [([(v.active, .read)], .frame frame)])
  | .raises e => match v.switch with
    | some next => (next, [([(v.active, .read), (v.active, .close)], .none)])
    | none => (v, [([(v.active, .read)], .raises (.source e))])
  | .none =>
    let missed := { v with failures := v.failures + 1 }
    if v.failureLimit ≤ missed.failures then match missed.switch with
      | some next => (next, [([(v.active, .read), (v.active, .close)], .none)])
      | none => (missed, [([(v.active, .read)], .raises (.noFrame v.active missed.failures))])
    else (missed, [([(v.active, .read)], .none)])

def Video.close (v : Video) : List (Source × Use) :=
  (v.active, .close) :: if v.hasFallback = true ∧ v.active ≠ .fallback then [(.fallback, .close)] else []

/-! ## When a source fails -/

def Outcome.isFrame : Outcome φ ε → Bool
  | .frame _ => true
  | _ => false

def Outcome.isNone : Outcome φ ε → Bool
  | .none => true
  | _ => false

/-- How often there has been no frame since the last one. -/
def missed (os : List (Outcome φ ε)) : Nat := (os.rtakeWhile fun o => !o.isFrame).countP (·.isNone)

/-- The read that comes to `o`, after others of the same source, fails. -/
def Fails (limit : Nat) (os : List (Outcome φ ε)) : Outcome φ ε → Prop
  | .frame _ => False
  | .raises _ => True
  | .none => limit ≤ missed os + 1

/-- After reads that have come to `os` it is `source` that is read, and `own` is what
its own reads have come to: the primary one unless it can be given up, and has been
at the first read that has failed. -/
inductive Reads (limit : Nat) (can : Prop) (os : List (Outcome φ ε)) : Source → List (Outcome φ ε) → Prop
  | primary : (can → ∀ before o after, os = before ++ o :: after → ¬ Fails limit before o) → Reads limit can os .primary os
  | fallback {before o own} : can → os = before ++ o :: own → Fails limit before o →
      (∀ before' o' after', before = before' ++ o' :: after' → ¬ Fails limit before' o') → Reads limit can os .fallback own

/-- What a failed read raises. -/
def errorOf (source : Source) (own : List (Outcome φ ε)) : Outcome φ ε → Outcome φ (Error ε)
  | .frame frame => .frame frame
  | .raises e => .raises (.source e)
  | .none => .raises (.noFrame source (missed own + 1))

/-- **What a read is to do**, and to come to. -/
structure Told (limit : Nat) (can : Prop) (os : List (Outcome φ ε)) (o : Outcome φ ε) (source : Source) (own : List (Outcome φ ε))
    (told : List (List (Source × Use) × Outcome φ (Error ε))) : Prop where
  reads : Reads limit can os source own
  frame : ∀ frame, o = .frame frame → told = [([(source, .read)], .frame frame)]
  missed : o.isFrame = false → ¬ Fails limit own o → told = [([(source, .read)], .none)]
  givesUp : Fails limit own o → can → source = .primary → told = [([(source, .read), (source, .close)], .none)]
  raises : Fails limit own o → ¬ (can ∧ source = .primary) → told = [([(source, .read)], errorOf source own o)]

variable {v v' : Video} {os own : List (Outcome φ ε)} {o : Outcome φ ε} {limit : Nat} {can : Prop} {source : Source}

theorem missed_frame (os : List (Outcome φ ε)) (frame : φ) : missed (os ++ [.frame frame]) = 0 := by
  rw [missed, List.rtakeWhile_concat_neg _ _ _ (by simp [Outcome.isFrame])]
  rfl

theorem missed_none (os : List (Outcome φ ε)) : missed (os ++ [.none]) = missed os + 1 := by
  rw [missed, List.rtakeWhile_concat_pos _ _ _ (by simp [Outcome.isFrame]), List.countP_append]
  rfl

theorem missed_raises (os : List (Outcome φ ε)) (e : ε) : missed (os ++ [.raises e]) = missed os := by
  rw [missed, List.rtakeWhile_concat_pos _ _ _ (by simp [Outcome.isFrame]), List.countP_append]
  rfl

/-! ## One read after others -/

theorem Reads.snoc (h : Reads limit can os source own) (ho : ¬ Fails limit own o ∨ ¬ (can ∧ source = .primary)) :
    Reads limit can (os ++ [o]) source (own ++ [o]) := by
  cases h with
  | primary hnone =>
    refine .primary fun hcan before o' rest hsplit => ?_
    have hok : ¬ Fails limit os o := ho.resolve_right fun hnot => hnot ⟨hcan, rfl⟩
    obtain rfl | ⟨init, last, rfl⟩ := List.eq_nil_or_concat rest
    · obtain ⟨rfl, hlast⟩ := List.append_inj' hsplit rfl
      cases hlast
      exact hok
    · rw [List.concat_eq_append, ← List.cons_append, ← List.append_assoc] at hsplit
      exact hnone hcan before o' init (List.append_inj' hsplit rfl).1
  | fallback hcan hsplit hfails hfirst =>
    exact .fallback hcan (by rw [hsplit, List.append_assoc, List.cons_append]) hfails hfirst

/-- The primary source is given up. -/
theorem Reads.giveUp (h : Reads limit can os .primary own) (hcan : can) (hfails : Fails limit own o) :
    Reads limit can (os ++ [o]) .fallback [] := by
  cases h with
  | primary hnone => exact .fallback hcan rfl hfails fun before o' rest hsplit => hnone hcan before o' rest hsplit

/-- The state after reads that have come to `os`. -/
structure Stands (limit : Nat) (hasFallback strict : Bool) (os : List (Outcome φ ε)) (v : Video) (own : List (Outcome φ ε)) : Prop where
  limitIs : v.failureLimit = limit
  hasFallbackIs : v.hasFallback = hasFallback
  strictIs : v.strict = strict
  failures : v.failures = missed own
  reads : Reads limit (strict = false ∧ hasFallback = true) os v.active own

variable {hasFallback strict : Bool}

/-- **What `_switch` does.** -/
theorem switch_cases (hf : v.hasFallback = hasFallback) (hs : v.strict = strict) :
    (v.switch = some { v with active := .fallback, failures := 0 } ∧ (strict = false ∧ hasFallback = true) ∧ v.active = .primary) ∨
      v.switch = none ∧ ¬ ((strict = false ∧ hasFallback = true) ∧ v.active = .primary) := by
  subst hf hs
  rw [Video.switch]
  split
  · next hno =>
    refine .inr ⟨rfl, fun ⟨⟨hs, hf⟩, ha⟩ => ?_⟩
    simp [hs, hf, ha] at hno
  · next hyes =>
    rw [not_or, not_or] at hyes
    obtain ⟨hs, hf, ha⟩ := hyes
    refine .inl ⟨rfl, ⟨by simpa using hs, by simpa using hf⟩, ?_⟩
    cases hactive : v.active with
    | primary => rfl
    | fallback => exact absurd hactive ha

/-- **One read**: what it does, and how the source stands after it. -/
theorem Stands.read (h : Stands limit hasFallback strict os v own) (o : Outcome φ ε) :
    Told limit (strict = false ∧ hasFallback = true) os o v.active own (v.read o).2 ∧
      ∃ own', Stands limit hasFallback strict (os ++ [o]) (v.read o).1 own' := by
  cases o with
  | frame frame =>
    have hok : ¬ Fails limit own (.frame frame : Outcome φ ε) := id
    refine ⟨⟨h.reads, fun f hf => ?_, fun hno => (by cases hno), fun hfails => absurd hfails hok, fun hfails => absurd hfails hok⟩,
      own ++ [.frame frame], ?_⟩
    · cases hf
      rfl
    · exact ⟨h.limitIs, h.hasFallbackIs, h.strictIs, (missed_frame own frame).symm, h.reads.snoc (.inl hok)⟩
  | raises e =>
    have hfails : Fails limit own (.raises e : Outcome φ ε) := trivial
    obtain ⟨hswitch, hcan, hprimary⟩ | ⟨hswitch, hnot⟩ := switch_cases h.hasFallbackIs h.strictIs
    · rw [Video.read, hswitch]
      refine ⟨⟨h.reads, fun f hf => (by cases hf), fun _ hok => absurd hfails hok, fun _ _ _ => rfl,
        fun _ hnot => absurd ⟨hcan, hprimary⟩ hnot⟩, [], ?_⟩
      exact ⟨h.limitIs, h.hasFallbackIs, h.strictIs, rfl, (hprimary ▸ h.reads).giveUp hcan hfails⟩
    · rw [Video.read, hswitch]
      refine ⟨⟨h.reads, fun f hf => (by cases hf), fun _ hok => absurd hfails hok, fun _ hcan hp => absurd ⟨hcan, hp⟩ hnot, fun _ _ => rfl⟩,
        own ++ [.raises e], ?_⟩
      exact ⟨h.limitIs, h.hasFallbackIs, h.strictIs, h.failures.trans (missed_raises own e).symm, h.reads.snoc (.inr hnot)⟩
  | none =>
    rw [Video.read]
    dsimp only
    split
    · next hmany =>
      have hfails : Fails limit own (.none : Outcome φ ε) := by
        rw [h.limitIs, h.failures] at hmany
        exact hmany
      obtain ⟨hswitch, hcan, hprimary⟩ | ⟨hswitch, hnot⟩ := switch_cases (v := { v with failures := v.failures + 1 }) h.hasFallbackIs h.strictIs
      · rw [hswitch]
        refine ⟨⟨h.reads, fun f hf => (by cases hf), fun _ hok => absurd hfails hok, fun _ _ _ => rfl,
          fun _ hnot => absurd ⟨hcan, hprimary⟩ hnot⟩, [], ?_⟩
        have hprimary : v.active = .primary := hprimary
        exact ⟨h.limitIs, h.hasFallbackIs, h.strictIs, rfl, (hprimary ▸ h.reads).giveUp hcan hfails⟩
      · rw [hswitch]
        refine ⟨⟨h.reads, fun f hf => (by cases hf), fun _ hok => absurd hfails hok, fun _ hcan hp => absurd ⟨hcan, hp⟩ hnot, fun _ _ => ?_⟩,
          own ++ [.none], ?_⟩
        · rw [errorOf, ← h.failures]
        · exact ⟨h.limitIs, h.hasFallbackIs, h.strictIs, by rw [missed_none, ← h.failures], h.reads.snoc (.inr hnot)⟩
    · next hfew =>
      have hok : ¬ Fails limit own (.none : Outcome φ ε) := by
        rw [h.limitIs, h.failures] at hfew
        exact hfew
      refine ⟨⟨h.reads, fun f hf => (by cases hf), fun _ _ => rfl, fun hfails => absurd hfails hok, fun hfails => absurd hfails hok⟩,
        own ++ [.none], ?_⟩
      exact ⟨h.limitIs, h.hasFallbackIs, h.strictIs, by rw [missed_none, ← h.failures], h.reads.snoc (.inl hok)⟩

/-! ## What is done with a source -/

/-- What has been done with a source. -/
def usesOf (source : Source) (told : List (List (Source × Use) × Outcome φ (Error ε))) : List Use := toldOf source (told.flatMap (·.1))

theorem usesOf_append (source : Source) (told more : List (List (Source × Use) × Outcome φ (Error ε))) :
    usesOf source (told ++ more) = usesOf source told ++ usesOf source more := by
  rw [usesOf, List.flatMap_append, toldOf_append]
  rfl

/-- The sources as they have been used. -/
inductive Used (v : Video) (uses : Source → List Use) : Prop
  | primary (k : Nat) : v.active = .primary → uses .primary = List.replicate k .read → uses .fallback = [] → Used v uses
  | fallback (k m : Nat) : v.active = .fallback → uses .primary = List.replicate k .read ++ [.close] → uses .fallback = List.replicate m .read →
      Used v uses

/-- **What a read does with the sources.** -/
theorem read_uses (v : Video) (o : Outcome φ ε) : (v.read o).1.hasFallback = v.hasFallback ∧
    ((∃ result, (v.read o).2 = [([(v.active, .read)], result)] ∧ (v.read o).1.active = v.active) ∨
      v.active = .primary ∧ (∃ result, (v.read o).2 = [([(.primary, .read), (.primary, .close)], result)]) ∧ (v.read o).1.active = .fallback) := by
  cases o with
  | frame frame => exact ⟨rfl, .inl ⟨_, rfl, rfl⟩⟩
  | raises e =>
    obtain ⟨hswitch, -, hprimary⟩ | ⟨hswitch, -⟩ := switch_cases (v := v) rfl rfl
    · rw [Video.read, hswitch, hprimary]
      exact ⟨rfl, .inr ⟨rfl, ⟨_, rfl⟩, rfl⟩⟩
    · rw [Video.read, hswitch]
      exact ⟨rfl, .inl ⟨_, rfl, rfl⟩⟩
  | none =>
    rw [Video.read]
    dsimp only
    split
    · obtain ⟨hswitch, -, hprimary⟩ | ⟨hswitch, -⟩ := switch_cases (v := { v with failures := v.failures + 1 }) rfl rfl
      · have hprimary : v.active = .primary := hprimary
        rw [hswitch, hprimary]
        exact ⟨rfl, .inr ⟨rfl, ⟨_, rfl⟩, rfl⟩⟩
      · rw [hswitch]
        exact ⟨rfl, .inl ⟨_, rfl, rfl⟩⟩
    · exact ⟨rfl, .inl ⟨_, rfl, rfl⟩⟩

theorem Used.read {told : List (List (Source × Use) × Outcome φ (Error ε))} (h : Used v fun source => usesOf source told) (o : Outcome φ ε) :
    Used (v.read o).1 fun source => usesOf source (told ++ (v.read o).2) := by
  simp only [usesOf_append]
  obtain ⟨-, ⟨result, htold, hactive⟩ | ⟨hprimary, ⟨result, htold⟩, hactive⟩⟩ := read_uses v o
  · rw [htold]
    cases h with
    | primary k ha hp hf =>
      refine .primary (k + 1) (hactive.trans ha) ?_ ?_
      · rw [hp, ha, List.replicate_succ']
        rfl
      · rw [hf, ha]
        rfl
    | fallback k m ha hp hf =>
      refine .fallback k (m + 1) (hactive.trans ha) ?_ ?_
      · rw [hp, ha]
        simp [usesOf, toldOf]
      · rw [hf, ha, List.replicate_succ']
        rfl
  · rw [htold]
    cases h with
    | primary k ha hp hf =>
      refine .fallback (k + 1) 0 hactive ?_ ?_
      · rw [hp, List.replicate_succ', List.append_assoc]
        rfl
      · rw [hf]
        rfl
    | fallback k m ha hp hf =>
      rw [hprimary] at ha
      cases ha

/-- What is left to close is closed. -/
theorem Used.close {uses : Source → List Use} (h : Used v uses) (source : Source) (hsource : source = .fallback → v.hasFallback = true) :
    ∃ k, uses source ++ toldOf source v.close = List.replicate k .read ++ [.close] := by
  cases h with
  | primary k ha hp hf =>
    cases source with
    | primary => exact ⟨k, by rw [hp, Video.close, ha]; simp [toldOf]⟩
    | fallback => exact ⟨0, by rw [hf, Video.close, ha, hsource rfl]; rfl⟩
  | fallback k m ha hp hf =>
    cases source with
    | primary => exact ⟨k, by rw [hp, Video.close, ha]; simp [toldOf]⟩
    | fallback => exact ⟨m, by rw [hf, Video.close, ha]; simp [toldOf]⟩

-- One exception of the primary source, then three reads of the fallback without a frame.
example : ((after Video.read (Video.init true false 3, []) [.frame 'a', .raises 'x', .none, .none, .none]).2.map (·.1) : List (List (Source × Use))) =
    [[(.primary, .read)], [(.primary, .read), (.primary, .close)], [(.fallback, .read)], [(.fallback, .read)], [(.fallback, .read)]] := rfl

end RetailVision.FallbackVideo
