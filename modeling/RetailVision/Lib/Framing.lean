/-
Records of a stream that arrives in pieces. A reader takes one record off the
front of a buffer, or needs more of it, or rejects it; `drain` takes records as
long as there are any. What a reader makes of a buffer is not to change as the
buffer grows, and a record is to shorten it (`Framed`): then it does not matter
how the stream was cut (`feeds_eq_drain`), and taking records comes to an end
(`drain_ne_stuck`).
-/
import Mathlib.Data.List.Basic

set_option linter.all false

namespace RetailVision.Lib

variable {β ρ ε : Type*}

/-- What a reader makes of a buffer. -/
inductive Taken (β ρ ε : Type*)
  | more
  | bad (err : ε)
  | got (r : ρ) (rest : List β)

/-- How taking records ends: for more of the stream, at what is rejected, or
not at all. -/
inductive Stop (β ε : Type*)
  | more (rest : List β)
  | bad (err : ε) (rest : List β)
  | stuck

/-- Takes records off a buffer as long as there are any. -/
def drain (take : List β → Taken β ρ ε) (buf : List β) : List ρ × Stop β ε :=
  match take buf with
  | .more => ([], .more buf)
  | .bad err => ([], .bad err buf)
  | .got r rest =>
    if rest.length < buf.length then (r :: (drain take rest).1, (drain take rest).2)
    else ([r], .stuck)
termination_by buf.length

/-- A piece of the stream arrives; after a rejection it is not looked at. -/
def feed (take : List β → Taken β ρ ε) : Stop β ε → List β → List ρ × Stop β ε
  | .more rest, piece => drain take (rest ++ piece)
  | .bad err rest, piece => ([], .bad err (rest ++ piece))
  | .stuck, _ => ([], .stuck)

def feeds (take : List β → Taken β ρ ε) : Stop β ε → List (List β) → List ρ × Stop β ε
  | s, [] => ([], s)
  | s, piece :: pieces =>
    ((feed take s piece).1 ++ (feeds take (feed take s piece).2 pieces).1, (feeds take (feed take s piece).2 pieces).2)

/-- A reader that a growing buffer does not change. -/
structure Framed (take : List β → Taken β ρ ε) : Prop where
  shrinks : ∀ {buf r rest}, take buf = .got r rest → rest.length < buf.length
  got_append : ∀ {buf r rest} more, take buf = .got r rest → take (buf ++ more) = .got r (rest ++ more)
  bad_append : ∀ {buf err} more, take buf = .bad err → take (buf ++ more) = .bad err

variable {take : List β → Taken β ρ ε} {buf rest : List β} {r : ρ} {err : ε}

theorem drain_more (h : take buf = .more) : drain take buf = ([], .more buf) := by rw [drain, h]

theorem drain_bad (h : take buf = .bad err) : drain take buf = ([], .bad err buf) := by rw [drain, h]

theorem drain_got (hf : Framed take) (h : take buf = .got r rest) :
    drain take buf = (r :: (drain take rest).1, (drain take rest).2) := by
  rw [drain, h]
  exact if_pos (hf.shrinks h)

/-- Records are taken one by one, each shorter than the buffer it is taken off. -/
@[elab_as_elim] theorem drain_induction (hf : Framed take) {P : List β → Prop} (more : ∀ buf, take buf = .more → P buf)
    (bad : ∀ buf err, take buf = .bad err → P buf) (got : ∀ buf r rest, take buf = .got r rest → P rest → P buf) (buf) :
    P buf := by
  induction hn : buf.length using Nat.strongRecOn generalizing buf with
  | ind n ih =>
    cases h : take buf with
    | more => exact more buf h
    | bad err => exact bad buf err h
    | got r rest =>
      have hlt := hf.shrinks h
      exact got buf r rest h (ih rest.length (hn ▸ hlt) rest rfl)

/-- **Taking records comes to an end.** -/
theorem drain_ne_stuck (hf : Framed take) : (drain take buf).2 ≠ .stuck := by
  induction buf using drain_induction hf with
  | more buf h =>
    rw [drain_more h]
    exact fun h => by cases h
  | bad buf err h =>
    rw [drain_bad h]
    exact fun h => by cases h
  | got buf r rest h ih =>
    rw [drain_got hf h]
    exact ih

/-- A buffer of which nothing more can be taken. -/
theorem drain_rest (hf : Framed take) (h : (drain take buf).2 = .more rest) : take rest = .more := by
  induction buf using drain_induction hf with
  | more buf hmore =>
    rw [drain_more hmore] at h
    cases h
    exact hmore
  | bad buf err hbad =>
    rw [drain_bad hbad] at h
    cases h
  | got buf r rest' hgot ih =>
    rw [drain_got hf hgot] at h
    exact ih h

/-- The records of a longer buffer: those that were there, and those that a
piece brings. -/
theorem drain_append (hf : Framed take) (more : List β) : drain take (buf ++ more) =
    ((drain take buf).1 ++ (feed take (drain take buf).2 more).1, (feed take (drain take buf).2 more).2) := by
  induction buf using drain_induction hf with
  | more buf h =>
    rw [drain_more h]
    rfl
  | bad buf err h =>
    rw [drain_bad h, drain_bad (hf.bad_append more h)]
    rfl
  | got buf r rest h ih =>
    rw [drain_got hf h, drain_got hf (hf.got_append more h), ih]
    rfl

theorem feeds_bad (pieces : List (List β)) : feeds take (.bad err rest) pieces = ([], .bad err (rest ++ pieces.flatten)) := by
  induction pieces generalizing rest with
  | nil => rw [feeds, List.flatten_nil, List.append_nil]
  | cons piece pieces ih =>
    rw [feeds, feed, ih, List.flatten_cons, List.append_assoc]
    rfl

/-- **It does not matter how a stream is cut.** -/
theorem feeds_eq_drain (hf : Framed take) (hrest : take rest = .more) (pieces : List (List β)) :
    feeds take (.more rest) pieces = drain take (rest ++ pieces.flatten) := by
  induction pieces generalizing rest with
  | nil => rw [feeds, List.flatten_nil, List.append_nil, drain_more hrest]
  | cons piece pieces ih =>
    have happ : drain take (rest ++ piece ++ pieces.flatten) = _ := drain_append hf pieces.flatten
    rw [feeds, feed, List.flatten_cons, ← List.append_assoc, happ]
    cases h : (drain take (rest ++ piece)).2 with
    | more rest' =>
      rw [ih (drain_rest hf h)]
      rfl
    | bad err rest' =>
      rw [feeds_bad]
      rfl
    | stuck => exact absurd h (drain_ne_stuck hf)

/-- The records that a stream is made of are those that are taken. -/
theorem drain_records (hf : Framed take) {σ : Type*} {code : σ → List β} {made : σ → ρ} {xs : List σ} (rest : List β)
    (hcode : ∀ x ∈ xs, take (code x) = .got (made x) []) :
    drain take (xs.flatMap code ++ rest) = (xs.map made ++ (drain take rest).1, (drain take rest).2) := by
  induction xs with
  | nil => rfl
  | cons x xs ih =>
    obtain ⟨hx, hxs⟩ := List.forall_mem_cons.mp hcode
    rw [List.flatMap_cons, List.append_assoc, drain_got hf (hf.got_append _ hx), List.nil_append, ih hxs]
    rfl

/-- Of a stream that is cut short, the first of its records are taken, and
nothing is rejected. -/
theorem drain_prefix (hf : Framed take) (hnil : take [] = .more) {σ : Type*} {code : σ → List β} {made : σ → ρ} {xs : List σ}
    (hcode : ∀ x ∈ xs, take (code x) = .got (made x) []) (hbuf : buf <+: xs.flatMap code) :
    (drain take buf).1 <+: xs.map made ∧ ∃ rest, (drain take buf).2 = .more rest := by
  obtain ⟨more, hmore⟩ := hbuf
  have hall : drain take (xs.flatMap code) = (xs.map made, .more []) := by
    have hrecords := drain_records hf [] hcode
    rwa [List.append_nil, drain_more hnil, List.append_nil] at hrecords
  rw [← hmore, drain_append hf more, Prod.mk.injEq] at hall
  refine ⟨⟨_, hall.1⟩, ?_⟩
  cases hstop : (drain take buf).2 with
  | more rest => exact ⟨rest, rfl⟩
  | bad err rest =>
    rw [hstop] at hall
    cases hall.2
  | stuck => exact absurd hstop (drain_ne_stuck hf)

end RetailVision.Lib
