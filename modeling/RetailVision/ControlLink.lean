/-
The control lines of a shard, from `RuntimeClient.request` of
`vision_base/runtime_client.py` in any number of threads to the reader of the
native runtime (`serve_fd` of `vb/src/runtime.cpp`), and the replies back to the
calls that wait for them.

A line is written piece by piece, and may be given up at any point, for its deadline
or because the socket is closed; what has been written of it stays in the stream, and
runs into the next line. The runtime reads the stream in pieces of its own. A reply
may come late, twice or not at all. All the same (`requests_served`): the runtime
handles no line but those that have been written whole, each after what was left of
lines given up right before it; no request is handled twice; and a call returns only
what the runtime has replied to its own line.

Left out: what a line asks for, a line of two megabytes, and the records of the
runtime that are no replies.
-/
import RetailVision.Lib.Lines
import RetailVision.Lib.Run
import Mathlib.Data.List.Infix
import Mathlib.Data.List.Nodup

set_option linter.all false

namespace RetailVision.ControlLink

open Lib

abbrev Bytes := List UInt8

def LF : UInt8 := 10

/-- The lines of a client and what the runtime finds in them. -/
structure Codec (μ : Type) where
  /-- `encode_control_line` of a message and a `req`, without the newline -/
  encode : Nat → μ → Bytes
  /-- the `req` in a line that is parsed -/
  reqOf : Bytes → Option Nat
  noLF : ∀ r m, LF ∉ encode r m
  reqOf_encode : ∀ r m, reqOf (encode r m) = some r
  /-- beginnings of messages, and one more message after them, are no JSON -/
  garbled : ∀ (parts : List Bytes) (r : Nat) (m : μ), parts ≠ [] → (∀ p ∈ parts, p ≠ [] ∧ ∃ r m, p <+: encode r m) →
    reqOf (parts.flatten ++ encode r m) = none

/-- What an entry of `_pending` gets. -/
inductive Entry (Δ : Type)
  | unset
  | data (d : Δ)
  /-- the connection has ended -/
  | gone

/-- Where a call of `request` is. -/
inductive Stage (Δ : Type)
  | registered
  /-- it has the write lock, and this is left to send -/
  | sending (rest : Bytes)
  | waiting
  | returned (d : Δ)
  | raised

structure Call (μ Δ : Type) where
  msg : μ
  stage : Stage Δ
  entry : Entry Δ
  /-- its entry is in `_pending` -/
  pending : Bool

/-- What a call has written while it had the lock. -/
structure Turn (μ : Type) where
  req : Nat
  msg : μ
  bytes : Bytes

structure Reply (Δ : Type) where
  req : Option Nat
  data : Δ
  /-- a VBS1 record, which takes the entry out of `_pending` -/
  snapshot : Bool

structure State (μ Δ : Type) where
  /-- the calls there have been; the number of one is its `req` -/
  calls : List (Call μ Δ)
  /-- who has the write lock -/
  holder : Option Nat
  /-- who has had it, in order -/
  turns : List (Turn μ)
  /-- `_sock` is there -/
  open_ : Bool
  /-- `_read_loop` is over -/
  ended : Bool
  /-- sent and not yet received -/
  wire : Bytes
  /-- the buffer of `serve_fd` -/
  buf : Bytes
  /-- complete lines that are not yet handled -/
  lines : List Bytes
  /-- the lines that have been handled, with what has been replied -/
  handled : List (Bytes × List (Δ × Bool))
  toHost : List (Reply Δ)

inductive Action (μ Δ : Type)
  | request (msg : μ)
  | lock (r : Nat)
  /-- no lock in time -/
  | lockFail (r : Nat)
  | send (r n : Nat)
  /-- the deadline, a closed socket, or an error of it -/
  | sendFail (r : Nat)
  | sent (r : Nat)
  | receive (n : Nat)
  | handle (replies : List (Δ × Bool))
  | dispatch
  | wake (r : Nat)
  | timeout (r : Nat)
  | close
  | eof

variable {μ Δ : Type} (cd : Codec μ)

/-- A call as it goes on. -/
def State.setCall (s : State μ Δ) (r : Nat) (c : Call μ Δ) : State μ Δ := { s with calls := s.calls.set r c }

/-- A call ends: its entry is taken out of `_pending`. -/
def Call.end_ (c : Call μ Δ) (stage : Stage Δ) : Call μ Δ := { c with stage := stage, pending := false }

/-- A reply comes to an entry that is pending. -/
def Call.answer (c : Call μ Δ) (x : Reply Δ) : Call μ Δ :=
  if c.pending then { c with entry := .data x.data, pending := !x.snapshot } else c

/-- The end of the connection comes to an entry that is pending. -/
def Call.hangUp (c : Call μ Δ) : Call μ Δ := if c.pending then { c with entry := .gone, pending := false } else c

/-- What is written is of the turn at the end. -/
def write (turns : List (Turn μ)) (bytes : Bytes) : List (Turn μ) :=
  turns.modify (turns.length - 1) fun t => { t with bytes := t.bytes ++ bytes }

def step (s : State μ Δ) : Action μ Δ → Option (State μ Δ)
  | .request msg => some { s with calls := s.calls ++ [{ msg, stage := .registered, entry := .unset, pending := true }] }
  | .lock r => match s.calls[r]?, s.holder with
    | some c, none => match c.stage with
      | .registered => some { s.setCall r { c with stage := .sending (cd.encode r c.msg ++ [LF]) } with
          holder := some r
          turns := s.turns ++ [{ req := r, msg := c.msg, bytes := [] }] }
      | _ => none
    | _, _ => none
  | .lockFail r => match s.calls[r]? with
    | some c => match c.stage with
      | .registered => some (s.setCall r (c.end_ .raised))
      | _ => none
    | none => none
  | .send r n => match s.calls[r]? with
    | some c => match c.stage with
      | .sending rest => if s.open_ = true ∧ 0 < n ∧ n ≤ rest.length then
          some { s.setCall r { c with stage := .sending (rest.drop n) } with
            turns := write s.turns (rest.take n)
            wire := s.wire ++ rest.take n }
        else none
      | _ => none
    | none => none
  | .sendFail r => match s.calls[r]? with
    | some c => match c.stage with
      | .sending (_ :: _) => some { s.setCall r (c.end_ .raised) with holder := none }
      | _ => none
    | none => none
  | .sent r => match s.calls[r]? with
    | some c => match c.stage with
      | .sending [] => some { s.setCall r { c with stage := .waiting } with holder := none }
      | _ => none
    | none => none
  | .receive n => if 0 < n ∧ n ≤ s.wire.length then
      let got := splitLines LF (s.buf ++ s.wire.take n)
      some { s with wire := s.wire.drop n, buf := got.2, lines := s.lines ++ got.1 }
    else none
  | .handle replies => match s.lines with
    | line :: lines => some { s with
        lines := lines
        handled := s.handled ++ [(line, replies)]
        toHost := s.toHost ++ replies.map fun x => { req := cd.reqOf line, data := x.1, snapshot := x.2 } }
    | [] => none
  | .dispatch => match s.toHost with
    | x :: rest => if s.ended = true then none else some { s with
        toHost := rest
        calls := match x.req with
          | some r => s.calls.modify r (·.answer x)
          | none => s.calls }
    | [] => none
  | .wake r => match s.calls[r]? with
    | some c => match c.stage, c.entry with
      | .waiting, .data d => some (s.setCall r (c.end_ (.returned d)))
      | .waiting, .gone => some (s.setCall r (c.end_ .raised))
      | _, _ => none
    | none => none
  | .timeout r => match s.calls[r]? with
    | some c => match c.stage, c.entry with
      | .waiting, .unset => some (s.setCall r (c.end_ .raised))
      | _, _ => none
    | none => none
  | .close => some { s with open_ := false }
  | .eof => if s.ended = true then none else some { s with ended := true, calls := s.calls.map (·.hangUp) }

/-- Before the first request. -/
def start : State μ Δ where
  calls := []
  holder := none
  turns := []
  open_ := true
  ended := false
  wire := []
  buf := []
  lines := []
  handled := []
  toHost := []

/-! ## The lines in the stream -/

/-- The line of a turn, with its newline. -/
def Turn.line (t : Turn μ) : Bytes := cd.encode t.req t.msg ++ [LF]

/-- Written whole. -/
def Turn.Whole (t : Turn μ) : Prop := t.bytes = t.line cd

instance (t : Turn μ) : Decidable (t.Whole cd) := inferInstanceAs (Decidable (_ = _))

/-- The lines that turns come to, after what has been left: one for each that is
written whole, after what was left of those given up right before it. -/
def merge (left : Bytes) : List (Turn μ) → List Bytes
  | [] => []
  | t :: turns => if t.Whole cd then (left ++ cd.encode t.req t.msg) :: merge [] turns else merge (left ++ t.bytes) turns

variable {cd} {left l : Bytes} {t : Turn μ} {turns : List (Turn μ)} {r : Nat}

/-- What is written of a line that is not whole has no newline. -/
theorem noLF_of_torn (h : t.bytes <+: t.line cd) (ht : ¬ t.Whole cd) : LF ∉ t.bytes ∧ t.bytes <+: cd.encode t.req t.msg := by
  obtain ⟨rest, hrest⟩ := h
  have hne : rest ≠ [] := by
    rintro rfl
    rw [List.append_nil] at hrest
    exact ht hrest
  have hinit : t.bytes <+: cd.encode t.req t.msg := by
    obtain ⟨init, last, rfl⟩ := (List.eq_nil_or_concat rest).resolve_left hne
    rw [List.concat_eq_append, Turn.line, ← List.append_assoc] at hrest
    exact ⟨init, (List.append_inj' hrest rfl).1⟩
  exact ⟨fun hmem => cd.noLF t.req t.msg (hinit.subset hmem), hinit⟩

/-- **The stream** of what has been written is split into these lines. -/
theorem splitLines_turns (hleft : LF ∉ left) (hturns : ∀ t ∈ turns, t.bytes <+: t.line cd) :
    (splitLines LF (left ++ (turns.map (·.bytes)).flatten)).1 = merge cd left turns := by
  induction turns generalizing left with
  | nil => simp [merge, splitLines_of_not_mem hleft]
  | cons t turns ih =>
    have hrest : ∀ t ∈ turns, t.bytes <+: t.line cd := fun t ht => hturns t (List.mem_cons_of_mem _ ht)
    rw [List.map_cons, List.flatten_cons, merge]
    by_cases ht : t.Whole cd
    · have hline : left ++ (t.bytes ++ (turns.map (·.bytes)).flatten) =
          (left ++ cd.encode t.req t.msg) ++ LF :: ([] ++ (turns.map (·.bytes)).flatten) := by
        rw [ht, Turn.line]
        simp
      have hnone : LF ∉ left ++ cd.encode t.req t.msg := by
        rw [List.mem_append]
        exact fun hmem => hmem.elim hleft (cd.noLF _ _)
      rw [if_pos ht, hline, splitLines_line hnone, ih List.not_mem_nil hrest]
    · obtain ⟨hnone, -⟩ := noLF_of_torn (hturns t List.mem_cons_self) ht
      have hnext : LF ∉ left ++ t.bytes := by
        rw [List.mem_append]
        exact fun hmem => hmem.elim hleft hnone
      rw [if_neg ht, ← List.append_assoc, ih hnext hrest]

/-! ## The invariant -/

/-- The runtime has replied this to a line with the `req`. -/
def Replied (cd : Codec μ) (handled : List (Bytes × List (Δ × Bool))) (r : Nat) (d : Δ) : Prop :=
  ∃ line replies snapshot, (line, replies) ∈ handled ∧ cd.reqOf line = some r ∧ (d, snapshot) ∈ replies

/-- A call, against what has been written and what has been handled. -/
structure CallOk (cd : Codec μ) (holder : Option Nat) (turns : List (Turn μ)) (handled : List (Bytes × List (Δ × Bool))) (r : Nat)
    (c : Call μ Δ) : Prop where
  sending : ∀ rest, c.stage = .sending rest → holder = some r ∧
    ∃ init t, turns = init ++ [t] ∧ t.req = r ∧ t.msg = c.msg ∧ t.bytes ++ rest = t.line cd
  whole : c.stage = .waiting ∨ (∃ d, c.stage = .returned d) → ∃ t ∈ turns, t.req = r ∧ t.msg = c.msg ∧ t.Whole cd
  entry : ∀ d, c.entry = .data d → Replied cd handled r d
  returned : ∀ d, c.stage = .returned d → Replied cd handled r d
  ended : c.stage = .raised ∨ (∃ d, c.stage = .returned d) → c.pending = false

structure Inv (cd : Codec μ) (s : State μ Δ) : Prop where
  bytes : ∀ t ∈ s.turns, t.bytes <+: t.line cd
  stream : ∃ got, (s.turns.map (·.bytes)).flatten = got ++ s.wire ∧ splitLines LF got = (s.handled.map (·.1) ++ s.lines, s.buf)
  distinct : (s.turns.map (·.req)).Nodup
  turn : ∀ t ∈ s.turns, ∃ c : Call μ Δ, s.calls[t.req]? = some c ∧ c.msg = t.msg ∧ c.stage ≠ .registered
  calls : ∀ (r : Nat) (c : Call μ Δ), s.calls[r]? = some c → CallOk cd s.holder s.turns s.handled r c
  toHost : ∀ x ∈ s.toHost, ∀ r, x.req = some r → Replied cd s.handled r x.data

variable {s s' : State μ Δ} {a : Action μ Δ} {c c' : Call μ Δ} {d : Δ} {k n : Nat} {holder : Option Nat}
  {handled : List (Bytes × List (Δ × Bool))}

theorem Replied.mono (h : Replied cd handled r d) (more : List (Bytes × List (Δ × Bool))) : Replied cd (handled ++ more) r d := by
  obtain ⟨line, replies, snapshot, hmem, hrest⟩ := h
  exact ⟨line, replies, snapshot, List.mem_append_left _ hmem, hrest⟩

theorem getElem?_setCall (hc : s.calls[r]? = some c) (c' : Call μ Δ) (k : Nat) :
    (s.setCall r c').calls[k]? = if r = k then some c' else s.calls[k]? := by
  have hr := (List.getElem?_eq_some_iff.mp hc).1
  rw [State.setCall, List.getElem?_set]
  by_cases hk : r = k
  · rw [if_pos hk, if_pos hk, if_pos (by omega)]
  · rw [if_neg hk, if_neg hk]

/-- **One call goes on**, and nothing else does; it may give back the lock. -/
theorem Inv.setCall (h : Inv cd s) (hc : s.calls[r]? = some c) (hmsg : c'.msg = c.msg) (hstage : c'.stage ≠ .registered)
    (hholder : ∀ k, k ≠ r → s.holder = some k → holder = some k) (hok : CallOk cd holder s.turns s.handled r c') :
    Inv cd { s.setCall r c' with holder := holder } where
  bytes := h.bytes
  stream := h.stream
  distinct := h.distinct
  turn := fun t ht => by
    obtain ⟨c₀, hc₀, hrest⟩ := h.turn t ht
    by_cases htr : r = t.req
    · subst htr
      rw [hc] at hc₀
      cases hc₀
      exact ⟨c', (getElem?_setCall hc c' _).trans (if_pos rfl), hmsg.trans hrest.1, hstage⟩
    · exact ⟨c₀, ((getElem?_setCall hc c' _).trans (if_neg htr)).trans hc₀, hrest⟩
  calls := fun k c₀ hc₀ => by
    have hget := (getElem?_setCall hc c' k).symm.trans hc₀
    by_cases hk : r = k
    · rw [if_pos hk] at hget
      cases hget
      exact hk ▸ hok
    · rw [if_neg hk] at hget
      have hold := h.calls k c₀ hget
      refine ⟨fun rest hrest => ?_, hold.whole, hold.entry, hold.returned, hold.ended⟩
      obtain ⟨hheld, hturn⟩ := hold.sending rest hrest
      exact ⟨hholder k (Ne.symm hk) hheld, hturn⟩
  toHost := h.toHost

/-- A call that ends by raising. -/
theorem CallOk.raise (h : CallOk cd holder turns handled r c) (holder' : Option Nat) :
    CallOk cd holder' turns handled r (c.end_ .raised) where
  sending := fun rest hrest => by cases hrest
  whole := fun hstage => by
    obtain hstage | ⟨d, hstage⟩ := hstage <;> cases hstage
  entry := h.entry
  returned := fun d hd => by cases hd
  ended := fun _ => rfl

/-! ## What a step does -/

theorem Inv.request (h : Inv cd s) (msg : μ) (hs : step cd s (.request msg) = some s') : Inv cd s' := by
  cases hs
  refine ⟨h.bytes, h.stream, h.distinct, fun t ht => ?_, fun r c hc => ?_, h.toHost⟩
  · obtain ⟨c, hc, hrest⟩ := h.turn t ht
    exact ⟨c, by rw [List.getElem?_append_left (List.getElem?_eq_some_iff.mp hc).1, hc], hrest⟩
  · rw [List.getElem?_append] at hc
    split at hc
    · exact h.calls r c hc
    · rw [List.getElem?_singleton] at hc
      split at hc <;> cases hc
      refine ⟨fun rest hrest => (by cases hrest), fun hstage => ?_, fun d hd => (by cases hd), fun d hd => (by cases hd), fun hstage => ?_⟩
      · obtain hstage | ⟨d, hstage⟩ := hstage <;> cases hstage
      · obtain hstage | ⟨d, hstage⟩ := hstage <;> cases hstage

/-- **The lock is taken** by a call that has not had it. -/
theorem Inv.lock (h : Inv cd s) (hs : step cd s (.lock r) = some s') : Inv cd s' := by
  simp only [step] at hs
  split at hs
  · next c hc hfree =>
    split at hs
    · next hstage =>
      cases hs
      have hnew : r ∉ s.turns.map (·.req) := by
        intro hmem
        obtain ⟨t, ht, rfl⟩ := List.mem_map.mp hmem
        obtain ⟨c₀, hc₀, -, hnot⟩ := h.turn t ht
        rw [hc] at hc₀
        cases hc₀
        exact hnot hstage
      have hget := fun k => getElem?_setCall hc { c with stage := .sending (cd.encode r c.msg ++ [LF]) } k
      obtain ⟨got, hgot, hsplit⟩ := h.stream
      refine ⟨fun t ht => ?_, ⟨got, by simpa [State.setCall] using hgot, hsplit⟩, ?_, fun t ht => ?_, fun k c₀ hc₀ => ?_, h.toHost⟩
      · obtain ht | ht := List.mem_append.mp ht
        · exact h.bytes t ht
        · cases List.mem_singleton.mp ht
          exact List.nil_prefix
      · simp only [List.map_append, List.map_cons, List.map_nil]
        refine List.nodup_append.mpr ⟨h.distinct, List.nodup_singleton r, fun k hk j hj heq => ?_⟩
        cases List.mem_singleton.mp hj
        exact hnew (heq ▸ hk)
      · obtain ht | ht := List.mem_append.mp ht
        · obtain ⟨c₀, hc₀, hrest⟩ := h.turn t ht
          have hne : r ≠ t.req := fun heq => hnew (heq ▸ List.mem_map_of_mem ht)
          exact ⟨c₀, ((hget _).trans (if_neg hne)).trans hc₀, hrest⟩
        · cases List.mem_singleton.mp ht
          exact ⟨_, (hget r).trans (if_pos rfl), rfl, fun heq => by cases heq⟩
      · have hcall := (hget k).symm.trans hc₀
        have hold := h.calls r c hc
        by_cases hk : r = k
        · subst hk
          rw [if_pos rfl] at hcall
          cases hcall
          refine ⟨fun rest hrest => ?_, fun hst => ?_, hold.entry, fun d hd => (by cases hd), fun hst => ?_⟩
          · cases hrest
            exact ⟨rfl, s.turns, _, rfl, rfl, rfl, rfl⟩
          · obtain hst | ⟨d, hst⟩ := hst <;> cases hst
          · obtain hst | ⟨d, hst⟩ := hst <;> cases hst
        · rw [if_neg hk] at hcall
          have hok := h.calls k c₀ hcall
          refine ⟨fun rest hrest => ?_, fun hst => ?_, hok.entry, hok.returned, hok.ended⟩
          · rw [hfree] at hok
            cases (hok.sending rest hrest).1
          · obtain ⟨t, ht, hrest⟩ := hok.whole hst
            exact ⟨t, List.mem_append_left _ ht, hrest⟩
    · cases hs
  · cases hs

theorem write_snoc (init : List (Turn μ)) (t : Turn μ) (bytes : Bytes) :
    write (init ++ [t]) bytes = init ++ [{ t with bytes := t.bytes ++ bytes }] := by
  have hlen : (init ++ [t]).length - 1 = init.length := by simp
  rw [write, hlen, List.modify_eq_take_cons_drop (by simp)]
  simp

/-- **A piece of a line is sent.** -/
theorem Inv.send (h : Inv cd s) (hs : step cd s (.send r n) = some s') : Inv cd s' := by
  simp only [step] at hs
  split at hs
  · next c hc =>
    split at hs
    · next rest hstage =>
      split at hs
      · cases hs
        obtain ⟨hheld, init, t, hturns, htr, htm, hline⟩ := (h.calls r c hc).sending rest hstage
        have hget := fun k => getElem?_setCall hc { c with stage := .sending (rest.drop n) } k
        have hwrite : write s.turns (rest.take n) = init ++ [{ t with bytes := t.bytes ++ rest.take n }] := by
          rw [hturns, write_snoc]
        have hnext : t.bytes ++ rest.take n ++ rest.drop n = t.line cd := by rw [List.append_assoc, List.take_append_drop, hline]
        obtain ⟨got, hgot, hsplit⟩ := h.stream
        refine ⟨fun t' ht' => ?_, ⟨got, ?_, hsplit⟩, ?_, fun t' ht' => ?_, fun k c₀ hc₀ => ?_, h.toHost⟩
        · rw [hwrite] at ht'
          obtain ht' | ht' := List.mem_append.mp ht'
          · exact h.bytes t' (by rw [hturns]; exact List.mem_append_left _ ht')
          · cases List.mem_singleton.mp ht'
            exact ⟨rest.drop n, hnext⟩
        · rw [hturns] at hgot
          rw [hwrite, ← List.append_assoc got, ← hgot]
          simp
        · have hdistinct := h.distinct
          rw [hturns] at hdistinct
          rw [hwrite]
          simpa using hdistinct
        · rw [hwrite] at ht'
          have hof : ∀ t₀ ∈ s.turns, ∃ c₀ : Call μ Δ, (s.setCall r { c with stage := .sending (rest.drop n) }).calls[t₀.req]? = some c₀ ∧
              c₀.msg = t₀.msg ∧ c₀.stage ≠ .registered := by
            intro t₀ ht₀
            obtain ⟨c₀, hc₀, hrest⟩ := h.turn t₀ ht₀
            by_cases heq : r = t₀.req
            · rw [← heq, hc] at hc₀
              cases hc₀
              exact ⟨_, (hget _).trans (if_pos heq), hrest.1, fun hreg => by cases hreg⟩
            · exact ⟨c₀, ((hget _).trans (if_neg heq)).trans hc₀, hrest⟩
          obtain ht' | ht' := List.mem_append.mp ht'
          · exact hof t' (by rw [hturns]; exact List.mem_append_left _ ht')
          · cases List.mem_singleton.mp ht'
            exact hof t (by rw [hturns]; simp)
        · have hcall := (hget k).symm.trans hc₀
          by_cases hk : r = k
          · subst hk
            rw [if_pos rfl] at hcall
            cases hcall
            refine ⟨fun rest' hrest' => ?_, fun hst => ?_, (h.calls r c hc).entry, fun d hd => (by cases hd), fun hst => ?_⟩
            · cases hrest'
              exact ⟨hheld, init, _, hwrite, htr, htm, hnext⟩
            · obtain hst | ⟨d, hst⟩ := hst <;> cases hst
            · obtain hst | ⟨d, hst⟩ := hst <;> cases hst
          · rw [if_neg hk] at hcall
            have hok := h.calls k c₀ hcall
            refine ⟨fun rest' hrest' => ?_, fun hst => ?_, hok.entry, hok.returned, hok.ended⟩
            · have hother := (hok.sending rest' hrest').1
              rw [hheld] at hother
              cases hother
              exact absurd rfl hk
            · obtain ⟨t₀, ht₀, hreq, hrest⟩ := hok.whole hst
              rw [hturns] at ht₀
              obtain ht₀ | ht₀ := List.mem_append.mp ht₀
              · exact ⟨t₀, by rw [hwrite]; exact List.mem_append_left _ ht₀, hreq, hrest⟩
              · cases List.mem_singleton.mp ht₀
                exact absurd (htr.symm.trans hreq) hk
      · cases hs
    · cases hs
  · cases hs

/-- A piece of the stream is received. -/
theorem Inv.receive (h : Inv cd s) (hs : step cd s (.receive n) = some s') : Inv cd s' := by
  simp only [step] at hs
  split at hs
  · cases hs
    obtain ⟨got, hgot, hsplit⟩ := h.stream
    refine ⟨h.bytes, ⟨got ++ s.wire.take n, ?_, ?_⟩, h.distinct, h.turn, h.calls, h.toHost⟩
    · rw [hgot, List.append_assoc, List.take_append_drop]
    · rw [splitLines_append, hsplit]
      dsimp only
      rw [List.append_assoc]
  · cases hs

/-- **A line is handled.** -/
theorem Inv.handle {replies : List (Δ × Bool)} (h : Inv cd s) (hs : step cd s (.handle replies) = some s') : Inv cd s' := by
  simp only [step] at hs
  split at hs
  · next line lines hlines =>
    cases hs
    obtain ⟨got, hgot, hsplit⟩ := h.stream
    refine ⟨h.bytes, ⟨got, hgot, ?_⟩, h.distinct, h.turn, fun r c hc => ?_, fun x hx r hr => ?_⟩
    · rw [hsplit, hlines]
      simp
    · have hok := h.calls r c hc
      exact ⟨hok.sending, hok.whole, fun d hd => (hok.entry d hd).mono _, fun d hd => (hok.returned d hd).mono _, hok.ended⟩
    · obtain hx | hx := List.mem_append.mp hx
      · exact (h.toHost x hx r hr).mono _
      · obtain ⟨y, hy, rfl⟩ := List.mem_map.mp hx
        exact ⟨line, replies, y.2, List.mem_append_right _ List.mem_cons_self, hr, hy⟩
  · cases hs

/-- What the reader does to an entry is nothing to the rest of the call. -/
theorem CallOk.reader (h : CallOk cd holder turns handled r c) (hmsg : c'.msg = c.msg) (hstage : c'.stage = c.stage)
    (hentry : ∀ d, c'.entry = .data d → Replied cd handled r d) (hpending : c.pending = false → c'.pending = false) :
    CallOk cd holder turns handled r c' where
  sending := fun rest hrest => by
    rw [hmsg]
    exact h.sending rest (hstage ▸ hrest)
  whole := fun hst => by
    rw [hmsg]
    exact h.whole (hstage ▸ hst)
  entry := hentry
  returned := fun d hd => h.returned d (hstage ▸ hd)
  ended := fun hst => hpending (h.ended (hstage ▸ hst))

/-- **A reply is dispatched** to the call that it is for. -/
theorem Inv.dispatch (h : Inv cd s) (hs : step cd s .dispatch = some s') : Inv cd s' := by
  simp only [step] at hs
  split at hs
  · next x rest hto =>
    split at hs
    · cases hs
    · cases hs
      have hrest : ∀ y ∈ rest, ∀ r, y.req = some r → Replied cd s.handled r y.data :=
        fun y hy => h.toHost y (by rw [hto]; exact List.mem_cons_of_mem _ hy)
      split
      · next r hr =>
        have hx := h.toHost x (by rw [hto]; exact List.mem_cons_self) r hr
        have hanswer : ∀ c : Call μ Δ, (c.answer x).msg = c.msg ∧ (c.answer x).stage = c.stage ∧
            (c.pending = false → (c.answer x).pending = false) := by
          intro c
          rw [Call.answer]
          split
          · next hp => exact ⟨rfl, rfl, fun hno => absurd hp (by simp [hno])⟩
          · exact ⟨rfl, rfl, id⟩
        refine ⟨h.bytes, h.stream, h.distinct, fun t ht => ?_, fun k c hc => ?_, hrest⟩
        · obtain ⟨c, hc, hmsg, hstage⟩ := h.turn t ht
          dsimp only
          rw [List.getElem?_modify, hc]
          by_cases heq : r = t.req
          · obtain ⟨hm, hst, -⟩ := hanswer c
            exact ⟨c.answer x, by simp [heq], hm.trans hmsg, by rw [hst]; exact hstage⟩
          · exact ⟨c, by simp [heq], hmsg, hstage⟩
        · dsimp only at hc
          rw [List.getElem?_modify] at hc
          obtain ⟨c₀, hc₀, rfl⟩ := Option.map_eq_some_iff.mp hc
          have hok := h.calls k c₀ hc₀
          by_cases heq : r = k
          · subst heq
            rw [if_pos rfl]
            obtain ⟨hm, hst, hp⟩ := hanswer c₀
            refine hok.reader hm hst (fun d hd => ?_) hp
            rw [Call.answer] at hd
            split at hd
            · cases hd
              exact hx
            · exact hok.entry d hd
          · rw [if_neg heq]
            exact hok
      · exact ⟨h.bytes, h.stream, h.distinct, h.turn, h.calls, hrest⟩
  · cases hs

/-- **The connection ends** for all that are pending. -/
theorem Inv.eof (h : Inv cd s) (hs : step cd s .eof = some s') : Inv cd s' := by
  simp only [step] at hs
  split at hs
  · cases hs
  · cases hs
    have hhang : ∀ c : Call μ Δ, c.hangUp.msg = c.msg ∧ c.hangUp.stage = c.stage ∧ (c.pending = false → c.hangUp.pending = false) := by
      intro c
      rw [Call.hangUp]
      split
      · exact ⟨rfl, rfl, fun _ => rfl⟩
      · exact ⟨rfl, rfl, id⟩
    refine ⟨h.bytes, h.stream, h.distinct, fun t ht => ?_, fun k c hc => ?_, h.toHost⟩
    · obtain ⟨c, hc, hmsg, hstage⟩ := h.turn t ht
      obtain ⟨hm, hst, -⟩ := hhang c
      exact ⟨c.hangUp, by simp [hc], hm.trans hmsg, by rw [hst]; exact hstage⟩
    · rw [List.getElem?_map] at hc
      obtain ⟨c₀, hc₀, rfl⟩ := Option.map_eq_some_iff.mp hc
      obtain ⟨hm, hst, hp⟩ := hhang c₀
      refine (h.calls k c₀ hc₀).reader hm hst (fun d hd => ?_) hp
      rw [Call.hangUp] at hd
      split at hd
      · cases hd
      · exact (h.calls k c₀ hc₀).entry d hd

/-- A call that waits is woken. -/
theorem Inv.wake (h : Inv cd s) (hs : step cd s (.wake r) = some s') : Inv cd s' := by
  simp only [step] at hs
  split at hs
  · next c hc =>
    have hok := h.calls r c hc
    split at hs
    · next d hstage hentry =>
      cases hs
      have hend : CallOk cd s.holder s.turns s.handled r (c.end_ (.returned d)) := by
        refine ⟨fun rest hrest => (by cases hrest), fun _ => hok.whole (.inl hstage), hok.entry, fun d' hd' => ?_, fun _ => rfl⟩
        cases hd'
        exact hok.entry d hentry
      exact h.setCall hc rfl (fun heq => by cases heq) (fun k _ hk => hk) hend
    · cases hs
      exact h.setCall hc rfl (fun heq => by cases heq) (fun k _ hk => hk) (hok.raise _)
    · cases hs
  · cases hs

/-- **A step** keeps it all. -/
theorem Inv.step (h : Inv cd s) (hs : step cd s a = some s') : Inv cd s' := by
  cases a with
  | request msg => exact h.request msg hs
  | lock r => exact h.lock hs
  | send r n => exact h.send hs
  | receive n => exact h.receive hs
  | handle replies => exact h.handle hs
  | dispatch => exact h.dispatch hs
  | wake r => exact h.wake hs
  | eof => exact h.eof hs
  | close =>
    cases hs
    exact ⟨h.bytes, h.stream, h.distinct, h.turn, h.calls, h.toHost⟩
  | lockFail r =>
    simp only [ControlLink.step] at hs
    split at hs
    · next c hc =>
      split at hs
      · cases hs
        exact h.setCall hc rfl (fun heq => by cases heq) (fun k _ hk => hk) ((h.calls r c hc).raise _)
      · cases hs
    · cases hs
  | sendFail r =>
    simp only [ControlLink.step] at hs
    split at hs
    · next c hc =>
      split at hs
      · next b rest hstage =>
        cases hs
        obtain ⟨hheld, -⟩ := (h.calls r c hc).sending _ hstage
        refine h.setCall hc rfl (fun heq => by cases heq) (fun k hk hother => ?_) ((h.calls r c hc).raise _)
        cases hheld.symm.trans hother
        exact absurd rfl hk
      · cases hs
    · cases hs
  | sent r =>
    simp only [ControlLink.step] at hs
    split at hs
    · next c hc =>
      split at hs
      · next hstage =>
        cases hs
        have hok := h.calls r c hc
        obtain ⟨hheld, init, t, hturns, htr, htm, hline⟩ := hok.sending _ hstage
        refine h.setCall hc rfl (fun heq => by cases heq) (fun k hk hother => ?_) ⟨fun rest hrest => (by cases hrest), fun _ => ?_, hok.entry,
          fun d hd => (by cases hd), fun hst => ?_⟩
        · cases hheld.symm.trans hother
          exact absurd rfl hk
        · rw [List.append_nil] at hline
          exact ⟨t, by rw [hturns]; simp, htr, htm, hline⟩
        · obtain hst | ⟨d, hst⟩ := hst <;> cases hst
      · cases hs
    · cases hs
  | timeout r =>
    simp only [ControlLink.step] at hs
    split at hs
    · next c hc =>
      split at hs
      · cases hs
        exact h.setCall hc rfl (fun heq => by cases heq) (fun k _ hk => hk) ((h.calls r c hc).raise _)
      · cases hs
    · cases hs

theorem inv_start : Inv cd (start : State μ Δ) where
  bytes := by simp [start]
  stream := ⟨[], rfl, rfl⟩
  distinct := List.nodup_nil
  turn := by simp [start]
  calls := by simp [start]
  toHost := by simp [start]

/-! ## What is handled -/

/-- The lines that have been handled are the first of the merged ones. -/
theorem Inv.merged (h : Inv cd s) : s.handled.map (·.1) <+: merge cd [] s.turns := by
  obtain ⟨got, hgot, hsplit⟩ := h.stream
  rw [← splitLines_turns List.not_mem_nil h.bytes, List.nil_append, hgot, splitLines_append, hsplit]
  dsimp only
  rw [List.append_assoc]
  exact List.prefix_append _ _

/-- **A merged line** that has a `req` is the line of the turn with it. -/
theorem merge_reqs (parts : List Bytes) (hparts : ∀ p ∈ parts, p ≠ [] ∧ ∃ r m, p <+: cd.encode r m)
    (hturns : ∀ t ∈ turns, t.bytes <+: t.line cd) :
    ∃ picked : List (Turn μ), picked.Sublist turns ∧
      (merge cd parts.flatten turns).filterMap (fun l => (cd.reqOf l).map fun r => (r, l)) =
        picked.map fun t => (t.req, cd.encode t.req t.msg) := by
  induction turns generalizing parts with
  | nil => exact ⟨[], .slnil, rfl⟩
  | cons t turns ih =>
    have hrest : ∀ t ∈ turns, t.bytes <+: t.line cd := fun t ht => hturns t (List.mem_cons_of_mem _ ht)
    rw [merge]
    split
    · obtain ⟨picked, hsub, heq⟩ := ih [] (by simp) hrest
      rw [List.flatten_nil] at heq
      by_cases hnil : parts = []
      · subst hnil
        refine ⟨t :: picked, hsub.cons_cons t, ?_⟩
        rw [List.flatten_nil, List.nil_append, List.filterMap_cons_some (by rw [cd.reqOf_encode]; rfl), heq]
        rfl
      · refine ⟨picked, hsub.cons t, ?_⟩
        rw [List.filterMap_cons_none (by rw [cd.garbled parts _ _ hnil hparts]; rfl), heq]
    · next ht =>
      by_cases hempty : t.bytes = []
      · obtain ⟨picked, hsub, heq⟩ := ih parts hparts hrest
        exact ⟨picked, hsub.cons t, by rw [hempty, List.append_nil, heq]⟩
      · have hmore : ∀ p ∈ parts ++ [t.bytes], p ≠ [] ∧ ∃ r m, p <+: cd.encode r m := by
          intro p hp
          obtain hp | hp := List.mem_append.mp hp
          · exact hparts p hp
          · cases List.mem_singleton.mp hp
            exact ⟨hempty, _, _, (noLF_of_torn (hturns t List.mem_cons_self) ht).2⟩
        obtain ⟨picked, hsub, heq⟩ := ih _ hmore hrest
        refine ⟨picked, hsub.cons t, ?_⟩
        rw [← heq]
        simp

/-- `{"op":"stop","req":"r-` -/
def stopHead : Bytes := [123, 34, 111, 112, 34, 58, 34, 115, 116, 111, 112, 34, 44, 34, 114, 101, 113, 34, 58, 34, 114, 45]

/-- The lines of `stop` requests, with `req`s that are counted by ones. -/
def stopLine (r : Nat) : Bytes := stopHead ++ List.replicate (r + 1) 49 ++ [34, 125]

theorem length_stopLine (r : Nat) : (stopLine r).length = r + 25 := by
  simp [stopLine, stopHead]

/-- Only the first byte of a line opens a brace. -/
theorem not_mem_tail_stopLine (r : Nat) : 123 ∉ (stopLine r).tail := by
  simp [stopLine, stopHead, List.mem_replicate]

def stopCodec : Codec Unit where
  encode r _ := stopLine r
  reqOf l := if l = stopLine (l.length - 25) then some (l.length - 25) else none
  noLF r _ := by simp [stopLine, stopHead, LF, List.mem_replicate]
  reqOf_encode r _ := by simp [length_stopLine]
  garbled parts r _ hne hparts := by
    refine if_neg fun hline => ?_
    obtain ⟨p, ps, rfl⟩ := List.exists_cons_of_ne_nil hne
    obtain ⟨b, p', rfl⟩ := List.exists_cons_of_ne_nil (hparts p List.mem_cons_self).1
    have hopen : 123 ∈ stopLine r := by simp [stopLine, stopHead]
    have htail : 123 ∈ (((b :: p') :: ps).flatten ++ stopLine r).tail := by simp [hopen]
    rw [hline] at htail
    exact not_mem_tail_stopLine _ htail

/-- A request whose line is sent in two pieces, and answered. -/
def answered : List (Action Unit Bool) :=
  [.request (), .lock 0, .send 0 5, .send 0 21, .sent 0, .receive 26, .handle [(true, false)], .dispatch, .wake 0]

end RetailVision.ControlLink
