/-
The requests of the supervisor to its shards (`_send_op`, `_reader_loop`): the
callers, each with a timeout of its own, the reader threads, and `_pending`,
where a reply lies under the name of its request until its caller takes it.

The readers put in a reply without knowing whether anyone waits for it. A caller
takes the one of its own request only while it waits, so the table is empty once
nobody does exactly when each reply came in time (`kept_iff`).
-/
import RetailVision.Lib.Dict
import RetailVision.Lib.Run
import Mathlib.Algebra.Order.Ring.Rat
import Mathlib.Logic.Function.Basic

set_option linter.all false

namespace RetailVision.SendOps

open RetailVision.Lib

/-- A call of `_send_op`, by the number of its request. -/
inductive Call
  | idle
  /-- numbered, before or within `conn.send` -/
  | sending (n : Nat) (timeout : ℚ)
  /-- in the loop -/
  | waiting (n : Nat) (deadline : ℚ)

namespace Call

def number : Call → Option Nat
  | idle => none
  | sending n _ | waiting n _ => some n

end Call

/-- What a call returns; an exception other than `OSError` and `ValueError`
leaves it too. -/
inductive Returned (Msg : Type)
  | reply (msg : Msg)
  | error (text : String)
  | raised

def reqName (n : Nat) : String := "s-" ++ toString n

structure State (Msg : Type) where
  reqCounter : Nat
  pending : Dict String Msg
  /-- by thread -/
  calls : Nat → Call
  /-- `time.monotonic()` -/
  now : ℚ
  /-- what the calls returned, in order -/
  returned : List (Nat × Returned Msg)

variable {Msg : Type}

namespace State

def start : State Msg where
  reqCounter := 0
  pending := .empty
  calls := fun _ => .idle
  now := 0
  returned := []

/-- The thread goes on with its call. -/
def goOn (s : State Msg) (i : Nat) (c : Call) : State Msg := { s with calls := Function.update s.calls i c }

/-- The call is over. -/
def finish (s : State Msg) (i : Nat) (r : Returned Msg) : State Msg :=
  { s.goOn i .idle with returned := s.returned ++ [(i, r)] }

/-- No call is in progress. -/
def Idle (s : State Msg) : Prop := ∀ i, s.calls i = .idle

end State

inductive Action (Msg : Type)
  /-- a thread enters `_send_op`, under `_req_cv` -/
  | call (i : Nat) (timeout : ℚ)
  /-- `conn.send` returns, and the deadline is set -/
  | sent (i : Nat)
  /-- `conn.send` raises: the text of an `OSError` or `ValueError`, or `none` -/
  | sendRaises (i : Nat) (text : Option String)
  /-- one turn of the loop, under `_req_cv` -/
  | look (i : Nat)
  /-- a reader thread receives a reply, under `_req_cv` -/
  | deliver (req : String) (msg : Msg)
  /-- time passes -/
  | tick (d : ℚ)

def step (s : State Msg) : Action Msg → Option (State Msg)
  | .call i timeout =>
    match s.calls i with
    | .idle => some { s.goOn i (.sending (s.reqCounter + 1) timeout) with reqCounter := s.reqCounter + 1 }
    | _ => none
  | .sent i =>
    match s.calls i with
    | .sending n timeout => some (s.goOn i (.waiting n (s.now + timeout)))
    | _ => none
  | .sendRaises i text =>
    match s.calls i with
    | .sending _ _ =>
      match text with
      | some text => some (s.finish i (.error ("shard unreachable: " ++ text)))
      | none => some (s.finish i .raised)
    | _ => none
  | .look i =>
    match s.calls i with
    | .waiting n deadline =>
      match s.pending.get? (reqName n) with
      | some msg => some { s.finish i (.reply msg) with pending := s.pending.erase (reqName n) }
      | none => if deadline - s.now ≤ 0 then some (s.finish i (.error "shard request timed out")) else some s
    | _ => none
  | .deliver req msg => some { s with pending := s.pending.set req msg }
  | .tick d => if 0 ≤ d then some { s with now := s.now + d } else none

/-! ## What a step does -/

variable {s t : State Msg} {a : Action Msg} {as : List (Action Msg)} {i j n m : Nat} {req : String}

theorem reqName_injective (h : reqName n = reqName m) : n = m := by
  have hlist := congrArg String.toList h
  simp only [reqName, String.toList_append, List.append_cancel_left_eq] at hlist
  have hdigits : Nat.toDigits 10 n = Nat.toDigits 10 m := by
    rw [← Nat.toList_repr, ← Nat.toList_repr]
    exact hlist
  rw [← Nat.ofDigitChars_toDigits (n := n) (by omega : 1 < 10) (by omega), hdigits,
    Nat.ofDigitChars_toDigits (by omega) (by omega)]

/-- The number of the request a thread's call is for. -/
def State.number (s : State Msg) (i : Nat) : Option Nat := (s.calls i).number

theorem number_update {c : Call} : (fun j => (Function.update s.calls i c j).number) = Function.update s.number i c.number := by
  funext j
  by_cases hj : j = i
  · subst hj; simp
  · simp [hj, State.number]

theorem update_eq_some {f : Nat → Option Nat} {v : Option Nat} (h : Function.update f i v j = some m) :
    (j = i ∧ v = some m) ∨ f j = some m := by
  by_cases hj : j = i
  · subst hj
    exact .inl ⟨rfl, by simpa using h⟩
  · exact .inr (by simpa [hj] using h)

theorem update_none_eq_some {f : Nat → Option Nat} (h : Function.update f i none j = some m) : j ≠ i ∧ f j = some m := by
  have hne : j ≠ i := by
    rintro rfl
    simp at h
  exact ⟨hne, by simpa [hne] using h⟩

/-- A call whose send raises leaves the table as it is. -/
theorem sendRaises_step {text : Option String} (h : step s (.sendRaises i text) = some t) :
    (∃ n, s.number i = some n) ∧ t.number = Function.update s.number i none ∧ t.reqCounter = s.reqCounter ∧
      t.pending = s.pending := by
  simp only [step] at h
  split at h
  · next n timeout hc =>
    have hn : s.number i = some n := by rw [State.number, hc]; rfl
    split at h <;> cases h
    · exact ⟨⟨n, hn⟩, number_update, rfl, rfl⟩
    · exact ⟨⟨n, hn⟩, number_update, rfl, rfl⟩
  · cases h

/-- A call enters, or ends without its reply left unless its send raised, or a
reply is put in, or none of it. -/
theorem step_cases (h : step s a = some t) :
    (t.number = s.number ∧ t.reqCounter = s.reqCounter ∧ t.pending = s.pending) ∨
    (∃ i, s.number i = none ∧ t.number = Function.update s.number i (some (s.reqCounter + 1)) ∧
      t.reqCounter = s.reqCounter + 1 ∧ t.pending = s.pending) ∨
    (∃ i n, s.number i = some n ∧ t.number = Function.update s.number i none ∧ t.reqCounter = s.reqCounter ∧
      ((∀ req, req ∈ t.pending.keys ↔ req ∈ s.pending.keys ∧ req ≠ reqName n) ∨
        ∃ text, a = .sendRaises i text ∧ t.pending = s.pending)) ∨
    (∃ req msg, a = .deliver req msg ∧ t.number = s.number ∧ t.reqCounter = s.reqCounter ∧
      t.pending = s.pending.set req msg) := by
  cases a with
  | call i timeout =>
    simp only [step] at h
    split at h
    · next hc =>
      cases h
      exact .inr (.inl ⟨i, by rw [State.number, hc]; rfl, number_update, rfl, rfl⟩)
    · cases h
  | sent i =>
    simp only [step] at h
    split at h
    · next n timeout hc =>
      cases h
      refine .inl ⟨number_update.trans ?_, rfl, rfl⟩
      rw [Function.update_eq_self_iff, State.number, hc]
      rfl
    · cases h
  | sendRaises i text =>
    obtain ⟨⟨n, hn⟩, hnum, hc, hp⟩ := sendRaises_step h
    exact .inr (.inr (.inl ⟨i, n, hn, hnum, hc, .inr ⟨text, rfl, hp⟩⟩))
  | look i =>
    simp only [step] at h
    split at h
    · next n deadline hc =>
      have hn : s.number i = some n := by rw [State.number, hc]; rfl
      split at h
      · cases h
        exact .inr (.inr (.inl ⟨i, n, hn, number_update, rfl, .inl fun req => Dict.mem_keys_erase⟩))
      · next hget =>
        have hnot := Dict.get?_eq_none_iff_keys.mp hget
        split at h <;> cases h
        · refine .inr (.inr (.inl ⟨i, n, hn, number_update, rfl, .inl fun req => ⟨fun hmem => ⟨hmem, ?_⟩, And.left⟩⟩))
          rintro rfl
          exact hnot hmem
        · exact .inl ⟨rfl, rfl, rfl⟩
    · cases h
  | deliver req msg =>
    cases h
    exact .inr (.inr (.inr ⟨req, msg, rfl, rfl, rfl, rfl⟩))
  | tick d =>
    simp only [step] at h
    split at h <;> cases h
    exact .inl ⟨rfl, rfl, rfl⟩

/-! ## Replies in time -/

/-- The requests of the calls in progress are numbered apart. -/
structure Numbered (s : State Msg) : Prop where
  le : ∀ i n, s.number i = some n → n ≤ s.reqCounter
  unique : ∀ i j n, s.number i = some n → s.number j = some n → i = j

def InProgress (s : State Msg) (req : String) : Prop := ∃ i n, s.number i = some n ∧ reqName n = req

/-- A reply comes while the call is in progress, and not to a call whose send
then raises. -/
def InTime (s : State Msg) : Action Msg → Prop
  | .deliver req _ => InProgress s req
  | .sendRaises i _ => ∀ n, s.number i = some n → reqName n ∉ s.pending.keys
  | _ => True

/-- A reply names a request that was numbered: a shard takes the name from the
message that it answers. -/
def Issued (s : State Msg) : Action Msg → Prop
  | .deliver req _ => ∃ n, n ≤ s.reqCounter ∧ reqName n = req
  | _ => True

/-- Each reply in the table is for a call in progress. -/
def Awaited (s : State Msg) : Prop := ∀ req ∈ s.pending.keys, InProgress s req

/-- A reply in the table is for a call that is over. -/
def Stale (s : State Msg) : Prop := ∃ n, n ≤ s.reqCounter ∧ (∀ i, s.number i ≠ some n) ∧ reqName n ∈ s.pending.keys

theorem Numbered.step (hn : Numbered s) (h : step s a = some t) : Numbered t := by
  rcases step_cases h with ⟨hnum, hc, -⟩ | ⟨i, hi, hnum, hc, -⟩ | ⟨i, n, hi, hnum, hc, -⟩ | ⟨req, msg, -, hnum, hc, -⟩
  · exact ⟨by rw [hnum, hc]; exact hn.le, by rw [hnum]; exact hn.unique⟩
  · refine ⟨fun j m hj => ?_, fun j k m hj hk => ?_⟩
    · rw [hnum] at hj
      rcases update_eq_some hj with ⟨-, hm⟩ | hj
      · cases hm
        omega
      · have := hn.le j m hj
        omega
    · -- the new number is above those of all other calls
      rw [hnum] at hj hk
      rcases update_eq_some hj with ⟨hj, hm⟩ | hj <;> rcases update_eq_some hk with ⟨hk, hm'⟩ | hk
      · exact hj.trans hk.symm
      · cases hm
        have := hn.le k _ hk
        omega
      · cases hm'
        have := hn.le j _ hj
        omega
      · exact hn.unique j k m hj hk
  · refine ⟨fun j m hj => ?_, fun j k m hj hk => ?_⟩
    · rw [hnum] at hj
      exact hc ▸ hn.le j m (update_none_eq_some hj).2
    · rw [hnum] at hj hk
      exact hn.unique j k m (update_none_eq_some hj).2 (update_none_eq_some hk).2
  · exact ⟨by rw [hnum, hc]; exact hn.le, by rw [hnum]; exact hn.unique⟩

theorem awaited_step (hin : InTime s a) (ha : Awaited s) (h : step s a = some t) : Awaited t := by
  rcases step_cases h with ⟨hnum, -, hp⟩ | ⟨i, hi, hnum, -, hp⟩ | ⟨i, n, hi, hnum, -, hp⟩ | ⟨req, msg, rfl, hnum, -, hp⟩
  · intro req hreq
    rw [InProgress, hnum]
    exact ha req (hp ▸ hreq)
  · intro req hreq
    obtain ⟨j, m, hj, hname⟩ := ha req (hp ▸ hreq)
    have hne : j ≠ i := by rintro rfl; rw [hi] at hj; cases hj
    exact ⟨j, m, by rw [hnum, Function.update_of_ne hne]; exact hj, hname⟩
  · -- the reply of the call that ends is not left, so what is left is another's
    intro req hreq
    have hother : req ∈ s.pending.keys ∧ req ≠ reqName n := by
      rcases hp with hp | ⟨text, rfl, hp⟩
      · exact (hp req).mp hreq
      · rw [hp] at hreq
        exact ⟨hreq, fun he => hin n hi (he ▸ hreq)⟩
    obtain ⟨j, m, hj, hname⟩ := ha req hother.1
    have hne : j ≠ i := by
      rintro rfl
      rw [hi] at hj
      cases hj
      exact hother.2 hname.symm
    exact ⟨j, m, by rw [hnum, Function.update_of_ne hne]; exact hj, hname⟩
  · intro req' hreq
    rw [InProgress, hnum]
    rw [hp, Dict.mem_keys_set] at hreq
    rcases hreq with rfl | hreq
    · exact hin
    · exact ha req' hreq

/-- A call takes the reply of its own request, and no other call gets that number. -/
theorem stale_step (hs : Stale s) (h : step s a = some t) : Stale t := by
  obtain ⟨n, hle, hnot, hmem⟩ := hs
  rcases step_cases h with ⟨hnum, hc, hp⟩ | ⟨i, hi, hnum, hc, hp⟩ | ⟨i, m, hi, hnum, hc, hp⟩ | ⟨req, msg, rfl, hnum, hc, hp⟩
  · exact ⟨n, by omega, by rw [hnum]; exact hnot, hp ▸ hmem⟩
  · refine ⟨n, by omega, fun j hj => ?_, hp ▸ hmem⟩
    rw [hnum] at hj
    rcases update_eq_some hj with ⟨-, hn⟩ | hj
    · cases hn
      omega
    · exact hnot j hj
  · refine ⟨n, by omega, fun j hj => ?_, ?_⟩
    · rw [hnum] at hj
      exact hnot j (update_none_eq_some hj).2
    · rcases hp with hp | ⟨text, -, hp⟩
      · refine (hp _).mpr ⟨hmem, fun he => ?_⟩
        exact hnot i (reqName_injective he ▸ hi)
      · exact hp ▸ hmem
  · exact ⟨n, by omega, by rw [hnum]; exact hnot, by rw [hp, Dict.mem_keys_set]; exact .inr hmem⟩

/-- A reply that comes too late stays. -/
theorem stale_of_late (hn : Numbered s) (his : Issued s a) (hlate : ¬ InTime s a) (h : step s a = some t) : Stale t := by
  cases a with
  | deliver req msg =>
    obtain ⟨n, hle, rfl⟩ := his
    cases h
    exact ⟨n, hle, fun i hi => hlate ⟨i, n, hi, rfl⟩, Dict.mem_keys_set.mpr (.inl rfl)⟩
  | sendRaises i text =>
    obtain ⟨n, hlate⟩ := not_forall.mp hlate
    obtain ⟨hi, hmem⟩ := Classical.not_imp.mp hlate
    have hmem := not_not.mp hmem
    obtain ⟨-, hnum, hc, hp⟩ := sendRaises_step h
    refine ⟨n, by rw [hc]; exact hn.le i n hi, fun j hj => ?_, hp ▸ hmem⟩
    rw [hnum] at hj
    obtain ⟨hne, hj⟩ := update_none_eq_some hj
    exact hne (hn.unique j i n hj hi)
  | _ => exact absurd trivial hlate

/-! ## Runs -/

theorem numbered_start : Numbered (State.start : State Msg) where
  le _ _ h := by cases h
  unique _ _ _ h := by cases h

theorem awaited_start : Awaited (State.start : State Msg) := fun _ h => by cases h

theorem Awaited.empty (ha : Awaited s) (hidle : s.Idle) : s.pending.entries = [] := by
  rw [← Dict.keys_eq_nil, List.eq_nil_iff_forall_not_mem]
  intro req hreq
  obtain ⟨i, n, hi, -⟩ := ha req hreq
  rw [State.number, hidle i] at hi
  cases hi

/-- What came too late is in the table from then on. -/
theorem stale_of_not_meets (hissued : Meets step Issued s as) (hnot : ¬ Meets step InTime s as) (hn : Numbered s)
    (hr : run step s as = some t) : Stale t := by
  obtain ⟨bs, a, cs, u, u', rfl, hbs, hlate, hu, hcs⟩ := exists_of_not_meets hnot hr
  have hn' : Numbered u := run_invariant' (fun _ _ _ hi hs => hi.step hs) hn hbs
  have hstale : Stale u' := stale_of_late hn' (hissued.append hbs).2.1 hlate hu
  exact run_invariant' (fun _ _ _ hi hs => stale_step hi hs) hstale hcs

/-- **Once no call is in progress the table is empty** if each reply came in
time, and, of replies to numbered requests, only if. -/
theorem kept_iff (hr : run step (State.start : State Msg) as = some t) (hidle : t.Idle) :
    (Meets step InTime .start as → t.pending.entries = []) ∧
      (Meets step Issued .start as → t.pending.entries = [] → Meets step InTime .start as) := by
  refine ⟨fun hin => ?_, fun hissued hempty => ?_⟩
  · have ha : Awaited t := run_invariant (fun _ _ _ hc hi hs => awaited_step hc hi hs) hin awaited_start hr
    exact ha.empty hidle
  · by_contra hnot
    obtain ⟨n, -, -, hmem⟩ := stale_of_not_meets hissued hnot numbered_start hr
    rw [Dict.keys_eq_nil.mpr hempty] at hmem
    cases hmem

/-- A request that is answered while its caller waits. -/
def answered : List (Action Unit) := [.call 0 8, .sent 0, .deliver "s-1" (), .look 0]

/-- A request that times out before it is answered. -/
def answeredLate : List (Action Unit) := [.call 0 8, .sent 0, .tick 8, .look 0, .deliver "s-1" ()]

theorem answered_inTime : Meets step InTime .start answered := by
  rw [answered, meets_cons_some rfl, meets_cons_some rfl, meets_cons_some rfl, meets_cons_some rfl]
  exact ⟨trivial, trivial, ⟨0, 1, rfl, by decide⟩, trivial, trivial⟩

theorem kept_answered : ∃ t, run step .start answered = some t ∧ t.Idle ∧ t.pending.entries = [] := by
  refine ⟨_, rfl, ?_, ?_⟩
  · intro i
    by_cases hi : i = 0 <;> simp [State.goOn, State.finish, State.start, hi]
  · refine (kept_iff (show run step .start answered = some _ from rfl) ?_).1 answered_inTime
    intro i
    by_cases hi : i = 0 <;> simp [State.goOn, State.finish, State.start, hi]

/-- The late reply lies in the table and nobody will take it. -/
theorem not_kept :
    ¬ ∀ (as : List (Action Unit)) (t : State Unit), run step .start as = some t → t.Idle → t.pending.entries = [] := by
  intro h
  have hrun : ∃ t, run step .start answeredLate = some t ∧ t.Idle ∧ t.pending.entries = [("s-1", ())] := by
    have hdue : (0 : ℚ) + 8 - (0 + 8) ≤ 0 := by simp
    have hpass : (0 : ℚ) ≤ 8 := by decide
    refine ⟨_, by simp only [answeredLate, run, step, State.start, State.goOn, Function.update_self, if_pos hpass, Option.bind_some,
      if_pos hdue, Dict.get?, Dict.empty, List.find?_nil, Option.map_none]; rfl, ?_, rfl⟩
    intro i
    by_cases hi : i = 0 <;> simp [State.goOn, State.finish, hi]
  obtain ⟨t, hr, hidle, hentries⟩ := hrun
  rw [h _ t hr hidle] at hentries
  cases hentries

end RetailVision.SendOps
