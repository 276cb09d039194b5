/-
Which streams the native runtime has, against `Shard._active`. A request
that times out is rolled back (an add) or not carried through (a remove) on
the shard's side alone: the native runtime may do it all the same, and
nothing brings the two together again (`late_add_leaks`). Where the native
runtime carries out only what the shard still waits for (`Prompt`), they
agree whenever all is quiet (`quiescent_agree`).
-/
import RetailVision.ShardProtocol

set_option linter.all false

namespace RetailVision.ShardProtocol

open Lib

/-! ## Requests under way -/

def Line.req : Line → Option Nat
  | .request r _ => some r
  | .garbled => none

def Native.req : Native → Option Nat
  | .idle => none
  | .adding r _ | .removing r _ => some r

/-- The request the shard waits for. -/
def Control.req : Control → Option Nat
  | .waiting _ r _ => some r
  | _ => none

/-- The request whose reply has come in. -/
def Control.answered : Control → Option Nat
  | .waiting _ r (some _) => some r
  | _ => none

/-- How often a request is somewhere between its sending and the end of its
call: as a line, in the native control thread, as a reply, or answered. -/
def State.uses (s : State) (r : Nat) : Nat :=
  (s.toNative.filterMap Line.req).count r + s.native.req.toList.count r +
    (s.toShard.filterMap (·.req)).count r + s.control.answered.toList.count r

/-- The native runtime has carried out a request that is waited for. -/
def State.Done (s : State) (r : Nat) (reply : Option Bool) : Prop := ⟨some r, true⟩ ∈ s.toShard ∨ reply = some true

/-- The streams a native runtime has beside the shard's `active` ones, where
a call under way has been carried out or not. -/
def Call.Effect (c : Call) (done : Prop) (active : List Nat) (i : Nat) : Prop :=
  match c with
  | .add _ j => i ∈ active ∧ (i = j → done)
  | .remove _ j => i ∈ active ∧ (i = j → ¬ done)

/-- The streams the native runtime is to have. -/
def State.Expects (s : State) (i : Nat) : Prop :=
  match s.control with
  | .idle => i ∈ s.active
  | .sending c => c.Effect False s.active i
  | .waiting c r reply => c.Effect (s.Done r reply) s.active i

variable {s s' : State} {a : Action} {c : Call} {i req : Nat}

theorem count_pos_of_reply {ok : Bool} (h : ⟨some req, ok⟩ ∈ s.toShard) : 0 < (s.toShard.filterMap (·.req)).count req :=
  List.count_pos_iff.mpr (List.mem_filterMap.mpr ⟨_, h, rfl⟩)

theorem filterMap_cons_toList {α : Type} {f : α → Option Nat} {x : α} {xs : List α} :
    (x :: xs).filterMap f = (f x).toList ++ xs.filterMap f := by
  cases h : f x <;> simp [h]

theorem expects_of_waiting {r : Nat} {reply : Option Bool} (hc : s.control = .waiting c r reply) :
    s.Expects i = c.Effect (s.Done r reply) s.active i := by
  simp only [State.Expects, hc]

theorem fail_active : i ∈ (s.fail c).active ↔ c.Effect False s.active i := by
  cases c <;> simp [State.fail, State.unregister, Call.Effect]

theorem succeed_active : i ∈ (s.succeed c).active ↔ c.Effect True s.active i := by
  cases c <;> simp [State.succeed, State.unregister, Call.Effect]

/-! ## The invariant -/

/-- The operation of a line, or of the native control thread, that has the
request waited for is the call's. -/
structure Inv (s : State) : Prop where
  once : ∀ r, s.uses r ≤ 1
  uses_le : ∀ r, 0 < s.uses r → r ≤ s.reqIds
  req_le : ∀ r, s.control.req = some r → r ≤ s.reqIds
  line : ∀ c r reply b, s.control = .waiting c r reply → .request r b ∈ s.toNative → b = c.body
  adding : ∀ c r reply i, s.control = .waiting c r reply → s.native = .adding r i → c.body = .add i
  removing : ∀ c r reply i, s.control = .waiting c r reply → s.native = .removing r i → c.body = .remove i
  active_lt : ∀ i ∈ s.active, i < s.nextIndex
  sent : ∀ sid i, s.control = .sending (.add sid i) → i ∈ s.active
  waited : ∀ sid i r reply, s.control = .waiting (.add sid i) r reply → i ∈ s.active
  agree : ∀ i, i ∈ s.streams ↔ s.Expects i

/-- What the native runtime carries out, the shard waits for; and the shard
does not give up on a request carried out. -/
def Prompt (s : State) : Action → Prop
  | .nativeDone true => s.native.req = s.control.req
  | .timeout => ∀ r ∈ s.control.req, ⟨some r, true⟩ ∉ s.toShard
  | _ => True

instance (s : State) : ∀ a, Decidable (Prompt s a)
  | .nativeDone true => inferInstanceAs (Decidable (s.native.req = s.control.req))
  | .timeout => inferInstanceAs (Decidable (∀ r ∈ s.control.req, (⟨some r, true⟩ : Reply) ∉ s.toShard))
  | .nativeDone false | .addStream _ | .removeStream _ | .send | .sendTimeout _ | .takeReply | .recv
  | .handleLine => inferInstanceAs (Decidable True)

theorem start_inv : Inv start where
  once := by intro r; simp [State.uses, start, Native.req, Control.answered]
  uses_le := by intro r h; simp [State.uses, start, Native.req, Control.answered] at h
  req_le := by intro r h; simp [start, Control.req] at h
  line := by intro c r reply b h; simp [start] at h
  adding := by intro c r reply i h; simp [start] at h
  removing := by intro c r reply i h; simp [start] at h
  active_lt := by intro i h; simp [start] at h
  sent := by intro sid i h; simp [start] at h
  waited := by intro sid i r reply h; simp [start] at h
  agree := by intro i; simp [start, State.Expects]

/-! ## The shard's steps -/

/-- A call has ended: its request is waited for no more. -/
theorem Inv.toIdle (hi : Inv s) {active : List Nat} {byStreamId : List (String × Nat)}
    (hact : ∀ i ∈ active, i ∈ s.active) (hag : ∀ i, i ∈ s.streams ↔ i ∈ active) :
    Inv { s with byStreamId := byStreamId, active := active, control := .idle } where
  once := by
    intro r
    have h := hi.once r
    simp only [State.uses, Control.answered, Option.toList_none, List.count_nil] at h ⊢
    omega
  uses_le := by
    intro r hr
    refine hi.uses_le r ?_
    simp only [State.uses, Control.answered, Option.toList_none, List.count_nil] at hr ⊢
    omega
  req_le := by intro r h; cases h
  line := by intro c r reply b h; cases h
  adding := by intro c r reply i h; cases h
  removing := by intro c r reply i h; cases h
  active_lt := by intro i h; exact hi.active_lt i (hact i h)
  sent := by intro sid i h; cases h
  waited := by intro sid i r reply h; cases h
  agree := hag

theorem Inv.fail (hi : Inv s) (hag : ∀ i, i ∈ s.streams ↔ c.Effect False s.active i) : Inv (s.fail c) := by
  have hag' : ∀ i, i ∈ s.streams ↔ i ∈ (s.fail c).active := by
    intro i
    rw [hag, fail_active]
  cases c with
  | add sid j => exact hi.toIdle (fun i h => (List.mem_filter.mp h).1) hag'
  | remove sid j => exact hi.toIdle (fun i h => h) hag'

theorem Inv.succeed (hi : Inv s) (hag : ∀ i, i ∈ s.streams ↔ c.Effect True s.active i) : Inv (s.succeed c) := by
  have hag' : ∀ i, i ∈ s.streams ↔ i ∈ (s.succeed c).active := by
    intro i
    rw [hag, succeed_active]
  cases c with
  | add sid j => exact hi.toIdle (fun i h => h) hag'
  | remove sid j => exact hi.toIdle (fun i h => (List.mem_filter.mp h).1) hag'

/-- A new stream is registered; the native runtime does not have it yet. -/
theorem Inv.register (hi : Inv s) (ho : s.control = .idle) (sid : String) : Inv (s.register sid) where
  once := by
    intro r
    have h := hi.once r
    simp only [State.uses, ho, Control.answered, State.register] at h ⊢
    omega
  uses_le := by
    intro r hr
    refine hi.uses_le r ?_
    simp only [State.uses, ho, Control.answered, State.register] at hr ⊢
    omega
  req_le := by intro r h; cases h
  line := by intro c r reply b h; cases h
  adding := by intro c r reply i h; cases h
  removing := by intro c r reply i h; cases h
  active_lt := by
    intro i h
    simp only [State.register, List.mem_append, List.mem_singleton] at h ⊢
    rcases h with h | h
    · have := hi.active_lt i h
      omega
    · omega
  sent := by
    intro sid' i h
    cases h
    simp [State.register]
  waited := by intro sid' i r reply h; cases h
  agree := by
    intro i
    have hag := hi.agree i
    have hlt := hi.active_lt i
    simp only [State.Expects, ho] at hag
    simp only [State.Expects, State.register, Call.Effect, List.mem_append, List.mem_singleton, imp_false]
    rw [hag]
    constructor
    · intro h
      have := hlt h
      exact ⟨.inl h, by omega⟩
    · rintro ⟨h | h, hne⟩
      · exact h
      · exact absurd h hne

theorem Inv.beginRemove (hi : Inv s) (ho : s.control = .idle) (sid : String) (i : Nat) :
    Inv { s with control := .sending (.remove sid i) } where
  once := by
    intro r
    have h := hi.once r
    simp only [State.uses, ho, Control.answered] at h ⊢
    omega
  uses_le := by
    intro r hr
    refine hi.uses_le r ?_
    simp only [State.uses, ho, Control.answered] at hr ⊢
    omega
  req_le := by intro r h; cases h
  line := by intro c r reply b h; cases h
  adding := by intro c r reply i h; cases h
  removing := by intro c r reply i h; cases h
  active_lt := hi.active_lt
  sent := by intro sid' i h; cases h
  waited := by intro sid' i r reply h; cases h
  agree := by
    intro i
    have hag := hi.agree i
    simp only [State.Expects, ho] at hag
    simp [State.Expects, Call.Effect, hag]

/-- A line leaves under a request id not used yet. -/
theorem Inv.send (hi : Inv s) (ho : s.control = .sending c) : Inv (s.send c) := by
  have hfresh : s.uses (s.reqIds + 1) = 0 := by
    have h := hi.uses_le (s.reqIds + 1)
    omega
  have hdone : ¬ s.Done (s.reqIds + 1) none := by
    rintro (h | h)
    · have := count_pos_of_reply h
      simp only [State.uses] at hfresh
      omega
    · cases h
  have huses : ∀ r, (s.send c).uses r ≤ s.uses r + if r = s.reqIds + 1 then 1 else 0 := by
    intro r
    have hl : ([if s.torn then Line.garbled else .request (s.reqIds + 1) c.body].filterMap Line.req).count r ≤
        if r = s.reqIds + 1 then 1 else 0 := by
      by_cases ht : s.torn = true
      · rw [if_pos ht]
        exact Nat.zero_le _
      · rw [if_neg ht]
        show [s.reqIds + 1].count r ≤ _
        rw [List.count_singleton]
        by_cases hr : r = s.reqIds + 1
        · simp [hr]
        · have hne : ¬ s.reqIds + 1 = r := fun h => hr h.symm
          simp [hne]
    simp only [State.uses, ho, State.send, Control.answered, List.filterMap_append, List.count_append]
    omega
  exact
    { once := by
        intro r
        have h := hi.once r
        have hu := huses r
        by_cases hr : r = s.reqIds + 1
        · subst hr
          rw [hfresh] at hu
          simpa using hu
        · rw [if_neg hr] at hu
          omega
      uses_le := by
        intro r hr
        have h := hi.uses_le r
        have hu := huses r
        show r ≤ s.reqIds + 1
        by_cases he : r = s.reqIds + 1
        · omega
        · rw [if_neg he] at hu
          have := h (by omega)
          omega
      req_le := by intro r h; cases h; exact Nat.le_refl _
      line := by
        intro c' r reply b h hm
        cases h
        simp only [State.send, List.mem_append, List.mem_singleton] at hm
        rcases hm with hm | hm
        · -- no line has the new request id
          have hpos : 0 < (s.toNative.filterMap Line.req).count (s.reqIds + 1) :=
            List.count_pos_iff.mpr (List.mem_filterMap.mpr ⟨_, hm, rfl⟩)
          simp only [State.uses] at hfresh
          omega
        · split at hm
          · cases hm
          · cases hm; rfl
      adding := by
        intro c' r reply i h hn
        cases h
        have hn : s.native = .adding (s.reqIds + 1) i := hn
        simp [State.uses, hn, Native.req] at hfresh
      removing := by
        intro c' r reply i h hn
        cases h
        have hn : s.native = .removing (s.reqIds + 1) i := hn
        simp [State.uses, hn, Native.req] at hfresh
      active_lt := hi.active_lt
      sent := by intro sid i h; cases h
      waited := by
        intro sid i r reply h
        cases h
        exact hi.sent sid i ho
      agree := by
        intro i
        have hag := hi.agree i
        have hd : (s.Done (s.reqIds + 1) none) = False := eq_false hdone
        simp only [State.Expects, ho] at hag
        show i ∈ s.streams ↔ c.Effect (s.Done (s.reqIds + 1) none) s.active i
        rw [hag, hd] }

/-! ## The native runtime's steps, and the replies -/

/-- An answer that says no leaves what has been carried out as it was. -/
theorem done_append_false {t : State} {r : Nat} {q : Option Nat} {reply : Option Bool}
    (ht : t.toShard = s.toShard ++ [⟨q, false⟩]) : t.Done r reply ↔ s.Done r reply := by
  simp [State.Done, ht]

/-- What the shard keeps, and what the native runtime is asked, a step of the
native side leaves alone. -/
structure NativeStep (s t : State) : Prop where
  control : t.control = s.control
  active : t.active = s.active
  nextIndex : t.nextIndex = s.nextIndex
  reqIds : t.reqIds = s.reqIds
  uses : ∀ r, t.uses r ≤ s.uses r
  line : ∀ r b, .request r b ∈ t.toNative → .request r b ∈ s.toNative
  adding : ∀ r i, t.native = .adding r i → s.native = .adding r i ∨ .request r (.add i) ∈ s.toNative
  removing : ∀ r i, t.native = .removing r i → s.native = .removing r i ∨ .request r (.remove i) ∈ s.toNative

theorem Inv.of_native {t : State} (hi : Inv s) (ht : NativeStep s t) (hag : ∀ i, i ∈ t.streams ↔ t.Expects i) :
    Inv t where
  once := by
    intro r
    exact Nat.le_trans (ht.uses r) (hi.once r)
  uses_le := by
    intro r hr
    rw [ht.reqIds]
    exact hi.uses_le r (Nat.lt_of_lt_of_le hr (ht.uses r))
  req_le := by rw [ht.control, ht.reqIds]; exact hi.req_le
  line := by
    intro c r reply b hc hm
    rw [ht.control] at hc
    exact hi.line c r reply b hc (ht.line r b hm)
  adding := by
    intro c r reply i hc hn
    rw [ht.control] at hc
    rcases ht.adding r i hn with hn | hm
    · exact hi.adding c r reply i hc hn
    · exact (hi.line c r reply _ hc hm).symm
  removing := by
    intro c r reply i hc hn
    rw [ht.control] at hc
    rcases ht.removing r i hn with hn | hm
    · exact hi.removing c r reply i hc hn
    · exact (hi.line c r reply _ hc hm).symm
  active_lt := by rw [ht.active, ht.nextIndex]; exact hi.active_lt
  sent := by rw [ht.control, ht.active]; exact hi.sent
  waited := by rw [ht.control, ht.active]; exact hi.waited
  agree := hag

/-- Nothing carried out: the streams expected are the same. -/
theorem Inv.agree_of_native {t : State} (hi : Inv s) (ht : NativeStep s t) (hst : t.streams = s.streams)
    (hd : ∀ c r reply, s.control = .waiting c r reply → (t.Done r reply ↔ s.Done r reply)) (i : Nat) :
    i ∈ t.streams ↔ t.Expects i := by
  have hag := hi.agree i
  rw [hst, hag]
  have hct := ht.control
  cases hc : s.control with
  | idle | sending c =>
    rw [hc] at hct
    simp only [State.Expects, hc, hct, ht.active]
  | waiting c r reply =>
    rw [hc] at hct
    rw [expects_of_waiting hc, expects_of_waiting hct, ht.active, propext (hd c r reply hc)]

theorem Inv.handleLine {l : Line} {rest : List Line} (hi : Inv s) (hn : s.native = .idle) (hl : s.toNative = l :: rest) :
    Inv ({ s with toNative := rest }.handleLine l) := by
  have hrest : ∀ r b, .request r b ∈ rest → .request r b ∈ s.toNative := by
    intro r b h
    rw [hl]
    exact List.mem_cons_of_mem _ h
  -- An answer at once, under the line's own request id.
  have hreply : Inv ({ s with toNative := rest }.reply l.req false) := by
    have hstep : NativeStep s ({ s with toNative := rest }.reply l.req false) :=
      { control := rfl, active := rfl, nextIndex := rfl, reqIds := rfl, line := hrest
        uses := by
          intro r
          simp only [State.uses, State.reply, hl, List.filterMap_append, List.count_append, filterMap_cons_toList,
            List.filterMap_nil, List.count_nil]
          omega
        adding := by intro r i h; exact .inl h
        removing := by intro r i h; exact .inl h }
    exact hi.of_native hstep (hi.agree_of_native hstep rfl fun _ _ _ _ => done_append_false rfl)
  -- The native control thread is in the operation.
  have hbusy : ∀ n q, n.req = some q → l.req = some q →
      (∀ r i, n = .adding r i → .request r (.add i) = l) → (∀ r i, n = .removing r i → .request r (.remove i) = l) →
      Inv { s with toNative := rest, native := n } := by
    intro n q hnq hlq hadd hrem
    have hidle : s.native.req = none := by rw [hn]; rfl
    have hstep : NativeStep s { s with toNative := rest, native := n } :=
      { control := rfl, active := rfl, nextIndex := rfl, reqIds := rfl, line := hrest
        uses := by
          intro r
          simp only [State.uses, hl, hidle, hnq, hlq, filterMap_cons_toList, List.count_append, Option.toList_none,
            List.count_nil]
          omega
        adding := by
          intro r i h
          exact .inr (by rw [hl, hadd r i h]; exact List.mem_cons_self)
        removing := by
          intro r i h
          exact .inr (by rw [hl, hrem r i h]; exact List.mem_cons_self) }
    exact hi.of_native hstep (hi.agree_of_native hstep rfl fun _ _ _ _ => Iff.rfl)
  cases l with
  | garbled => exact hreply
  | request q b =>
    cases b with
    | add j =>
      simp only [State.handleLine]
      split
      · exact hreply
      · exact hbusy (.adding q j) q rfl rfl (by intro r i h; cases h; rfl) (by intro r i h; cases h)
    | remove j =>
      simp only [State.handleLine]
      split
      · exact hbusy (.removing q j) q rfl rfl (by intro r i h; cases h) (by intro r i h; cases h; rfl)
      · exact hreply

/-- The end of an operation, whatever it did to the streams. -/
theorem nativeDone_step {q : Nat} {streams : List Nat} {ok : Bool} (hn : s.native.req = some q) :
    NativeStep s ({ s with native := .idle, streams := streams }.reply (some q) ok) where
  control := rfl
  active := rfl
  nextIndex := rfl
  reqIds := rfl
  uses := by
    intro r
    have hidle : Native.idle.req = none := rfl
    simp only [State.uses, State.reply, hn, hidle, List.filterMap_append, List.count_append, filterMap_cons_toList,
      List.filterMap_nil, Option.toList_none, List.count_nil]
    omega
  line := by intro r b h; exact h
  adding := by intro r i h; cases h
  removing := by intro r i h; cases h

/-- What is carried out is the call's, and was not before. -/
theorem Inv.waiting_of_native {q : Nat} (hi : Inv s) (hn : s.native.req = some q) (hp : s.native.req = s.control.req) :
    ∃ c reply, s.control = .waiting c q reply ∧ ¬ s.Done q reply := by
  rw [hn] at hp
  cases hc : s.control with
  | idle => rw [hc] at hp; cases hp
  | sending c => rw [hc] at hp; cases hp
  | waiting c r reply =>
    rw [hc] at hp
    cases hp
    refine ⟨c, reply, rfl, ?_⟩
    have h := hi.once q
    simp only [State.uses, hn, Option.toList_some, List.count_singleton_self, hc] at h
    intro hd
    rcases hd with hd | hd
    · have := count_pos_of_reply hd
      omega
    · subst hd
      simp [Control.answered] at h

theorem Inv.nativeDone_true {q : Nat} {streams : List Nat} (hi : Inv s) (hn : s.native.req = some q)
    (hp : s.native.req = s.control.req)
    (hag : ∀ c reply, s.control = .waiting c q reply → ∀ i, i ∈ streams ↔ c.Effect True s.active i) :
    Inv ({ s with native := .idle, streams := streams }.reply (some q) true) := by
  refine hi.of_native (nativeDone_step hn) fun i => ?_
  obtain ⟨c, reply, hc, -⟩ := hi.waiting_of_native hn hp
  have hd : ({ s with native := .idle, streams := streams }.reply (some q) true).Done q reply := by
    left
    simp [State.reply]
  have hc' : ({ s with native := .idle, streams := streams }.reply (some q) true).control = .waiting c q reply := hc
  rw [expects_of_waiting hc', eq_true hd]
  exact hag c reply hc i

theorem Inv.nativeDone (hi : Inv s) {q : Nat} {streams : List Nat} {ok : Bool} (hn : s.native.req = some q)
    (hp : ok = true → s.native.req = s.control.req) (hsame : ok = false → streams = s.streams)
    (hag : ∀ c reply, s.control = .waiting c q reply → ¬ s.Done q reply → ok = true →
      ∀ i, i ∈ streams ↔ c.Effect True s.active i) :
    Inv ({ s with native := .idle, streams := streams }.reply (some q) ok) := by
  cases ok with
  | false => exact hi.of_native (nativeDone_step hn) (hi.agree_of_native (nativeDone_step hn) (hsame rfl)
      fun _ _ _ _ => done_append_false rfl)
  | true =>
    obtain ⟨c, reply, hc, hd⟩ := hi.waiting_of_native hn (hp rfl)
    refine hi.nativeDone_true hn (hp rfl) fun c' reply' hc' => ?_
    rw [hc] at hc'
    cases hc'
    exact hag c reply hc hd rfl

/-- `op_add` and `op_remove` end. -/
theorem Inv.nativeDone_add {q j : Nat} {ok : Bool} (hi : Inv s) (hn : s.native = .adding q j)
    (hp : ok = true → s.native.req = s.control.req) :
    Inv ({ s with native := .idle, streams := if ok then s.streams ++ [j] else s.streams }.reply (some q) ok) := by
  refine hi.nativeDone (by rw [hn]; rfl) hp (fun h => by rw [h]; rfl) fun c reply hc hd hok i => ?_
  have hag := hi.agree i
  rw [expects_of_waiting hc, eq_false hd] at hag
  have hb := hi.adding c q reply j hc hn
  cases c with
  | remove sid k => cases hb
  | add sid k =>
    cases hb
    have hj := hi.waited sid j q reply hc
    simp only [hok, if_true, List.mem_append, List.mem_singleton, Call.Effect, imp_false, imp_true_iff, and_true]
      at hag ⊢
    rw [hag]
    constructor
    · rintro (h | h)
      · exact h.1
      · rw [h]; exact hj
    · intro h
      by_cases hij : i = j
      · exact .inr hij
      · exact .inl ⟨h, hij⟩

theorem Inv.nativeDone_remove {q j : Nat} {ok : Bool} (hi : Inv s) (hn : s.native = .removing q j)
    (hp : ok = true → s.native.req = s.control.req) :
    Inv ({ s with native := .idle, streams := if ok then s.streams.filter (· ≠ j) else s.streams }.reply
      (some q) ok) := by
  refine hi.nativeDone (by rw [hn]; rfl) hp (fun h => by rw [h]; rfl) fun c reply hc hd hok i => ?_
  have hag := hi.agree i
  rw [expects_of_waiting hc, eq_false hd] at hag
  have hb := hi.removing c q reply j hc hn
  cases c with
  | add sid k => cases hb
  | remove sid k =>
    cases hb
    simp only [Call.Effect, not_false_eq_true, imp_true_iff, and_true] at hag
    simp [hok, Call.Effect, hag]

/-- A reply nobody waits for is dropped. -/
theorem Inv.drop {q : Reply} {rest : List Reply} (hi : Inv s) (hs : s.toShard = q :: rest)
    (hq : ∀ c r reply, s.control = .waiting c r reply → q.req ≠ some r) : Inv { s with toShard := rest } := by
  have hstep : NativeStep s { s with toShard := rest } :=
    { control := rfl, active := rfl, nextIndex := rfl, reqIds := rfl
      uses := by
        intro r
        simp only [State.uses, hs, filterMap_cons_toList, List.count_append]
        omega
      line := by intro r b h; exact h
      adding := by intro r i h; exact .inl h
      removing := by intro r i h; exact .inl h }
  refine hi.of_native hstep (hi.agree_of_native hstep rfl fun c r reply hc => ?_)
  have hne : (⟨some r, true⟩ : Reply) ≠ q := by
    intro h
    exact hq c r reply hc (by rw [← h])
  simp [State.Done, hs, hne]

/-- The reply waited for is filled in: it is the only one to its request. -/
theorem Inv.fill {q : Reply} {rest : List Reply} {r : Nat} {reply : Option Bool} (hi : Inv s) (hs : s.toShard = q :: rest)
    (hc : s.control = .waiting c r reply) (hq : q.req = some r) :
    Inv { s with toShard := rest, control := .waiting c r (some q.ok) } := by
  have huses : ∀ x, State.uses { s with toShard := rest, control := .waiting c r (some q.ok) } x + s.control.answered.toList.count x =
      s.uses x := by
    intro x
    simp only [State.uses, hs, hq, filterMap_cons_toList, List.count_append, Control.answered]
    omega
  have honce := hi.once r
  simp only [State.uses, hs, hq, filterMap_cons_toList, List.count_append, Option.toList_some,
    List.count_singleton_self] at honce
  have hrest : ∀ ok, (⟨some r, ok⟩ : Reply) ∉ rest := by
    intro ok h
    have hpos : 0 < (rest.filterMap (·.req)).count r :=
      List.count_pos_iff.mpr (List.mem_filterMap.mpr ⟨_, h, rfl⟩)
    omega
  have hnone : reply ≠ some true := by
    intro h
    subst h
    simp only [hc, Control.answered, Option.toList_some, List.count_singleton_self] at honce
    omega
  have hdone : State.Done { s with toShard := rest, control := .waiting c r (some q.ok) } r (some q.ok) ↔ s.Done r reply := by
    have hr := hrest true
    cases q with
    | mk qr qok =>
      cases hq
      simp [State.Done, hs, hr, hnone, eq_comm]
  exact
    { once := by
        intro x
        have hx := hi.once x
        have hu := huses x
        omega
      uses_le := by
        intro x hx
        have hu := huses x
        exact hi.uses_le x (by omega)
      req_le := by
        intro x h
        cases h
        exact hi.req_le r (by rw [hc]; rfl)
      line := by
        intro c' x reply' b h hm
        cases h
        exact hi.line c r reply b hc hm
      adding := by
        intro c' x reply' i h hn
        cases h
        exact hi.adding c r reply i hc hn
      removing := by
        intro c' x reply' i h hn
        cases h
        exact hi.removing c r reply i hc hn
      active_lt := hi.active_lt
      sent := by intro sid i h; cases h
      waited := by
        intro sid i x reply' h
        cases h
        exact hi.waited sid i r reply hc
      agree := by
        intro i
        have hag := hi.agree i
        rw [expects_of_waiting hc] at hag
        rw [expects_of_waiting (s := { s with toShard := rest, control := .waiting c r (some q.ok) }) rfl,
          propext hdone]
        exact hag }

theorem Inv.recv {q : Reply} {rest : List Reply} (hi : Inv s) (hs : s.toShard = q :: rest) :
    Inv ({ s with toShard := rest }.dispatch q) := by
  by_cases hw : ∃ c r reply, s.control = .waiting c r reply ∧ q.req = some r
  · obtain ⟨c, r, reply, hc, hq⟩ := hw
    have he : { s with toShard := rest }.dispatch q =
        { s with toShard := rest, control := .waiting c r (some q.ok) } := by
      simp [State.dispatch, hc, hq]
    rw [he]
    exact hi.fill hs hc hq
  · have hq : ∀ c r reply, s.control = .waiting c r reply → q.req ≠ some r := by
      intro c r reply hc hq
      exact hw ⟨c, r, reply, hc, hq⟩
    have he : { s with toShard := rest }.dispatch q = { s with toShard := rest } := by
      unfold State.dispatch
      split
      next c r reply hc => exact if_neg (hq c r reply hc)
      · rfl
    rw [he]
    exact hi.drop hs hq

/-! ## Runs -/

/-- The deadline passed before the line was out: the call fails, nothing was
asked. -/
theorem Inv.sendTimeout (hi : Inv s) (hc : s.control = .sending c) (torn : Bool) :
    Inv ({ s with reqIds := s.reqIds + 1, torn := torn }.fail c) := by
  have hi' : Inv { s with reqIds := s.reqIds + 1, torn := torn } :=
    { once := hi.once
      uses_le := by
        intro r hr
        exact Nat.le_succ_of_le (hi.uses_le r hr)
      req_le := by
        intro r h
        exact Nat.le_succ_of_le (hi.req_le r h)
      line := hi.line
      adding := hi.adding
      removing := hi.removing
      active_lt := hi.active_lt
      sent := hi.sent
      waited := hi.waited
      agree := hi.agree }
  refine hi'.fail fun i => ?_
  have hag := hi.agree i
  simp only [State.Expects, hc] at hag
  exact hag

theorem Inv.takeReply {r : Nat} {ok : Bool} (hi : Inv s) (hc : s.control = .waiting c r (some ok)) :
    Inv (if ok then s.succeed c else s.fail c) := by
  have hag := hi.agree
  simp only [expects_of_waiting hc] at hag
  have honce := hi.once r
  simp only [State.uses, hc, Control.answered, Option.toList_some, List.count_singleton_self] at honce
  have hnone : (⟨some r, true⟩ : Reply) ∉ s.toShard := by
    intro h
    have := count_pos_of_reply h
    omega
  cases ok with
  | true =>
    have hd : s.Done r (some true) := .inr rfl
    rw [eq_true hd] at hag
    exact hi.succeed hag
  | false =>
    have hd : ¬ s.Done r (some false) := by simp [State.Done, hnone]
    rw [eq_false hd] at hag
    exact hi.fail hag

theorem Inv.timeout {r : Nat} (hi : Inv s) (hc : s.control = .waiting c r none) (hp : ⟨some r, true⟩ ∉ s.toShard) :
    Inv (s.fail c) := by
  have hag := hi.agree
  have hd : ¬ s.Done r none := by simp [State.Done, hp]
  simp only [expects_of_waiting hc, eq_false hd] at hag
  exact hi.fail hag

theorem step_inv (hp : Prompt s a) (hi : Inv s) (hs : step s a = some s') : Inv s' := by
  cases a with
  | addStream sid =>
    simp only [step] at hs
    split at hs <;> cases hs
    next hc =>
      split
      · exact hi
      · exact hi.register hc sid
  | removeStream sid =>
    simp only [step] at hs
    split at hs <;> try contradiction
    next hc =>
      split at hs <;> cases hs
      · exact hi.beginRemove hc sid _
      · exact hi
  | send =>
    simp only [step] at hs
    split at hs <;> cases hs
    next hc => exact hi.send hc
  | sendTimeout torn =>
    simp only [step] at hs
    split at hs <;> cases hs
    next hc => exact hi.sendTimeout hc _
  | takeReply =>
    simp only [step] at hs
    split at hs <;> cases hs
    next hc => exact hi.takeReply hc
  | timeout =>
    simp only [step] at hs
    split at hs <;> cases hs
    next hc => exact hi.timeout hc (hp _ (by rw [hc]; rfl))
  | recv =>
    simp only [step] at hs
    split at hs <;> cases hs
    next ht => exact hi.recv ht
  | handleLine =>
    simp only [step] at hs
    split at hs <;> cases hs
    next hn hl => exact hi.handleLine hn hl
  | nativeDone ok =>
    have hok : ok = true → s.native.req = s.control.req := by
      intro hok
      subst hok
      exact hp
    simp only [step] at hs
    split at hs <;> cases hs
    next hn => exact hi.nativeDone_add hn hok
    next hn => exact hi.nativeDone_remove hn hok

/-- **The native runtime has the shard's active streams** whenever all is
quiet, in every run in which it carries out only what the shard waits for. -/
theorem quiescent_agree {as : List Action} (hm : Meets step Prompt start as) (hr : run step start as = some s)
    (hq : s.Quiescent) : ∀ i, i ∈ s.streams ↔ i ∈ s.active := by
  have hi := run_invariant (I := Inv) (fun _ _ _ hp hi hs => step_inv hp hi hs) hm start_inv hr
  intro i
  have hag := hi.agree i
  simp only [State.Expects, hq.1] at hag
  exact hag

/-! ## Two streams, and a late one -/

/-- A call the native runtime carries out in time. -/
def inTime (call : Action) : List Action := [call, .send, .handleLine, .nativeDone true, .recv, .takeReply]

theorem quiescent_agree_of_two :
    ∃ s, run step start (inTime (.addStream "a") ++ inTime (.addStream "b") ++ inTime (.removeStream "a")) = some s ∧
      s.streams = [1] ∧ ∀ i, i ∈ s.streams ↔ i ∈ s.active := by
  have hst : (run step start (inTime (.addStream "a") ++ inTime (.addStream "b") ++
      inTime (.removeStream "a"))).map (fun s => (s.streams, s.control, s.toNative, s.toShard, s.native)) =
        some ([1], .idle, [], [], .idle) := by decide
  obtain ⟨s, hs, he⟩ := Option.map_eq_some_iff.mp hst
  simp only [Prod.mk.injEq] at he
  obtain ⟨hst, hq⟩ := he
  exact ⟨s, hs, hst, quiescent_agree (by decide) hs hq⟩

/-- The source opens after the shard has given up: the native runtime runs a
stream the shard does not know. -/
theorem late_add_leaks :
    ∃ s, run step start [.addStream "a", .send, .handleLine, .timeout, .nativeDone true, .recv] = some s ∧
      s.Quiescent ∧ s.streams = [0] ∧ s.active = [] := by
  refine ⟨_, rfl, ⟨rfl, rfl, rfl, rfl⟩, rfl, rfl⟩

end RetailVision.ShardProtocol
