/-
One registration of a stream, as the app and as the shard see it. The calls of
its hooks are in order where `Phase` has a next phase for each. What a run of
the shard does to a registration is followed by what concerns it (`View`): the
calls made, the one being made, and those that wait in the batch of the hook
thread and in its queue. A registration is in one of three stages (`Stage`),
and each thing that happens to it leaves it in one.
-/
import RetailVision.HookThread

set_option linter.all false

namespace RetailVision.HookThread

open Lib

/-- A registration as the app sees it. -/
inductive Phase
  | fresh
  | live
  | gone
  deriving DecidableEq

/-- States may be called at any time before the end, data between
`on_stream_added` and `on_stream_removed`. -/
def Phase.next : Phase → Call → Option Phase
  | .fresh, .state => some .fresh
  | .fresh, .added => some .live
  | .live, .frame | .live, .event | .live, .tensors | .live, .state => some .live
  | .live, .removed => some .gone
  | _, _ => none

variable {p q : Phase} {c : Call} {cs ds : List Call}

/-! ## Phases -/

theorem run_live : run Phase.next .live cs = some .live ↔ ∀ c ∈ cs, c ≠ .added ∧ c ≠ .removed := by
  induction cs with
  | nil => simp
  | cons c cs ih =>
    rw [run_cons, List.forall_mem_cons, ← ih]
    cases c with
    | frame | event | tensors | state => simp [Phase.next]
    | added => simp [Phase.next]
    | removed =>
      have : run Phase.next .gone cs ≠ some .live := by
        cases cs with
        | nil => simp
        | cons c cs => cases c <;> simp [run, Phase.next]
      simp [Phase.next, this]

/-- The calls of a registration that is live: states, `on_stream_added`, and
then neither that nor `on_stream_removed`. -/
theorem run_fresh_live : run Phase.next .fresh cs = some .live ↔
    ∃ before after, cs = before ++ .added :: after ∧ (∀ c ∈ before, c = .state) ∧
      ∀ c ∈ after, c ≠ .added ∧ c ≠ .removed := by
  induction cs with
  | nil => simp
  | cons c cs ih =>
    rw [run_cons]
    cases c with
    | state =>
      simp only [Phase.next, Option.some.injEq, exists_eq_left', ih]
      constructor
      · intro ⟨before, after, hcs, hb, ha⟩
        exact ⟨.state :: before, after, by rw [hcs]; rfl, by simpa using hb, ha⟩
      · intro ⟨before, after, hcs, hb, ha⟩
        cases before with
        | nil => cases hcs
        | cons b before =>
          obtain ⟨rfl, rfl⟩ := List.cons.inj hcs
          exact ⟨before, after, rfl, fun c hc => hb c (List.mem_cons_of_mem _ hc), ha⟩
    | added =>
      simp only [Phase.next, Option.some.injEq, exists_eq_left', run_live]
      constructor
      · exact fun ha => ⟨[], cs, rfl, by simp, ha⟩
      · intro ⟨before, after, hcs, hb, ha⟩
        cases before with
        | nil =>
          obtain ⟨-, rfl⟩ := List.cons.inj hcs
          exact ha
        | cons b before =>
          obtain ⟨rfl, -⟩ := List.cons.inj hcs
          exact absurd (hb .added (by simp)) (by simp)
    | frame | event | tensors | removed =>
      simp only [Phase.next, false_and, exists_false, false_iff, reduceCtorEq]
      intro ⟨before, after, hcs, hb, ha⟩
      cases before with
      | nil => cases hcs
      | cons b before =>
        obtain ⟨rfl, -⟩ := List.cons.inj hcs
        have := hb _ List.mem_cons_self
        cases this

/-- The calls of a registration that is gone: `on_stream_removed` follows those
of a live one. -/
theorem run_fresh_gone : run Phase.next .fresh cs = some .gone ↔
    ∃ made, cs = made ++ [.removed] ∧ run Phase.next .fresh made = some .live := by
  constructor
  · intro h
    obtain rfl | ⟨made, c, rfl⟩ := cs.eq_nil_or_concat
    · cases h
    · rw [List.concat_eq_append] at h ⊢
      obtain ⟨p, hp, hc⟩ := run_snoc.mp h
      cases p <;> cases c <;> cases hc
      exact ⟨made, rfl, hp⟩
  · intro ⟨made, hcs, h⟩
    rw [hcs]
    exact run_snoc.mpr ⟨.live, h, rfl⟩

/-- The phase after a call, where nothing is called any more for a stream that
is gone. -/
def Phase.future : Phase → Call → Option Phase
  | .gone, _ => some .gone
  | p, c => p.next c

theorem future_of_ne (hp : p ≠ .gone) : p.future c = p.next c := by
  cases p with
  | gone => exact absurd rfl hp
  | fresh | live => rfl

@[simp] theorem future_gone : Phase.gone.future c = some .gone := rfl

@[simp] theorem future_state : p.future .state = some p := by cases p <;> rfl

theorem run_gone : run Phase.future .gone cs = some .gone := by
  induction cs with
  | nil => rfl
  | cons c cs ih => exact run_cons.mpr ⟨.gone, rfl, ih⟩

theorem run_future_of_next (h : run Phase.next p cs = some q) : run Phase.future p cs = some q := by
  induction cs generalizing p with
  | nil => exact h
  | cons c cs ih =>
    obtain ⟨r, hr, h⟩ := run_cons.mp h
    have hp : p ≠ .gone := by
      intro hp
      subst hp
      cases c <;> cases hr
    exact run_cons.mpr ⟨r, (future_of_ne hp).trans hr, ih h⟩

/-- Only states leave a registration fresh. -/
theorem run_fresh (h : run Phase.future p cs = some .fresh) : p = .fresh ∧ ∀ c ∈ cs, c = .state := by
  induction cs generalizing p with
  | nil => cases h; exact ⟨rfl, by simp⟩
  | cons c cs ih =>
    obtain ⟨r, hr, h⟩ := run_cons.mp h
    obtain ⟨rfl, hall⟩ := ih h
    have hc : p = .fresh ∧ c = .state := by
      cases p <;> cases c <;> first | exact ⟨rfl, rfl⟩ | cases hr
    exact ⟨hc.1, by simpa [hc.2] using hall⟩

theorem added_mem (h : run Phase.future .fresh cs = some q) (hq : q ≠ .fresh) : .added ∈ cs := by
  induction cs with
  | nil => cases h; exact absurd rfl hq
  | cons c cs ih =>
    obtain ⟨r, hr, h⟩ := run_cons.mp h
    cases c with
    | added => simp
    | state => cases hr; exact List.mem_cons_of_mem _ (ih h)
    | frame | event | tensors | removed => cases hr

theorem removed_mem (h : run Phase.future p cs = some .gone) (hp : p ≠ .gone) : .removed ∈ cs := by
  induction cs generalizing p with
  | nil => cases h; exact absurd rfl hp
  | cons c cs ih =>
    obtain ⟨r, hr, h⟩ := run_cons.mp h
    by_cases hc : c = .removed
    · simp [hc]
    · have hr' : r ≠ .gone := by
        cases p <;> cases c <;> cases hr <;> first | exact absurd rfl hp | exact absurd rfl hc | simp
      exact List.mem_cons_of_mem _ (ih h hr')

theorem removed_not_mem (h : run Phase.future p cs = some q) (hq : q ≠ .gone) : .removed ∉ cs := by
  intro hm
  obtain ⟨ds, es, rfl⟩ := List.append_of_mem hm
  obtain ⟨r, -, h⟩ := run_append.mp h
  obtain ⟨r', hr', h⟩ := run_cons.mp h
  have : r' = .gone := by cases r <;> cases hr' <;> rfl
  subst this
  exact hq (Option.some.inj (h.symm.trans run_gone))

/-! ## What concerns one registration -/

structure View where
  /-- the index has been given out -/
  given : Bool
  adding : Bool
  /-- the context is there -/
  present : Bool
  registered : Bool
  removed : Bool
  /-- a frame is in the batch, and wanted -/
  framed : Bool
  /-- `_forget` is about to begin -/
  forgetting : Bool
  calls : List Call
  now : List Call
  items : List Call
  fifo : List Call

def View.waiting (v : View) : List Call := v.now ++ v.items ++ v.fifo

inductive Stage (v : View) : Prop
  /-- from before the index is given out to the call of `on_stream_removed` -/
  | inside (p q : Phase) (hp : run Phase.next .fresh v.calls = some p) (hq : run Phase.future p v.waiting = some q)
      (gone : p ≠ .gone) (forgetting : v.forgetting = false) (present : v.given = true → v.present = true)
      (given : v.given = false → q = .fresh) (adding : v.given = true → (v.adding = true ↔ q = .fresh))
      (registered : v.registered = true ↔ q ≠ .fresh) (removed : v.removed = true ↔ q = .gone)
      (framed : v.framed = true → ∃ r, run Phase.future p (v.now ++ v.items) = some r ∧ r ≠ .fresh)
      (once : v.waiting.count .removed ≤ 1)
  /-- the add has been rolled back -/
  | dropped (hp : run Phase.next .fresh v.calls = some .fresh) (given : v.given = true) (adding : v.adding = false)
      (present : v.present = false) (forgetting : v.forgetting = false) (registered : v.registered = false)
      (removed : v.removed = false) (now : ∀ c ∈ v.now, c = .state) (once : .removed ∉ v.waiting)
  /-- `on_stream_removed` has been called -/
  | gone (hp : run Phase.next .fresh v.calls = some .gone) (given : v.given = true) (adding : v.adding = false)
      (present : v.present = true → v.forgetting = true) (registered : v.registered = true)
      (removed : v.removed = true) (now : v.now = []) (once : .removed ∉ v.waiting)

variable {v : View} {b : Bool}

theorem Stage.calls_ordered (hv : Stage v) : (run Phase.next .fresh v.calls).isSome := by
  cases hv with
  | inside p q hp => simp [hp]
  | dropped hp => simp [hp]
  | gone hp => simp [hp]

theorem Stage.added_waits (hv : Stage v) (hr : v.registered = true) : .added ∈ v.calls ∨ .added ∈ v.waiting := by
  cases hv with
  | inside p q hp hq _ _ _ _ _ registered =>
    have hq' := registered.mp hr
    have h : run Phase.future .fresh (v.calls ++ v.waiting) = some q :=
      run_append.mpr ⟨p, run_future_of_next hp, hq⟩
    simpa using added_mem h hq'
  | dropped _ _ _ _ _ registered => rw [hr] at registered; cases registered
  | gone hp => exact .inl (added_mem (run_future_of_next hp) (by simp))

theorem Stage.removed_waits (hv : Stage v) (hr : v.removed = true) : .removed ∈ v.calls ∨ .removed ∈ v.waiting := by
  cases hv with
  | inside p q hp hq gone _ _ _ _ _ removed =>
    have hq' := removed.mp hr
    subst hq'
    exact .inr (removed_mem hq gone)
  | dropped _ _ _ _ _ _ removed => rw [hr] at removed; cases removed
  | gone hp => exact .inl (removed_mem (run_future_of_next hp) (by simp))

/-! What happens to a registration: its own adding and removing. -/

theorem Stage.given (hv : Stage v) (hg : v.given = false) :
    Stage { v with given := true, adding := true, present := true } := by
  cases hv with
  | inside p q hp hq gone forgetting _ given _ registered removed framed once =>
    have hq' := given hg
    exact .inside p q hp hq gone forgetting (fun _ => rfl) (by simp) (by simp [hq']) registered removed framed once
  | dropped _ given => rw [hg] at given; cases given
  | gone _ given => rw [hg] at given; cases given

theorem Stage.added (hv : Stage v) (hg : v.given = true) (ha : v.adding = true) :
    Stage { v with adding := false, registered := true, fifo := v.fifo ++ [.added] } := by
  cases hv with
  | inside p q hp hq gone forgetting present given adding registered removed framed once =>
    have hq' := (adding hg).mp ha
    subst hq'
    have hall := (run_fresh hq).2
    have hw : View.waiting { v with adding := false, registered := true, fifo := v.fifo ++ [.added] } =
        v.waiting ++ [.added] := by simp [View.waiting]
    refine .inside p .live hp ?_ gone forgetting present ?_ ?_ ?_ ?_ framed ?_
    · rw [hw]
      exact run_append.mpr ⟨.fresh, hq, rfl⟩
    · intro hn
      rw [hg] at hn
      cases hn
    · simp
    · simp
    · simpa using removed
    · rw [hw]
      simpa using once
  | dropped _ _ adding => rw [ha] at adding; cases adding
  | gone _ _ adding => rw [ha] at adding; cases adding

theorem Stage.rolledBack (hv : Stage v) (hg : v.given = true) (ha : v.adding = true) :
    Stage { v with adding := false, present := false } := by
  cases hv with
  | inside p q hp hq gone forgetting present given adding registered removed framed once =>
    have hq' := (adding hg).mp ha
    subst hq'
    obtain ⟨rfl, hall⟩ := run_fresh hq
    have hr : v.registered = false := by simpa using registered
    have hm : v.removed = false := by simpa using removed
    refine .dropped hp hg rfl rfl forgetting hr hm ?_ ?_
    · exact fun c hc => hall c (by simp [View.waiting, hc])
    · exact removed_not_mem hq (by simp)
  | dropped _ _ adding => rw [ha] at adding; cases adding
  | gone _ _ adding => rw [ha] at adding; cases adding

theorem Stage.leaves (hv : Stage v) (hg : v.given = true) (ha : v.adding = false) (hp : v.present = true)
    (hr : v.removed = false) : Stage { v with removed := true, fifo := v.fifo ++ [.removed] } := by
  cases hv with
  | inside p q hp hq gone forgetting present given adding registered removed framed once =>
    have hlive : q = .live := by
      have hfresh : q ≠ .fresh := fun h => by simp [(adding hg).mpr h] at ha
      have hgone : q ≠ .gone := fun h => by simp [removed.mpr h] at hr
      cases q <;> first | rfl | exact absurd rfl hfresh | exact absurd rfl hgone
    subst hlive
    have hw : View.waiting { v with removed := true, fifo := v.fifo ++ [.removed] } = v.waiting ++ [.removed] := by
      simp [View.waiting]
    have hnot := removed_not_mem hq (by simp)
    refine .inside p .gone hp ?_ gone forgetting present ?_ ?_ ?_ ?_ framed ?_
    · rw [hw]
      exact run_append.mpr ⟨.live, hq, rfl⟩
    · intro hn
      rw [hg] at hn
      cases hn
    · simp [ha]
    · simpa using registered
    · simp
    · rw [hw, List.count_append, List.count_eq_zero_of_not_mem hnot]
      simp
  | dropped _ _ _ present => rw [hp] at present; cases present
  | gone _ _ _ _ _ removed => rw [hr] at removed; cases removed

/-! What the readers and the hook thread do for it. -/

/-- An event or tensors of a registration whose add is not under way. -/
theorem Stage.data (hv : Stage v) (hg : v.given = true) (ha : v.adding = false) (hc : c = .event ∨ c = .tensors) :
    Stage { v with fifo := v.fifo ++ [c] } := by
  have hw : View.waiting { v with fifo := v.fifo ++ [c] } = v.waiting ++ [c] := by simp [View.waiting]
  have hne : c ≠ .removed := by
    obtain rfl | rfl := hc <;> simp
  cases hv with
  | inside p q hp hq gone forgetting present given adding registered removed framed once =>
    have hfresh : q ≠ .fresh := fun h => by simp [(adding hg).mpr h] at ha
    have hself : q.future c = some q := by
      cases q with
      | fresh => exact absurd rfl hfresh
      | live => obtain rfl | rfl := hc <;> rfl
      | gone => rfl
    refine .inside p q hp ?_ gone forgetting present given adding registered removed framed ?_
    · rw [hw]
      exact run_append.mpr ⟨q, hq, run_cons.mpr ⟨q, hself, rfl⟩⟩
    · rw [hw, List.count_append, List.count_singleton, if_neg (by simpa using hne)]
      omega
  | dropped hp given adding present forgetting registered removed now once =>
    refine .dropped hp given adding present forgetting registered removed now ?_
    rw [hw]
    simpa [hne.symm] using once
  | gone hp given adding present registered removed now once =>
    refine .gone hp given adding present registered removed now ?_
    rw [hw]
    simpa [hne.symm] using once

/-- The hook thread takes what there is; of a frame the add is not under way. -/
theorem Stage.taken (hv : Stage v) (hi : v.items = [])
    (hb : b = true → v.given = true ∧ v.adding = false) :
    Stage { v with items := v.fifo, fifo := [], framed := b } := by
  have hw : View.waiting { v with items := v.fifo, fifo := [], framed := b } = v.waiting := by simp [View.waiting, hi]
  cases hv with
  | inside p q hp hq gone forgetting present given adding registered removed framed once =>
    refine .inside p q hp (by rwa [hw]) gone forgetting present given adding registered removed ?_ (by rwa [hw])
    intro hframed
    obtain ⟨hg, ha⟩ := hb hframed
    refine ⟨q, ?_, fun h => by simp [(adding hg).mpr h] at ha⟩
    simpa [View.waiting, hi] using hq
  | dropped hp given adding present forgetting registered removed now once =>
    exact .dropped hp given adding present forgetting registered removed now (by rwa [hw])
  | gone hp given adding present registered removed now once =>
    exact .gone hp given adding present registered removed now (by rwa [hw])

/-- An item of which the hook is not called: there is no context, or no
`on_tensors`. -/
theorem Stage.skipped (hv : Stage v) (hn : v.now = []) (hi : v.items = c :: cs)
    (hc : v.present = false ∧ c ≠ .removed ∨ c = .tensors) : Stage { v with items := cs } := by
  have hne : c ≠ .removed := by
    obtain hc | rfl := hc
    · exact hc.2
    · simp
  have hw : v.waiting = c :: View.waiting { v with items := cs } := by simp [View.waiting, hn, hi]
  cases hv with
  | inside p q hp hq gone forgetting present given adding registered removed framed once =>
    rw [hw] at hq
    have hself : p.future c = some p := by
      obtain ⟨r, hr, hq'⟩ := run_cons.mp hq
      obtain ⟨hc, -⟩ | rfl := hc
      · have hg : v.given = false := by
          cases hg : v.given with
          | false => rfl
          | true =>
            rw [present hg] at hc
            cases hc
        have hq0 := given hg
        subst hq0
        obtain ⟨-, hall⟩ := run_fresh hq
        rw [hall c (by simp)]
        exact future_state
      · cases p <;> first | rfl | cases hr
    have hcons : ∀ {ds r}, run Phase.future p (c :: ds) = some r → run Phase.future p ds = some r := by
      intro ds r h
      obtain ⟨p', hp', h⟩ := run_cons.mp h
      rw [hself] at hp'
      cases hp'
      exact h
    refine .inside p q hp (hcons hq) gone forgetting present given adding registered removed ?_ ?_
    · intro hf
      obtain ⟨r, hr, hne⟩ := framed hf
      refine ⟨r, ?_, hne⟩
      rw [hn, hi] at hr
      rw [hn]
      exact hcons hr
    · rw [hw] at once
      exact (List.count_le_count_cons).trans once
  | dropped hp given adding present forgetting registered removed now once =>
    rw [hw] at once
    exact .dropped hp given adding present forgetting registered removed now fun h => once (List.mem_cons_of_mem _ h)
  | gone hp given adding present registered removed now once =>
    rw [hw] at once
    exact .gone hp given adding present registered removed now fun h => once (List.mem_cons_of_mem _ h)

/-- An item whose context is there, or carried by it. -/
theorem Stage.fetched (hv : Stage v) (hn : v.now = []) (hf : v.forgetting = false) (hi : v.items = c :: cs)
    (hc : v.present = true ∨ c = .removed) : Stage { v with now := [c], items := cs } := by
  have hw : View.waiting { v with now := [c], items := cs } = v.waiting := by simp [View.waiting, hn, hi]
  have hm : c ∈ v.waiting := by simp [View.waiting, hi]
  cases hv with
  | inside p q hp hq gone forgetting present given adding registered removed framed once =>
    refine .inside p q hp (by rwa [hw]) gone forgetting present given adding registered removed ?_ (by rwa [hw])
    simpa [hn, hi] using framed
  | dropped hp given adding present forgetting registered removed now once =>
    obtain hc | rfl := hc
    · rw [hc] at present
      cases present
    · exact absurd hm once
  | gone hp given adding present registered removed now once =>
    obtain hc | rfl := hc
    · rw [present hc] at hf
      cases hf
    · exact absurd hm once

/-- A state, or a frame after all items, of which the context is there. -/
theorem Stage.called (hv : Stage v) (hn : v.now = []) (hf : v.forgetting = false) (hp : v.present = true)
    (hc : c = .state ∨ c = .frame ∧ v.items = [] ∧ v.framed = true) : Stage { v with now := [c] } := by
  have hne : c ≠ .removed := by
    obtain rfl | ⟨rfl, -⟩ := hc <;> simp
  have hw : View.waiting { v with now := [c] } = c :: v.waiting := by simp [View.waiting, hn]
  cases hv with
  | inside p q hp hq gone forgetting present given adding registered removed framed once =>
    have hself : p.future c = some p := by
      obtain rfl | ⟨rfl, hi, hframed⟩ := hc
      · exact future_state
      · obtain ⟨r, hr, hne⟩ := framed hframed
        simp only [hn, hi, List.append_nil, run_nil, Option.some.injEq] at hr
        subst hr
        cases p <;> first | rfl | exact absurd rfl hne
    refine .inside p q hp ?_ gone forgetting present given adding registered removed ?_ ?_
    · rw [hw]
      exact run_cons.mpr ⟨p, hself, hq⟩
    · intro hframed
      obtain ⟨r, hr, hne⟩ := framed hframed
      refine ⟨r, run_cons.mpr ⟨p, hself, ?_⟩, hne⟩
      simpa [hn] using hr
    · rw [hw, List.count_cons_of_ne hne]
      exact once
  | dropped _ _ _ present => rw [hp] at present; cases present
  | gone _ _ _ present => rw [present hp] at hf; cases hf

/-- Fewer frames wait. -/
theorem Stage.unframed (hv : Stage v) (hb : b = true → v.framed = true) : Stage { v with framed := b } := by
  cases hv with
  | inside p q hp hq gone forgetting present given adding registered removed framed once =>
    exact .inside p q hp hq gone forgetting present given adding registered removed (fun h => framed (hb h)) once
  | dropped hp given adding present forgetting registered removed now once =>
    exact .dropped hp given adding present forgetting registered removed now once
  | gone hp given adding present registered removed now once =>
    exact .gone hp given adding present registered removed now once

/-- The hook is called. -/
theorem Stage.call (hv : Stage v) (hn : v.now = [c]) :
    Stage { v with calls := v.calls ++ [c], now := [], forgetting := decide (c = .removed) } := by
  have hw : v.waiting = c :: (v.items ++ v.fifo) := by simp [View.waiting, hn]
  cases hv with
  | inside p q hp hq gone forgetting present given adding registered removed framed once =>
    rw [hw] at hq once
    obtain ⟨r, hr, hq⟩ := run_cons.mp hq
    rw [future_of_ne gone] at hr
    have hcalls : run Phase.next .fresh (v.calls ++ [c]) = some r := run_snoc.mpr ⟨p, hp, hr⟩
    by_cases hc : c = .removed
    · subst hc
      have hlive : p = .live ∧ r = .gone := by
        cases p <;> cases hr
        exact ⟨rfl, rfl⟩
      obtain ⟨rfl, rfl⟩ := hlive
      have hq' : q = .gone := Option.some.inj (hq.symm.trans run_gone)
      subst hq'
      have hg : v.given = true := by
        cases hg : v.given with
        | true => rfl
        | false => exact absurd (given hg) (by simp)
      have ha : v.adding = false := by
        cases ha : v.adding with
        | false => rfl
        | true => exact absurd ((adding hg).mp ha) (by simp)
      refine .gone hcalls hg ha (fun _ => by simp) (registered.mpr (by simp)) (removed.mpr rfl) rfl ?_
      rw [List.count_cons_self] at once
      have hzero : (v.items ++ v.fifo).count .removed = 0 := by omega
      simpa [View.waiting] using List.count_eq_zero.mp hzero
    · have hr' : r ≠ .gone := by
        cases p <;> cases c <;> cases hr <;> first | exact absurd rfl hc | simp
      refine .inside r q hcalls (by simpa [View.waiting] using hq) hr' (by simp [hc]) present given adding registered
        removed ?_ ?_
      · intro hframed
        obtain ⟨r', hr'', hne⟩ := framed hframed
        rw [hn] at hr''
        obtain ⟨r₁, hr₁, hrun⟩ := run_cons.mp hr''
        rw [future_of_ne gone, hr] at hr₁
        cases hr₁
        exact ⟨r', hrun, hne⟩
      · simpa [View.waiting] using (List.count_le_count_cons).trans once
  | dropped hp given adding present forgetting registered removed now once =>
    have hc : c = .state := now c (by simp [hn])
    subst hc
    rw [hw] at once
    refine .dropped (run_snoc.mpr ⟨.fresh, hp, rfl⟩) given adding present (by simp) registered removed (by simp) ?_
    exact fun h => once (List.mem_cons_of_mem _ (by simpa [View.waiting] using h))
  | gone _ _ _ _ _ _ now => rw [hn] at now; cases now

/-- The context is forgotten. -/
theorem Stage.forget (hv : Stage v) (hf : v.forgetting = true) :
    Stage { v with present := false, forgetting := false } := by
  cases hv with
  | inside _ _ _ _ _ forgetting => rw [hf] at forgetting; cases forgetting
  | dropped _ _ _ _ forgetting => rw [hf] at forgetting; cases forgetting
  | gone hp given adding present registered removed now once =>
    exact .gone hp given adding (by simp) registered removed now once

end RetailVision.HookThread
