/-
One context at a time on a stream, and its frames in order. A context takes a
stream that is not busy, which it then is until this context releases it: no
stream is claimed twice (`Exclusive`). A claim takes one frame out of the slot
(`Lib.Mailbox`), which the context processes or lets go before the release,
so what is processed of a stream is part of what was put, in the same order.

What a context can do is said once (`ContextMove`); what the threads did is a
list of events beside the state (`State.event`).
-/
import RetailVision.NativeRemove
import RetailVision.Lib.Mailbox
import RetailVision.Lib.Stride

set_option linter.all false

namespace RetailVision.NativeRuntime

open Lib Lib.Mailbox

/-- The stream a context is in `ContextPool::process` with. -/
def Context.processes : Context → Option Nat
  | .entering h _ _ _ | .inFrame h _ _ => some h
  | _ => none

/-- The frames a context has taken and is to process, with their streams. -/
def Context.pending : Context → List (Nat × Nat)
  | .claiming _ taken => taken
  | .batch todo _ | .inFrame _ todo _ => todo
  | .entering h f todo _ => (h, f) :: todo
  | .idle | .releasing _ => []

/-- The streams a context is at or comes to. -/
def Context.ahead : Context → List Nat
  | .inFrame h todo _ => h :: todo.map (·.1)
  | ctx => ctx.pending.map (·.1)

/-- The streams a context is to look at for a claim. -/
def Context.looksAt : Context → List Nat
  | .claiming todo _ => todo
  | _ => []

inductive Kind
  | put
  | taken
  | processed
  deriving DecidableEq

/-- What happens to a frame of a stream. -/
structure Event where
  kind : Kind
  stream : Nat
  frame : Nat
  deriving DecidableEq

/-- What a step does with a frame. -/
def State.event (s : State) : Action → Option Event
  | .readFrame h => some ⟨.put, h, s.frames⟩
  | .claim c got => match s.contexts c with
    | .claiming (h :: _) _ =>
      if got = true ∧ (s.heap h).holder = none ∧ (s.heap h).busy = false ∧ (s.heap h).removing = false then
        (s.heap h).latest.map fun f => ⟨.taken, h, f⟩
      else none
    | _ => none
  | .enterFrame c => match s.contexts c with
    | .entering h f _ _ => some ⟨.processed, h, f⟩
    | _ => none
  | _ => none

/-- The events of a run, added to by each step. -/
def note (s : State) (a : Action) (es : List Event) : List Event := es ++ (s.event a).toList

/-- The frames of a stream that something happened to, in order. -/
def framesOf (kind : Kind) (h : Nat) (es : List Event) : List Nat :=
  (es.filter fun e => e.kind = kind ∧ e.stream = h).map (·.frame)

variable {maxBatch : Nat} {s s' : State} {a : Action} {as : List Action} {h k c d f : Nat} {kind : Kind}
  {es : List Event} {e : Event}

@[simp] theorem framesOf_nil : framesOf kind h [] = [] := rfl

theorem framesOf_append {es' : List Event} : framesOf kind h (es ++ es') = framesOf kind h es ++ framesOf kind h es' := by
  simp [framesOf]

theorem framesOf_self : framesOf e.kind e.stream (es ++ [e]) = framesOf e.kind e.stream es ++ [e.frame] := by
  simp [framesOf]

theorem framesOf_stream_ne (he : h ≠ e.stream) : framesOf kind h (es ++ [e]) = framesOf kind h es := by
  simp [framesOf, he.symm]

theorem framesOf_kind_ne (he : kind ≠ e.kind) : framesOf kind h (es ++ [e]) = framesOf kind h es := by
  simp [framesOf, he.symm]

/-! ## What a context can do -/

/-- A step of the context `c`, and what it does with a frame. -/
inductive ContextMove (s s' : State) (c : Nat) : Option Event → Prop
  /-- it goes on without touching a stream -/
  | looks (ctx : Context) (heap : s'.heap = s.heap) (contexts : s'.contexts = Function.update s.contexts c ctx)
      (claimed : ctx.claimed = (s.contexts c).claimed) (ahead : ctx.ahead.Sublist (s.contexts c).ahead)
      (pending : ctx.pending.Sublist (s.contexts c).pending)
      (looksAt : ∀ h ∈ ctx.looksAt, h ∈ (s.contexts c).looksAt ∨ h ∈ s.streams) : ContextMove s s' c none
  | takes (h f : Nat) (todo : List Nat) (batch : List (Nat × Nat)) (at_ : s.contexts c = .claiming (h :: todo) batch)
      (latest : (s.heap h).latest = some f) (free : (s.heap h).busy = false) (notRemoving : (s.heap h).removing = false)
      (heap : s'.heap = (s.modify h fun st => { st with latest := none, busy := true }).heap)
      (contexts : s'.contexts = Function.update s.contexts c (.claiming todo (batch ++ [(h, f)]))) :
      ContextMove s s' c (some ⟨.taken, h, f⟩)
  | enters (h f : Nat) (todo : List (Nat × Nat)) (claimed : List Nat) (at_ : s.contexts c = .entering h f todo claimed)
      (heap : s'.heap = (s.modify h fun st => { st with holder := some c }).heap)
      (contexts : s'.contexts = Function.update s.contexts c (.inFrame h todo claimed)) :
      ContextMove s s' c (some ⟨.processed, h, f⟩)
  | leaves (h : Nat) (todo : List (Nat × Nat)) (claimed : List Nat) (at_ : s.contexts c = .inFrame h todo claimed)
      (heap : s'.heap = (s.modify h fun st => { st with holder := none }).heap)
      (contexts : s'.contexts = Function.update s.contexts c (.batch todo claimed)) : ContextMove s s' c none
  | releases (h : Nat) (claimed : List Nat) (at_ : s.contexts c = .releasing (h :: claimed))
      (heap : s'.heap = (s.modify h fun st => { st with busy := false }).heap)
      (contexts : s'.contexts = Function.update s.contexts c (.releasing claimed)) : ContextMove s s' c none

theorem claim_move {got : Bool} {todo : List Nat} {batch : List (Nat × Nat)}
    (hc : s.contexts c = .claiming (h :: todo) batch) :
    ContextMove s (s.claim c h got todo batch) c (s.event (.claim c got)) := by
  have hskip : ContextMove s (s.setContext c (.claiming todo batch)) c none := by
    refine .looks _ rfl rfl ?_ ?_ ?_ ?_
    all_goals rw [hc]
    · rfl
    · exact List.Sublist.refl _
    · exact List.Sublist.refl _
    · exact fun k hk => .inl (by simpa [Context.looksAt] using .inr hk)
  simp only [State.claim, State.event, hc]
  cases hl : (s.heap h).latest with
  | none => simpa using hskip
  | some f =>
    simp only [Option.map_some]
    by_cases hg : got = true ∧ (s.heap h).holder = none ∧ (s.heap h).busy = false ∧ (s.heap h).removing = false
    · rw [if_pos hg, if_pos hg]
      exact .takes h f todo batch hc hl hg.2.2.1 hg.2.2.2 rfl rfl
    · rw [if_neg hg, if_neg hg]
      exact hskip

theorem endClaims_move {todo : List Nat} {batch : List (Nat × Nat)} (hc : s.contexts c = .claiming todo batch) :
    ContextMove s (s.endClaims c batch) c none := by
  refine .looks (if batch = [] then .idle else .batch batch (batch.map (·.1))) rfl rfl ?_ ?_ ?_ ?_
  all_goals
    rw [hc]
    by_cases hb : batch = []
    · simp [hb, Context.claimed, Context.ahead, Context.pending, Context.looksAt]
    · simp [hb, Context.claimed, Context.ahead, Context.pending, Context.looksAt]

theorem stepContext_move (hs : stepContext maxBatch s a = some s') : ∃ c, ContextMove s s' c (s.event a) := by
  cases a <;> simp only [stepContext] at hs
  case snapshot c =>
    split at hs <;> cases hs
    next hc _ =>
    refine ⟨c, .looks _ rfl rfl ?_ ?_ ?_ fun k hk => .inr ?_⟩
    · simp [hc, Context.claimed]
    · simp [hc, Context.ahead, Context.pending]
    · simp [Context.pending]
    · exact (rotateLeft_perm ..).mem_iff.mp hk
  case claim c got =>
    split at hs
    · next hc =>
      split at hs <;> cases hs
      exact ⟨c, claim_move hc⟩
    · cases hs
  case endClaims c =>
    split at hs
    · next hc =>
      split at hs <;> cases hs
      exact ⟨c, endClaims_move hc⟩
    · cases hs
  case checkRemoving c =>
    split at hs <;> cases hs
    · next k f todo claimed hc =>
      refine ⟨c, .looks _ rfl rfl ?_ ?_ ?_ ?_⟩
      all_goals
        rw [hc]
        by_cases hr : (s.heap k).removing = true
        · simp [hr, Context.claimed, Context.ahead, Context.pending, Context.looksAt]
        · simp [hr, Context.claimed, Context.ahead, Context.pending, Context.looksAt]
    · next claimed hc =>
      refine ⟨c, .looks _ rfl rfl ?_ ?_ ?_ ?_⟩
      all_goals simp [hc, Context.claimed, Context.ahead, Context.pending, Context.looksAt]
  case enterFrame c =>
    split at hs
    · next k f todo claimed hc =>
      split at hs <;> cases hs
      refine ⟨c, ?_⟩
      simp only [State.event, hc]
      exact .enters k f todo claimed hc rfl rfl
    · cases hs
  case endFrame c =>
    split at hs <;> cases hs
    next k todo claimed hc => exact ⟨c, .leaves k todo claimed hc rfl rfl⟩
  case release c =>
    split at hs
    · next k claimed hc =>
      split at hs <;> cases hs
      exact ⟨c, .releases k claimed hc rfl rfl⟩
    · next hc =>
      cases hs
      refine ⟨c, .looks _ rfl rfl ?_ ?_ ?_ ?_⟩
      all_goals simp [hc, Context.claimed, Context.ahead, Context.pending, Context.looksAt]
    · cases hs
  all_goals cases hs

/-! ## No stream is claimed twice -/

/-- What is claimed is busy, claimed once, and by one context. -/
structure Exclusive (s : State) : Prop where
  busy : ∀ c, ∀ h ∈ (s.contexts c).claimed, (s.heap h).busy = true
  nodup : ∀ c, (s.contexts c).claimed.Nodup
  disjoint : ∀ c d h, h ∈ (s.contexts c).claimed → h ∈ (s.contexts d).claimed → c = d
  ahead : ∀ c, (s.contexts c).ahead.Sublist (s.contexts c).claimed
  looksAt : ∀ c, ∀ h ∈ (s.contexts c).looksAt, h < s.next
  fresh : ∀ h, s.next ≤ h → (s.heap h).busy = false ∧ (s.heap h).source = .left

/-- A context that keeps its claims and changes no stream's `busy`. -/
theorem Exclusive.update {ctx : Context} (hi : Exclusive s) (hc : s'.contexts = Function.update s.contexts c ctx)
    (hcl : ctx.claimed = (s.contexts c).claimed) (ha : ctx.ahead.Sublist (s.contexts c).ahead)
    (hl : ∀ h ∈ ctx.looksAt, h < s.next) (hn : s'.next = s.next) (hb : ∀ h, (s'.heap h).busy = (s.heap h).busy)
    (hsrc : ∀ h, (s'.heap h).source = (s.heap h).source) : Exclusive s' := by
  have hself : s'.contexts c = ctx := by rw [hc, Function.update_self]
  have hne : ∀ d, d ≠ c → s'.contexts d = s.contexts d := fun d hd => by rw [hc, Function.update_of_ne hd]
  have hclaimed : ∀ d, (s'.contexts d).claimed = (s.contexts d).claimed := by
    intro d
    by_cases hd : d = c
    · rw [hd, hself, hcl]
    · rw [hne d hd]
  constructor
  case busy => exact fun d k hk => (hb k).trans (hi.busy d k (hclaimed d ▸ hk))
  case nodup => exact fun d => hclaimed d ▸ hi.nodup d
  case disjoint => exact fun d e k hd he => hi.disjoint d e k (hclaimed d ▸ hd) (hclaimed e ▸ he)
  case ahead =>
    intro d
    rw [hclaimed]
    by_cases hd : d = c
    · rw [hd, hself]
      exact ha.trans (hi.ahead c)
    · rw [hne d hd]
      exact hi.ahead d
  case looksAt =>
    intro d k hk
    rw [hn]
    by_cases hd : d = c
    · rw [hd, hself] at hk
      exact hl k hk
    · rw [hne d hd] at hk
      exact hi.looksAt d k hk
  case fresh =>
    intro k hk
    rw [hb, hsrc]
    exact hi.fresh k (hn ▸ hk)

/-- Nobody has claimed a stream that is not busy. -/
theorem Exclusive.not_claimed (hi : Exclusive s) (hb : (s.heap h).busy = false) : h ∉ (s.contexts c).claimed := by
  intro hm
  rw [hi.busy c h hm] at hb
  cases hb

theorem Exclusive.lt (hi : Exclusive s) (hm : h ∈ (s.contexts c).claimed) : h < s.next := by
  by_contra hlt
  exact hi.not_claimed (hi.fresh h (by omega)).1 hm

theorem Exclusive.takes {todo : List Nat} {batch : List (Nat × Nat)} (hi : Exclusive s)
    (hc : s.contexts c = .claiming (h :: todo) batch) (hf : (s.heap h).busy = false)
    (hb : ∀ k, (s'.heap k).busy = true ↔ k = h ∨ (s.heap k).busy = true)
    (hctx : s'.contexts = Function.update s.contexts c (.claiming todo (batch ++ [(h, f)]))) (hn : s'.next = s.next)
    (hsrc : ∀ k, (s'.heap k).source = (s.heap k).source) : Exclusive s' := by
  have hcl : (s.contexts c).claimed = batch.map (·.1) := by rw [hc]; rfl
  have hself : s'.contexts c = .claiming todo (batch ++ [(h, f)]) := by rw [hctx, Function.update_self]
  have hne : ∀ d, d ≠ c → s'.contexts d = s.contexts d := fun d hd => by rw [hctx, Function.update_of_ne hd]
  have hclaimed : ∀ d k, k ∈ (s'.contexts d).claimed → k ∈ (s.contexts d).claimed ∨ d = c ∧ k = h := by
    intro d k hk
    by_cases hd : d = c
    · subst hd
      rw [hself] at hk
      rw [hcl]
      simpa [Context.claimed] using hk
    · exact .inl (hne d hd ▸ hk)
  have hold : ∀ d, h ∉ (s.contexts d).claimed := fun d => hi.not_claimed hf
  constructor
  case busy =>
    intro d k hk
    rcases hclaimed d k hk with hk | ⟨-, rfl⟩
    · exact (hb k).mpr (.inr (hi.busy d k hk))
    · exact (hb k).mpr (.inl rfl)
  case nodup =>
    intro d
    by_cases hd : d = c
    · subst hd
      have hcons : (h :: (s.contexts d).claimed).Nodup := List.nodup_cons.mpr ⟨hold d, hi.nodup d⟩
      rw [hself]
      rw [hcl] at hcons
      have hperm : (batch.map (·.1) ++ [h]).Perm (h :: batch.map (·.1)) := List.perm_append_comm
      simpa [Context.claimed] using hperm.nodup_iff.mpr hcons
    · exact hne d hd ▸ hi.nodup d
  case disjoint =>
    intro d e k hd he
    rcases hclaimed d k hd with hd | ⟨rfl, rfl⟩
    · rcases hclaimed e k he with he | ⟨rfl, rfl⟩
      · exact hi.disjoint d e k hd he
      · exact absurd hd (hold d)
    · rcases hclaimed e k he with he | ⟨he, -⟩
      · exact absurd he (hold e)
      · exact he.symm
  case ahead =>
    intro d
    by_cases hd : d = c
    · rw [hd, hself]
      exact List.Sublist.refl _
    · exact hne d hd ▸ hi.ahead d
  case looksAt =>
    intro d k hk
    rw [hn]
    by_cases hd : d = c
    · rw [hd, hself] at hk
      exact hi.looksAt c k (by rw [hc]; exact List.mem_cons_of_mem h hk)
    · exact hi.looksAt d k (hne d hd ▸ hk)
  case fresh =>
    intro k hk
    rw [hn] at hk
    have hlt : h < s.next := hi.looksAt c h (by simp [hc, Context.looksAt])
    obtain ⟨hfree, hleft⟩ := hi.fresh k hk
    refine ⟨?_, (hsrc k).trans hleft⟩
    by_contra hbusy
    rcases (hb k).mp (by simpa using hbusy) with rfl | hk'
    · omega
    · simp [hfree] at hk'

theorem Exclusive.releases {claimed : List Nat} (hi : Exclusive s) (hc : s.contexts c = .releasing (h :: claimed))
    (hb : ∀ k, (s'.heap k).busy = true ↔ k ≠ h ∧ (s.heap k).busy = true)
    (hctx : s'.contexts = Function.update s.contexts c (.releasing claimed)) (hn : s'.next = s.next)
    (hsrc : ∀ k, (s'.heap k).source = (s.heap k).source) : Exclusive s' := by
  have hcl : (s.contexts c).claimed = h :: claimed := by rw [hc]; rfl
  have hself : s'.contexts c = .releasing claimed := by rw [hctx, Function.update_self]
  have hne : ∀ d, d ≠ c → s'.contexts d = s.contexts d := fun d hd => by rw [hctx, Function.update_of_ne hd]
  have hnd := hi.nodup c
  rw [hcl] at hnd
  have hmem : ∀ d k, k ∈ (s'.contexts d).claimed → k ∈ (s.contexts d).claimed ∧ k ≠ h := by
    intro d k hk
    by_cases hd : d = c
    · rw [hd, hself] at hk
      rw [hd, hcl]
      exact ⟨List.mem_cons_of_mem h hk, fun he => (List.nodup_cons.mp hnd).1 (he ▸ hk)⟩
    · rw [hne d hd] at hk
      exact ⟨hk, fun he => hd (hi.disjoint d c h (he ▸ hk) (by simp [hcl]))⟩
  constructor
  case busy =>
    intro d k hk
    obtain ⟨hk, hkh⟩ := hmem d k hk
    exact (hb k).mpr ⟨hkh, hi.busy d k hk⟩
  case nodup =>
    intro d
    by_cases hd : d = c
    · rw [hd, hself]
      exact (List.nodup_cons.mp hnd).2
    · exact hne d hd ▸ hi.nodup d
  case disjoint => exact fun d e k hd he => hi.disjoint d e k (hmem d k hd).1 (hmem e k he).1
  case ahead =>
    intro d
    by_cases hd : d = c
    · rw [hd, hself]
      exact List.nil_sublist _
    · exact hne d hd ▸ hi.ahead d
  case looksAt =>
    intro d k hk
    rw [hn]
    by_cases hd : d = c
    · rw [hd, hself] at hk
      cases hk
    · exact hi.looksAt d k (hne d hd ▸ hk)
  case fresh =>
    intro k hk
    rw [hn] at hk
    obtain ⟨hfree, hleft⟩ := hi.fresh k hk
    refine ⟨?_, (hsrc k).trans hleft⟩
    by_contra hbusy
    have hk' := ((hb k).mp (by simpa using hbusy)).2
    simp [hfree] at hk'

theorem Exclusive.move (hi : Exclusive s) (hv : Inv s) (hf : ContextFrame s s') {o : Option Event}
    (hm : ContextMove s s' c o) : Exclusive s' := by
  cases hm with
  | looks ctx heap contexts claimed ahead pending looksAt =>
    refine hi.update contexts claimed ahead (fun k hk => ?_) hf.next (fun k => by rw [heap]) hf.source
    rcases looksAt k hk with hk | hk
    · exact hi.looksAt c k hk
    · exact hv.lt k hk
  | takes h f todo batch at_ latest free notRemoving heap contexts =>
    refine hi.takes at_ free (fun k => ?_) contexts hf.next hf.source
    rw [heap]
    by_cases hk : k = h
    · simp [hk, modify_heap_self]
    · simp [hk, modify_heap_ne hk]
  | enters h f todo claimed at_ heap contexts =>
    refine hi.update contexts ?_ ?_ ?_ hf.next (fun k => ?_) hf.source
    · rw [at_]; rfl
    · rw [at_]; exact List.Sublist.refl _
    · simp [Context.looksAt]
    · rw [heap]
      exact modify_keeps (·.busy) fun _ => rfl
  | leaves h todo claimed at_ heap contexts =>
    refine hi.update contexts ?_ ?_ ?_ hf.next (fun k => ?_) hf.source
    · rw [at_]; rfl
    · rw [at_]; exact List.sublist_cons_self ..
    · simp [Context.looksAt]
    · rw [heap]
      exact modify_keeps (·.busy) fun _ => rfl
  | releases h claimed at_ heap contexts =>
    refine hi.releases at_ (fun k => ?_) contexts hf.next hf.source
    rw [heap]
    by_cases hk : k = h
    · simp [hk, modify_heap_self]
    · simp [hk, modify_heap_ne hk]

/-- What a step of the control thread leaves of a stream. -/
structure SameSlot (st st' : Stream) : Prop where
  busy : st'.busy = st.busy
  latest : st'.latest = st.latest
  dropped : st'.dropped = st.dropped
  source : st'.source = st.source

/-- What no step of the control thread changes; it may add a stream. -/
structure ControlFrame (s s' : State) : Prop where
  contexts : s'.contexts = s.contexts
  frames : s'.frames = s.frames
  slot : s'.next = s.next ∧ (∀ h, SameSlot (s.heap h) (s'.heap h)) ∨
    s'.next = s.next + 1 ∧ (∀ h, h ≠ s.next → SameSlot (s.heap h) (s'.heap h)) ∧ ∃ i, s'.heap s.next = newStream i

theorem SameSlot.refl {st : Stream} : SameSlot st st := ⟨rfl, rfl, rfl, rfl⟩

theorem SameSlot.modify {f : Stream → Stream} (hf : ∀ st, SameSlot st (f st)) :
    SameSlot (s.heap k) ((s.modify h f).heap k) := by
  by_cases hk : k = h
  · rw [hk, modify_heap_self]
    exact hf _
  · rw [modify_heap_ne hk]
    exact .refl

theorem ControlFrame.setControl {ctl : Control} {streams : List Nat} {replies : List Reply} :
    ControlFrame s { s with control := ctl, streams := streams, replies := replies } :=
  ⟨rfl, rfl, .inl ⟨rfl, fun _ => .refl⟩⟩

theorem ControlFrame.setRemoving {ctl : Control} {b : Bool} :
    ControlFrame s { s.modify h fun st => { st with removing := b } with control := ctl } := by
  refine ⟨rfl, rfl, .inl ⟨rfl, fun k => ?_⟩⟩
  exact SameSlot.modify (f := fun st => { st with removing := b }) fun _ => ⟨rfl, rfl, rfl, rfl⟩

theorem ControlFrame.addStream {i : Nat} : ControlFrame s (s.addStream i) := by
  refine ⟨rfl, rfl, .inr ⟨rfl, fun k hk => ?_, i, Function.update_self ..⟩⟩
  rw [show (s.addStream i).heap k = s.heap k from Function.update_of_ne hk ..]
  exact .refl

theorem ControlFrame.stop : ControlFrame s s.stop := by
  refine ⟨rfl, rfl, .inl ⟨rfl, fun k => ?_⟩⟩
  simp only [State.stop]
  split
  · exact ⟨rfl, rfl, rfl, rfl⟩
  · exact .refl

theorem stepControl_slots (hs : stepControl s a = some s') : ControlFrame s s' := by
  cases a <;> simp only [stepControl] at hs
  case add i =>
    split at hs
    · split at hs <;> cases hs
      · exact .setControl
      · exact .addStream
    · cases hs
  case remove i =>
    split at hs
    · split at hs <;> cases hs
      · exact .setControl
      · exact .setControl
    · cases hs
  case tryLock got =>
    split at hs
    · split at hs <;> cases hs
      · exact .setControl
      · exact .setControl
    · cases hs
  case join =>
    split at hs
    · split at hs <;> cases hs
      exact .setControl
    · cases hs
  case stop =>
    split at hs <;> cases hs
    exact .stop
  case setRemoving =>
    split at hs <;> cases hs
    exact .setRemoving
  case takeBack =>
    split at hs <;> cases hs
    exact .setRemoving
  case clock passed =>
    split at hs <;> cases hs
    exact .setControl
  case replyTimeout =>
    split at hs <;> cases hs
    exact .setControl
  case detach =>
    split at hs <;> cases hs
    exact .setControl
  case replyRemoved =>
    split at hs <;> cases hs
    exact .setControl
  all_goals cases hs

theorem Exclusive.control (hi : Exclusive s) (hf : ControlFrame s s') : Exclusive s' := by
  have hslot : ∀ h, h ≠ s.next → SameSlot (s.heap h) (s'.heap h) := by
    intro h hh
    rcases hf.slot with ⟨-, hsame⟩ | ⟨-, hsame, -⟩
    · exact hsame h
    · exact hsame h hh
  have hle : s.next ≤ s'.next := by
    rcases hf.slot with ⟨hn, -⟩ | ⟨hn, -⟩
    · omega
    · omega
  constructor
  case busy =>
    intro c h hh
    rw [hf.contexts] at hh
    have hlt := hi.lt hh
    exact (hslot h (by omega)).busy.trans (hi.busy c h hh)
  case nodup => exact fun c => hf.contexts ▸ hi.nodup c
  case disjoint => exact fun c d h hc hd => hi.disjoint c d h (hf.contexts ▸ hc) (hf.contexts ▸ hd)
  case ahead => exact fun c => hf.contexts ▸ hi.ahead c
  case looksAt =>
    intro c h hh
    rw [hf.contexts] at hh
    have hlt := hi.looksAt c h hh
    omega
  case fresh =>
    intro h hh
    have hsame : SameSlot (s.heap h) (s'.heap h) := by
      rcases hf.slot with ⟨-, hsame⟩ | ⟨hn, hsame, -⟩
      · exact hsame h
      · exact hsame h (by omega)
    obtain ⟨hfree, hleft⟩ := hi.fresh h (by omega)
    exact ⟨hsame.busy.trans hfree, hsame.source.trans hleft⟩

theorem Exclusive.source (hi : Exclusive s) (hf : SourceFrame s a s') : Exclusive s' := by
  constructor
  case busy => exact fun c h hh => (hf.busy h).trans (hi.busy c h (hf.contexts ▸ hh))
  case nodup => exact fun c => hf.contexts ▸ hi.nodup c
  case disjoint => exact fun c d h hc hd => hi.disjoint c d h (hf.contexts ▸ hc) (hf.contexts ▸ hd)
  case ahead => exact fun c => hf.contexts ▸ hi.ahead c
  case looksAt => exact fun c h hh => hf.next ▸ hi.looksAt c h (hf.contexts ▸ hh)
  case fresh =>
    intro h hh
    obtain ⟨hfree, hleft⟩ := hi.fresh h (hf.next ▸ hh)
    exact ⟨(hf.busy h).trans hfree, hf.stays h hleft⟩

theorem step_exclusive (hv : Inv s) (hi : Exclusive s) (hs : step maxBatch s a = some s') : Exclusive s' := by
  rcases step_view hs with hs | hs | hs
  · exact hi.control (stepControl_slots hs)
  · exact hi.source (stepSource_frame hs)
  · obtain ⟨c, hm⟩ := stepContext_move hs
    exact hi.move hv (stepContext_frame hs) hm

theorem start_exclusive : Exclusive start where
  busy _ _ hh := by cases hh
  nodup _ := List.nodup_nil
  disjoint _ _ _ hh := by cases hh
  ahead _ := List.Sublist.refl _
  looksAt _ _ hh := by cases hh
  fresh _ _ := ⟨rfl, rfl⟩

/-- The stream a context processes is one it has claimed. -/
theorem Exclusive.claimed_of_processes (hi : Exclusive s) (hp : (s.contexts c).processes = some h) :
    h ∈ (s.contexts c).claimed := by
  refine (hi.ahead c).mem ?_
  revert hp
  cases s.contexts c with
  | entering k f todo claimed => simp +contextual [Context.processes, Context.ahead, Context.pending]
  | inFrame k todo claimed => simp +contextual [Context.processes, Context.ahead]
  | _ => simp [Context.processes]

/-! ## The frames of a stream -/

/-- The account of every stream's frames: its slot's, what is processed, and
what a context has still to process. -/
structure Ledger (s : State) (es : List Event) : Prop where
  lt : ∀ e ∈ es, e.stream < s.next
  read : ∀ h, ∀ f ∈ framesOf .put h es, f < s.frames
  sorted : ∀ h, (framesOf .put h es).Pairwise (· < ·)
  slot : ∀ h, Kept (framesOf .put h es) (framesOf .taken h es) (s.heap h).latest (s.heap h).dropped
  processed : ∀ h, (framesOf .processed h es).Sublist (framesOf .taken h es)
  pending : ∀ c, ∀ p ∈ (s.contexts c).pending,
    (framesOf .processed p.1 es ++ [p.2]).Sublist (framesOf .taken p.1 es)

/-- What no step with the event has to do with stays as it was. -/
theorem Ledger.framesOf_of_ge (hl : Ledger s es) (hh : s.next ≤ h) : framesOf kind h es = [] := by
  simp only [framesOf, List.map_eq_nil_iff, List.filter_eq_nil_iff, decide_eq_true_eq, not_and]
  intro e he _ heq
  have := hl.lt e he
  omega

theorem Ledger.control (hl : Ledger s es) (hf : ControlFrame s s') : Ledger s' es := by
  constructor
  case lt =>
    intro e he
    have hlt := hl.lt e he
    rcases hf.slot with ⟨hn, -⟩ | ⟨hn, -⟩
    · omega
    · omega
  case read => exact fun h f hm => hf.frames ▸ hl.read h f hm
  case sorted => exact hl.sorted
  case slot =>
    intro h
    have hkept := hl.slot h
    rcases hf.slot with ⟨-, hsame⟩ | ⟨-, hsame, i, hnew⟩
    · rw [(hsame h).latest, (hsame h).dropped]
      exact hkept
    · by_cases hh : h = s.next
      · rw [hh, hnew, hl.framesOf_of_ge (le_refl s.next), hl.framesOf_of_ge (le_refl s.next)]
        exact .empty
      · rw [(hsame h hh).latest, (hsame h hh).dropped]
        exact hkept
  case processed => exact hl.processed
  case pending => exact fun c p hp => hl.pending c p (hf.contexts ▸ hp)

/-- A step without an event that leaves the slots, and every context at most
what it had to process. -/
theorem Ledger.next (hl : Ledger s es) (hn : s'.next = s.next) (hfr : s'.frames = s.frames)
    (hlat : ∀ h, (s'.heap h).latest = (s.heap h).latest) (hd : ∀ h, (s'.heap h).dropped = (s.heap h).dropped)
    (hp : ∀ c, (s'.contexts c).pending.Sublist (s.contexts c).pending) : Ledger s' es where
  lt := hn ▸ hl.lt
  read := hfr ▸ hl.read
  sorted := hl.sorted
  slot h := by rw [hlat, hd]; exact hl.slot h
  processed := hl.processed
  pending c p hm := hl.pending c p ((hp c).mem hm)

theorem putFrame_heap_self : (s.putFrame h).heap h =
    { s.heap h with
      latest := some s.frames
      dropped := if (s.heap h).latest.isSome then (s.heap h).dropped + 1 else (s.heap h).dropped
      gotFirstFrame := true
      source := .looping } := Function.update_self ..

theorem putFrame_heap_ne (hk : k ≠ h) : (s.putFrame h).heap k = s.heap k := Function.update_of_ne hk ..

/-- A frame is put. -/
theorem Ledger.put (hl : Ledger s es) (hh : h < s.next) :
    Ledger (s.putFrame h) (es ++ [⟨.put, h, s.frames⟩]) := by
  have hput : ∀ k, k ≠ h → framesOf .put k (es ++ [⟨.put, h, s.frames⟩]) = framesOf .put k es :=
    fun k hk => framesOf_stream_ne hk
  have hself : framesOf .put h (es ++ [⟨.put, h, s.frames⟩]) = framesOf .put h es ++ [s.frames] :=
    framesOf_self (e := ⟨.put, h, s.frames⟩)
  have htaken : ∀ k, framesOf .taken k (es ++ [⟨.put, h, s.frames⟩]) = framesOf .taken k es :=
    fun k => framesOf_kind_ne (by simp)
  have hproc : ∀ k, framesOf .processed k (es ++ [⟨.put, h, s.frames⟩]) = framesOf .processed k es :=
    fun k => framesOf_kind_ne (by simp)
  constructor
  case lt =>
    intro e he
    rcases List.mem_append.mp he with he | he
    · exact hl.lt e he
    · rw [List.mem_singleton.mp he]
      exact hh
  case read =>
    intro k f hf
    show f < s.frames + 1
    by_cases hk : k = h
    · rw [hk, hself] at hf
      rcases List.mem_append.mp hf with hf | hf
      · have := hl.read h f hf
        omega
      · rw [List.mem_singleton.mp hf]
        omega
    · rw [hput k hk] at hf
      have := hl.read k f hf
      omega
  case sorted =>
    intro k
    by_cases hk : k = h
    · rw [hk, hself, List.pairwise_append]
      refine ⟨hl.sorted h, by simp, fun f hf g hg => ?_⟩
      rw [List.mem_singleton.mp hg]
      exact hl.read h f hf
    · rw [hput k hk]
      exact hl.sorted k
  case slot =>
    intro k
    rw [htaken]
    by_cases hk : k = h
    · rw [hk, hself]
      rw [putFrame_heap_self]
      exact (hl.slot h).put
    · rw [hput k hk, putFrame_heap_ne hk]
      exact hl.slot k
  case processed =>
    intro k
    rw [htaken, hproc]
    exact hl.processed k
  case pending =>
    intro c p hp
    rw [htaken, hproc]
    exact hl.pending c p hp

theorem Exclusive.claimed_of_pending (hi : Exclusive s) {p : Nat × Nat} (hp : p ∈ (s.contexts c).pending) :
    p.1 ∈ (s.contexts c).claimed := by
  have hm : p.1 ∈ (s.contexts c).pending.map (·.1) := List.mem_map_of_mem hp
  refine (hi.ahead c).mem ?_
  revert hm
  cases s.contexts c with
  | inFrame k todo claimed => exact fun hm => List.mem_cons_of_mem k hm
  | _ => exact id

/-- A claim takes the frame in the slot. -/
theorem Ledger.takes {todo : List Nat} {batch : List (Nat × Nat)} (hl : Ledger s es) (hi : Exclusive s)
    (hc : s.contexts c = .claiming (h :: todo) batch) (hlat : (s.heap h).latest = some f)
    (hheap : s'.heap = (s.modify h fun st => { st with latest := none, busy := true }).heap)
    (hctx : s'.contexts = Function.update s.contexts c (.claiming todo (batch ++ [(h, f)]))) (hn : s'.next = s.next)
    (hfr : s'.frames = s.frames) : Ledger s' (es ++ [⟨.taken, h, f⟩]) := by
  have hput : ∀ k, framesOf .put k (es ++ [⟨.taken, h, f⟩]) = framesOf .put k es :=
    fun k => framesOf_kind_ne (by simp)
  have hproc : ∀ k, framesOf .processed k (es ++ [⟨.taken, h, f⟩]) = framesOf .processed k es :=
    fun k => framesOf_kind_ne (by simp)
  have htaken : ∀ k, k ≠ h → framesOf .taken k (es ++ [⟨.taken, h, f⟩]) = framesOf .taken k es :=
    fun k hk => framesOf_stream_ne hk
  have hself : framesOf .taken h (es ++ [⟨.taken, h, f⟩]) = framesOf .taken h es ++ [f] :=
    framesOf_self (e := ⟨.taken, h, f⟩)
  have hmono : ∀ k, (framesOf .taken k es).Sublist (framesOf .taken k (es ++ [⟨.taken, h, f⟩])) := by
    intro k
    rw [framesOf_append]
    exact List.sublist_append_left ..
  constructor
  case lt =>
    intro e he
    rw [hn]
    rcases List.mem_append.mp he with he | he
    · exact hl.lt e he
    · rw [List.mem_singleton.mp he]
      exact hi.looksAt c h (by simp [hc, Context.looksAt])
  case read => exact fun k g hg => hfr ▸ hl.read k g (hput k ▸ hg)
  case sorted => exact fun k => hput k ▸ hl.sorted k
  case slot =>
    intro k
    rw [hput, hheap]
    by_cases hk : k = h
    · have hkept := hl.slot h
      rw [hlat] at hkept
      rw [hk, hself, modify_heap_self]
      exact hkept.take
    · rw [htaken k hk, modify_heap_ne hk]
      exact hl.slot k
  case processed =>
    intro k
    rw [hproc]
    exact (hl.processed k).trans (hmono k)
  case pending =>
    intro d p hp
    rw [hproc]
    have hold : ∀ q ∈ (s.contexts d).pending,
        (framesOf .processed q.1 es ++ [q.2]).Sublist (framesOf .taken q.1 (es ++ [⟨.taken, h, f⟩])) :=
      fun q hq => (hl.pending d q hq).trans (hmono q.1)
    by_cases hd : d = c
    · rw [hd, hctx, Function.update_self] at hp
      rcases List.mem_append.mp hp with hp | hp
      · exact hold p (by rw [hd, hc]; exact hp)
      · rw [List.mem_singleton.mp hp, hself]
        exact (hl.processed h).append (List.Sublist.refl [f])
    · rw [hctx, Function.update_of_ne hd] at hp
      exact hold p hp

/-- A context processes a frame it has taken. -/
theorem Ledger.enters {todo : List (Nat × Nat)} {claimed : List Nat} (hl : Ledger s es) (hi : Exclusive s)
    (hc : s.contexts c = .entering h f todo claimed)
    (hheap : s'.heap = (s.modify h fun st => { st with holder := some c }).heap)
    (hctx : s'.contexts = Function.update s.contexts c (.inFrame h todo claimed)) (hn : s'.next = s.next)
    (hfr : s'.frames = s.frames) : Ledger s' (es ++ [⟨.processed, h, f⟩]) := by
  have hput : ∀ k, framesOf .put k (es ++ [⟨.processed, h, f⟩]) = framesOf .put k es :=
    fun k => framesOf_kind_ne (by simp)
  have htaken : ∀ k, framesOf .taken k (es ++ [⟨.processed, h, f⟩]) = framesOf .taken k es :=
    fun k => framesOf_kind_ne (by simp)
  have hproc : ∀ k, k ≠ h → framesOf .processed k (es ++ [⟨.processed, h, f⟩]) = framesOf .processed k es :=
    fun k hk => framesOf_stream_ne hk
  have hself : framesOf .processed h (es ++ [⟨.processed, h, f⟩]) = framesOf .processed h es ++ [f] :=
    framesOf_self (e := ⟨.processed, h, f⟩)
  have hmine : h ∈ (s.contexts c).claimed := hi.claimed_of_processes (by rw [hc]; rfl)
  have hpend : (h, f) ∈ (s.contexts c).pending := by rw [hc]; exact List.mem_cons_self
  constructor
  case lt =>
    intro e he
    rw [hn]
    rcases List.mem_append.mp he with he | he
    · exact hl.lt e he
    · rw [List.mem_singleton.mp he]
      exact hi.lt hmine
  case read => exact fun k g hg => hfr ▸ hl.read k g (hput k ▸ hg)
  case sorted => exact fun k => hput k ▸ hl.sorted k
  case slot =>
    intro k
    have hlat : (s'.heap k).latest = (s.heap k).latest := by rw [hheap]; exact modify_keeps (·.latest) fun _ => rfl
    have hdrop : (s'.heap k).dropped = (s.heap k).dropped := by rw [hheap]; exact modify_keeps (·.dropped) fun _ => rfl
    rw [hput, htaken, hlat, hdrop]
    exact hl.slot k
  case processed =>
    intro k
    rw [htaken]
    by_cases hk : k = h
    · rw [hk, hself]
      exact hl.pending c (h, f) hpend
    · rw [hproc k hk]
      exact hl.processed k
  case pending =>
    intro d p hp
    rw [htaken]
    -- What is still to process is of other streams: this one is claimed once, by this context.
    have hne : p.1 ≠ h ∧ p ∈ (s.contexts d).pending := by
      by_cases hd : d = c
      · rw [hd, hctx, Function.update_self] at hp
        have hah := hi.ahead c
        rw [hc] at hah
        have hnd : ((h, f) :: todo).map (·.1) |>.Nodup := (hi.nodup c).sublist (by rw [hc]; exact hah)
        rw [List.map_cons, List.nodup_cons] at hnd
        refine ⟨fun he => hnd.1 ?_, by rw [hd, hc]; exact List.mem_cons_of_mem _ hp⟩
        rw [← he]
        exact List.mem_map.mpr ⟨p, hp, rfl⟩
      · rw [hctx, Function.update_of_ne hd] at hp
        refine ⟨fun he => hd ?_, hp⟩
        exact hi.disjoint d c h (he ▸ hi.claimed_of_pending hp) hmine
    rw [hproc p.1 hne.1]
    exact hl.pending d p hne.2

/-- A context's step that writes down no event and leaves every slot as it is. -/
theorem Ledger.still (hl : Ledger s es) (hf : ContextFrame s s') {f : Stream → Stream} (heap : s'.heap = (s.modify h f).heap)
    (hlat : ∀ st, (f st).latest = st.latest) (hd : ∀ st, (f st).dropped = st.dropped)
    (hp : ∀ c, (s'.contexts c).pending.Sublist (s.contexts c).pending) : Ledger s' (es ++ (none : Option Event).toList) := by
  rw [Option.toList_none, List.append_nil]
  refine hl.next hf.next hf.frames (fun k => ?_) (fun k => ?_) hp
  · rw [heap]
    exact modify_keeps (·.latest) hlat
  · rw [heap]
    exact modify_keeps (·.dropped) hd

theorem Ledger.move (hl : Ledger s es) (hi : Exclusive s) (hf : ContextFrame s s') {o : Option Event}
    (hm : ContextMove s s' c o) : Ledger s' (es ++ o.toList) := by
  have hpend : ∀ ctx : Context, s'.contexts = Function.update s.contexts c ctx →
      ctx.pending.Sublist (s.contexts c).pending → ∀ d, (s'.contexts d).pending.Sublist (s.contexts d).pending := by
    intro ctx hctx hsub d
    by_cases hd : d = c
    · rw [hd, hctx, Function.update_self]
      exact hsub
    · rw [hctx, Function.update_of_ne hd]
  cases hm with
  | looks ctx heap contexts claimed ahead pending looksAt =>
    rw [Option.toList_none, List.append_nil]
    exact hl.next hf.next hf.frames (fun k => by rw [heap]) (fun k => by rw [heap]) (hpend ctx contexts pending)
  | takes h f todo batch at_ latest free notRemoving heap contexts =>
    exact hl.takes hi at_ latest heap contexts hf.next hf.frames
  | enters h f todo claimed at_ heap contexts => exact hl.enters hi at_ heap contexts hf.next hf.frames
  | leaves h todo claimed at_ heap contexts =>
    refine hl.still hf heap (fun _ => rfl) (fun _ => rfl) (hpend _ contexts ?_)
    rw [at_]
    exact List.Sublist.refl _
  | releases h claimed at_ heap contexts =>
    exact hl.still hf heap (fun _ => rfl) (fun _ => rfl) (hpend _ contexts (List.nil_sublist _))

/-- A source thread puts a frame, or leaves every slot as it is. -/
theorem stepSource_frames (hs : stepSource s a = some s') :
    (∃ h, a = .readFrame h ∧ (s.heap h).source = .reading ∧ s' = s.putFrame h) ∨
      s.event a = none ∧ s'.frames = s.frames ∧
        ∀ h, (s'.heap h).latest = (s.heap h).latest ∧ (s'.heap h).dropped = (s.heap h).dropped := by
  have hsource : ∀ h src, ∀ k, ((s.setSource h src).heap k).latest = (s.heap k).latest ∧
      ((s.setSource h src).heap k).dropped = (s.heap k).dropped :=
    fun h src k => ⟨modify_keeps (·.latest) fun _ => rfl, modify_keeps (·.dropped) fun _ => rfl⟩
  have hsample : ∀ h next, (s.sample h next).frames = s.frames ∧ ∀ k,
      ((s.sample h next).heap k).latest = (s.heap k).latest ∧ ((s.sample h next).heap k).dropped = (s.heap k).dropped := by
    intro h next
    simp only [State.sample]
    split
    · exact ⟨rfl, hsource h _⟩
    · split
      · exact ⟨rfl, hsource h _⟩
      · exact ⟨rfl, hsource h _⟩
  cases a <;> simp only [stepSource] at hs
  case sample h =>
    split at hs <;> cases hs
    · exact .inr ⟨rfl, hsample h _⟩
    · exact .inr ⟨rfl, hsample h _⟩
  case readFrame h =>
    split at hs <;> cases hs
    next hr => exact .inl ⟨h, rfl, hr, rfl⟩
  case readNothing h =>
    split at hs <;> cases hs
    exact .inr ⟨rfl, rfl, hsource h _⟩
  case readFails h =>
    split at hs <;> cases hs
    exact .inr ⟨rfl, rfl, fun k => ⟨modify_keeps (·.latest) fun _ => rfl, modify_keeps (·.dropped) fun _ => rfl⟩⟩
  case reopen h ok =>
    split at hs <;> cases hs
    exact .inr ⟨rfl, rfl, hsource h _⟩
  all_goals cases hs

theorem Ledger.source (hl : Ledger s es) (hi : Exclusive s) (hs : stepSource s a = some s') :
    Ledger s' (note s a es) := by
  have hf := stepSource_frame hs
  rcases stepSource_frames hs with ⟨h, rfl, hr, rfl⟩ | ⟨he, hfr, hslot⟩
  · refine hl.put ?_
    by_contra hge
    rw [(hi.fresh h (by omega)).2] at hr
    cases hr
  · rw [note, he, Option.toList_none, List.append_nil]
    refine hl.next hf.next hfr (fun h => (hslot h).1) (fun h => (hslot h).2) fun c => ?_
    rw [hf.contexts]

/-- The control thread does nothing with a frame. -/
theorem stepControl_event (hs : stepControl s a = some s') : s.event a = none := by
  cases a with
  | readFrame | claim | enterFrame => cases hs
  | _ => rfl

theorem step_ledger (hi : Exclusive s) (hl : Ledger s es) (hs : step maxBatch s a = some s') : Ledger s' (note s a es) := by
  rcases step_view hs with hs | hs | hs
  · rw [note, stepControl_event hs, Option.toList_none, List.append_nil]
    exact hl.control (stepControl_slots hs)
  · exact hl.source hi hs
  · obtain ⟨c, hm⟩ := stepContext_move hs
    exact hl.move hi (stepContext_frame hs) hm

theorem start_ledger : Ledger start [] where
  lt _ he := by cases he
  read _ _ hf := by cases hf
  sorted _ := List.Pairwise.nil
  slot _ := .empty
  processed _ := List.Sublist.refl _
  pending _ _ hp := by cases hp

/-- **One context at a time processes a stream**, its frames are processed in
the order they were put, none twice, and every frame put was taken, dropped,
or is in the slot; whatever the number of contexts and streams, in every
state of every run. -/
theorem processed_once_in_order (hr : run (traced (step maxBatch) note) (start, []) as = some (s, es)) :
    (∀ c d h, (s.contexts c).processes = some h → (s.contexts d).processes = some h → c = d) ∧
      ∀ h, (framesOf .processed h es).Sublist (framesOf .put h es) ∧ (framesOf .put h es).Nodup ∧
        (framesOf .put h es).length =
          (framesOf .taken h es).length + (s.heap h).dropped + (s.heap h).latest.toList.length := by
  have hall : Inv s ∧ Exclusive s ∧ Ledger s es := by
    refine run_invariant' (I := fun sg : State × List Event => Inv sg.1 ∧ Exclusive sg.1 ∧ Ledger sg.1 sg.2)
      (fun sg a sg' hI hs => ?_) ⟨start_inv, start_exclusive, start_ledger⟩ hr
    obtain ⟨hv, hi, hl⟩ := hI
    obtain ⟨hs, he⟩ := traced_eq_some.mp hs
    exact ⟨step_inv hv hs, step_exclusive hv hi hs, he ▸ step_ledger hi hl hs⟩
  obtain ⟨-, hi, hl⟩ := hall
  refine ⟨fun c d h hc hd => ?_, fun h => ⟨?_, ?_, (hl.slot h).count⟩⟩
  · exact hi.disjoint c d h (hi.claimed_of_processes hc) (hi.claimed_of_processes hd)
  · exact (hl.processed h).trans (hl.slot h).taken_sublist
  · exact (hl.sorted h).imp fun hlt => Nat.ne_of_lt hlt

/-- Two frames are put one after the other while a context processes the one
before, and another context looks at the stream: the first of them is dropped,
and the second processed by the other context once the stream is released. -/
def overwriteFrame : List Action :=
  [.add 0, .sample 0, .readFrame 0, .snapshot 0, .claim 0 true, .endClaims 0, .checkRemoving 0, .enterFrame 0,
    .sample 0, .readFrame 0, .sample 0, .readFrame 0, .snapshot 1, .claim 1 true, .endClaims 1, .endFrame 0,
    .checkRemoving 0, .release 0, .release 0, .snapshot 1, .claim 1 true, .endClaims 1, .checkRemoving 1, .enterFrame 1]

theorem processed_once_in_order_of_overwrite :
    ∃ s es, run (traced (step 1) note) (start, []) overwriteFrame = some (s, es) ∧
      framesOf .put 0 es = [0, 1, 2] ∧ framesOf .processed 0 es = [0, 2] ∧ (s.heap 0).dropped = 1 ∧
      (s.contexts 1).processes = some 0 ∧ (∀ c, (s.contexts c).processes = some 0 → c = 1) ∧
      (framesOf .processed 0 es).Sublist (framesOf .put 0 es) := by
  have hr : run (traced (step 1) note) (start, []) overwriteFrame = some (_, _) := rfl
  obtain ⟨hone, hframes⟩ := processed_once_in_order hr
  exact ⟨_, _, hr, rfl, rfl, rfl, rfl, fun c hc => hone c 1 0 hc rfl, (hframes 0).1⟩

end RetailVision.NativeRuntime
