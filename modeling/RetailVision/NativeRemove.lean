/-
When a failed remove leaves the stream usable. The control thread takes its
flag back when the wait times out, but a source thread that has looked at the
flag in the meantime has left its loop, and nothing starts it again: the
stream is registered and claimable and never has another frame.

What the contexts and the source threads change is said once
(`stepContext_frame`, `stepSource_frame`); the rest is the control thread's.
-/
import RetailVision.NativeRuntime

set_option linter.all false

namespace RetailVision.NativeRuntime

open Lib

/-- The stream an `op_remove` is about. -/
def Control.target : Control → Option Nat
  | .idle => none
  | .found h | .waiting h | .checked h | .timedOut h | .failing h | .released h | .joining h | .removed h => some h

/-- The stream `op_remove` has set `removing` of. -/
def Control.removing : Control → Option Nat
  | .waiting h | .checked h | .timedOut h | .released h => some h
  | _ => none

/-- The stream `op_remove` has looked up and not detached. -/
def Control.holds : Control → Option Nat
  | .idle | .joining _ | .removed _ => none
  | .found h | .waiting h | .checked h | .timedOut h | .failing h | .released h => some h

/-- What a context has claimed and not released. -/
def Context.claimed : Context → List Nat
  | .idle => []
  | .claiming _ taken => taken.map (·.1)
  | .batch _ claimed | .entering _ _ _ claimed | .inFrame _ _ claimed | .releasing claimed => claimed

/-- The control thread takes up another line, or stops the runtime. -/
def Action.Begins : Action → Prop
  | .add _ | .remove _ | .stop => True
  | _ => False

/-- A step of the stream's source thread. -/
def Action.OfSource (h : Nat) : Action → Prop
  | .sample k | .readFrame k | .readNothing k | .readFails k | .reopen k _ => k = h
  | _ => False

/-- The source thread runs its loop. -/
def Source.Running (src : Source) : Prop := src ≠ .left ∧ src ≠ .stopped

/-- The next frame of the stream's source reaches its slot. -/
def State.TakesFrame (maxBatch : Nat) (s : State) (h : Nat) : Prop :=
  ∃ as t, (∀ a ∈ as, a.OfSource h) ∧ run (step maxBatch) s as = some t ∧ (t.heap h).latest = some s.frames

/-- **A stream that can be used**: registered, claimable (where it is busy, by
a context that is to release it), with a source thread that runs and brings
the next frame to the slot. -/
structure State.Usable (maxBatch : Nat) (s : State) (h : Nat) : Prop where
  registered : h ∈ s.streams
  notRemoving : (s.heap h).removing = false
  released : (s.heap h).busy = true → ∃ c, h ∈ (s.contexts c).claimed
  running : (s.heap h).source.Running
  takesFrame : s.TakesFrame maxBatch h

/-- The stream's source thread does not look at `removing` while it is set. -/
def Unseen (h : Nat) (s : State) (a : Action) : Prop := a = .sample h → (s.heap h).removing = false

/-- What holds in every state of a runtime. -/
structure Inv (s : State) : Prop where
  nodup : s.streams.Nodup
  lt : ∀ h ∈ s.streams, h < s.next
  holds : ∀ h, s.control.holds = some h → h ∈ s.streams
  /-- only the stream of the running `op_remove` is removing -/
  removing : s.stopping = false → ∀ h ∈ s.streams, (s.heap h).removing = true → s.control.removing = some h
  idle : s.stopping = true → s.control = .idle
  stopped : ∀ h, (s.heap h).source = .stopped → s.stopping = true
  busy : ∀ h, (s.heap h).busy = true → ∃ c, h ∈ (s.contexts c).claimed

variable {maxBatch : Nat} {s s' t : State} {a : Action} {as : List Action} {h k c : Nat}

/-! ## What a step leaves alone -/

@[simp] theorem modify_streams {f : Stream → Stream} : (s.modify h f).streams = s.streams := rfl
@[simp] theorem modify_control {f : Stream → Stream} : (s.modify h f).control = s.control := rfl
@[simp] theorem modify_contexts {f : Stream → Stream} : (s.modify h f).contexts = s.contexts := rfl
@[simp] theorem modify_stopping {f : Stream → Stream} : (s.modify h f).stopping = s.stopping := rfl
@[simp] theorem modify_next {f : Stream → Stream} : (s.modify h f).next = s.next := rfl
@[simp] theorem modify_frames {f : Stream → Stream} : (s.modify h f).frames = s.frames := rfl

theorem modify_heap_self {f : Stream → Stream} : (s.modify h f).heap h = f (s.heap h) := Function.update_self ..

theorem modify_heap_ne {f : Stream → Stream} (hk : k ≠ h) : (s.modify h f).heap k = s.heap k :=
  Function.update_of_ne hk ..

/-- What `f` leaves alone of a stream is as before in all of them. -/
theorem modify_keeps {γ : Type} (g : Stream → γ) {f : Stream → Stream} (hg : ∀ st, g (f st) = g st) :
    g ((s.modify h f).heap k) = g (s.heap k) := by
  by_cases hk : k = h
  · subst hk
    rw [modify_heap_self, hg]
  · rw [modify_heap_ne hk]

theorem setRemoving_source {b : Bool} :
    ((s.modify h fun st => { st with removing := b }).heap k).source = (s.heap k).source :=
  modify_keeps (·.source) fun _ => rfl

/-- What no context changes. -/
structure ContextFrame (s s' : State) : Prop where
  streams : s'.streams = s.streams
  next : s'.next = s.next
  control : s'.control = s.control
  stopping : s'.stopping = s.stopping
  frames : s'.frames = s.frames
  removing : ∀ h, (s'.heap h).removing = (s.heap h).removing
  source : ∀ h, (s'.heap h).source = (s.heap h).source

theorem ContextFrame.setContext {ctx : Context} : ContextFrame s (s.setContext c ctx) :=
  ⟨rfl, rfl, rfl, rfl, rfl, fun _ => rfl, fun _ => rfl⟩

theorem ContextFrame.modify {f : Stream → Stream} {contexts : Nat → Context}
    (hr : ∀ st, (f st).removing = st.removing) (hs : ∀ st, (f st).source = st.source) :
    ContextFrame s { s.modify h f with contexts := contexts } :=
  ⟨rfl, rfl, rfl, rfl, rfl, fun _ => modify_keeps (·.removing) hr, fun _ => modify_keeps (·.source) hs⟩

theorem claim_frame {got : Bool} {todo : List Nat} {batch : List (Nat × Nat)} :
    ContextFrame s (s.claim c h got todo batch) := by
  simp only [State.claim]
  split
  · split
    · exact .modify (fun _ => rfl) fun _ => rfl
    · exact .setContext
  · exact .setContext

theorem stepContext_frame (hs : stepContext maxBatch s a = some s') : ContextFrame s s' := by
  cases a <;> simp only [stepContext] at hs
  case snapshot c =>
    split at hs <;> cases hs
    exact .setContext
  case claim c got =>
    split at hs
    · split at hs <;> cases hs
      exact claim_frame
    · cases hs
  case endClaims c =>
    split at hs
    · split at hs <;> cases hs
      exact ⟨rfl, rfl, rfl, rfl, rfl, fun _ => rfl, fun _ => rfl⟩
    · cases hs
  case checkRemoving c =>
    split at hs <;> cases hs
    · exact .setContext
    · exact .setContext
  case enterFrame c =>
    split at hs
    · split at hs <;> cases hs
      exact .modify (fun _ => rfl) fun _ => rfl
    · cases hs
  case endFrame c =>
    split at hs <;> cases hs
    exact .modify (fun _ => rfl) fun _ => rfl
  case release c =>
    split at hs
    · split at hs <;> cases hs
      exact .modify (fun _ => rfl) fun _ => rfl
    · cases hs
      exact .setContext
    · cases hs
  all_goals cases hs

/-- What no source thread changes, and how a thread leaves its loop. -/
structure SourceFrame (s : State) (a : Action) (s' : State) : Prop where
  streams : s'.streams = s.streams
  next : s'.next = s.next
  control : s'.control = s.control
  stopping : s'.stopping = s.stopping
  contexts : s'.contexts = s.contexts
  removing : ∀ h, (s'.heap h).removing = (s.heap h).removing
  busy : ∀ h, (s'.heap h).busy = (s.heap h).busy
  /-- a thread that has left stays so -/
  stays : ∀ h, (s.heap h).source = .left → (s'.heap h).source = .left
  left : ∀ h, (s'.heap h).source = .left →
    (s.heap h).source = .left ∨ a = .sample h ∧ (s.heap h).removing = true
  stopped : ∀ h, (s'.heap h).source = .stopped → (s.heap h).source = .stopped ∨ s.stopping = true

/-- A source thread that goes on, or has looked at the flags and leaves. -/
theorem SourceFrame.modify {f : Stream → Stream} {frames : Nat} (hr : ∀ st, (f st).removing = st.removing)
    (hb : ∀ st, (f st).busy = st.busy) (hl : (s.heap h).source ≠ .left)
    (hf : ∀ st, (f st).source = .left → a = .sample h ∧ (s.heap h).removing = true)
    (hst : ∀ st, (f st).source = .stopped → s.stopping = true) :
    SourceFrame s a { s.modify h f with frames := frames } := by
  refine ⟨rfl, rfl, rfl, rfl, rfl, fun _ => modify_keeps (·.removing) hr, fun _ => modify_keeps (·.busy) hb,
    fun k hk => ?_, fun k hk => ?_, fun k hk => ?_⟩
  · have hne : k ≠ h := fun he => hl (he ▸ hk)
    exact (congrArg Stream.source (modify_heap_ne hne)).trans hk
  · by_cases hkh : k = h
    · subst hkh
      exact .inr (hf _ ((congrArg Stream.source modify_heap_self).symm.trans hk))
    · exact .inl ((congrArg Stream.source (modify_heap_ne hkh)).symm.trans hk)
  · by_cases hkh : k = h
    · subst hkh
      exact .inr (hst _ ((congrArg Stream.source modify_heap_self).symm.trans hk))
    · exact .inl ((congrArg Stream.source (modify_heap_ne hkh)).symm.trans hk)

theorem setSource_frame {src : Source} (hl : (s.heap h).source ≠ .left)
    (hf : src = .left → a = .sample h ∧ (s.heap h).removing = true)
    (hst : src = .stopped → s.stopping = true) : SourceFrame s a (s.setSource h src) := by
  have := @SourceFrame.modify s a h (fun st => { st with source := src }) s.frames
    (fun _ => rfl) (fun _ => rfl) hl (fun _ => hf) fun _ => hst
  exact this

theorem sample_frame {next : Source} (hl : (s.heap h).source ≠ .left) (hn : next.Running) :
    SourceFrame s (.sample h) (s.sample h next) := by
  simp only [State.sample]
  split
  · next hstop => exact setSource_frame hl (fun he => by cases he) fun _ => hstop
  · split
    · next hrem => exact setSource_frame hl (fun _ => ⟨rfl, hrem⟩) fun he => by cases he
    · exact setSource_frame hl (fun he => absurd he hn.1) fun he => absurd he hn.2

theorem stepSource_frame (hs : stepSource s a = some s') : SourceFrame s a s' := by
  cases a <;> simp only [stepSource] at hs
  case sample k =>
    split at hs <;> cases hs
    · next hl => exact sample_frame (by simp [hl]) ⟨by simp, by simp⟩
    · next hl => exact sample_frame (by simp [hl]) ⟨by simp, by simp⟩
  case readFrame k =>
    split at hs <;> cases hs
    next hl =>
    have hne : (s.heap k).source ≠ .left := by simp [hl]
    exact @SourceFrame.modify s _ k (fun st =>
      { st with
        latest := some s.frames
        dropped := if st.latest.isSome then st.dropped + 1 else st.dropped
        gotFirstFrame := true
        source := .looping }) (s.frames + 1)
      (fun _ => rfl) (fun _ => rfl) hne (fun _ he => by cases he) fun _ he => by cases he
  case readNothing k =>
    split at hs <;> cases hs
    next hl => exact setSource_frame (by simp [hl]) (fun he => by cases he) fun he => by cases he
  case readFails k =>
    split at hs <;> cases hs
    next hl =>
    have hne : (s.heap k).source ≠ .left := by simp [hl]
    exact @SourceFrame.modify s _ k (fun st => { st with source := .reconnecting, gotFirstFrame := false }) s.frames
      (fun _ => rfl) (fun _ => rfl) hne (fun _ he => by cases he) fun _ he => by cases he
  case reopen k ok =>
    split at hs <;> cases hs
    next hl =>
    refine setSource_frame (by simp [hl]) (fun he => ?_) fun he => ?_
    all_goals
      split at he <;> cases he
  all_goals cases hs

/-! ## A busy stream is claimed -/

/-- Every busy stream is one a context has claimed. -/
def BusyClaimed (s : State) : Prop := ∀ h, (s.heap h).busy = true → ∃ c, h ∈ (s.contexts c).claimed

/-- A context that changes what it is at without giving up a claim. -/
theorem BusyClaimed.setContext {ctx : Context} (hi : BusyClaimed s) (hc : (s.contexts c).claimed ⊆ ctx.claimed) :
    BusyClaimed (s.setContext c ctx) := by
  intro h hb
  obtain ⟨d, hd⟩ := hi h hb
  by_cases hdc : d = c
  · subst hdc
    exact ⟨d, by simpa [State.setContext] using hc hd⟩
  · exact ⟨d, by simpa [State.setContext, hdc] using hd⟩

/-- The same where it changes the stream `h` meanwhile, which has been claimed
if it is busy then. -/
theorem BusyClaimed.modify {f : Stream → Stream} {ctx : Context} (hi : BusyClaimed s)
    (hc : ∀ k ∈ (s.contexts c).claimed, k ≠ h → k ∈ ctx.claimed)
    (hh : (f (s.heap h)).busy = true → h ∈ ctx.claimed ∨ ((s.heap h).busy = true ∧ h ∉ (s.contexts c).claimed)) :
    BusyClaimed { s.modify h f with contexts := Function.update s.contexts c ctx } := by
  intro k hb
  by_cases hk : k = h
  · subst hk
    have hb : (f (s.heap k)).busy = true := by simpa [State.modify] using hb
    rcases hh hb with hh | ⟨hbusy, hn⟩
    · exact ⟨c, by simpa using hh⟩
    · obtain ⟨d, hd⟩ := hi k hbusy
      have hdc : d ≠ c := by
        intro he
        exact hn (he ▸ hd)
      exact ⟨d, by simpa [hdc] using hd⟩
  · obtain ⟨d, hd⟩ := hi k (by simpa [State.modify, hk] using hb)
    by_cases hdc : d = c
    · subst hdc
      exact ⟨d, by simpa using hc k hd hk⟩
    · exact ⟨d, by simpa [hdc] using hd⟩

/-- The same where neither the claims of the context nor whether the stream is
busy change. -/
theorem BusyClaimed.modify_busy {f : Stream → Stream} {ctx : Context} (hi : BusyClaimed s)
    (hclaimed : ctx.claimed = (s.contexts c).claimed) (hbusy : (f (s.heap h)).busy = (s.heap h).busy) :
    BusyClaimed { s.modify h f with contexts := Function.update s.contexts c ctx } := by
  refine hi.modify (fun k hk _ => hclaimed ▸ hk) fun hb => ?_
  by_cases hm : h ∈ ctx.claimed
  · exact .inl hm
  · exact .inr ⟨hbusy ▸ hb, hclaimed ▸ hm⟩

theorem claim_busyClaimed {got : Bool} {todo : List Nat} {batch : List (Nat × Nat)} (hi : BusyClaimed s)
    (hc : s.contexts c = .claiming (h :: todo) batch) : BusyClaimed (s.claim c h got todo batch) := by
  have hcl : (s.contexts c).claimed = batch.map (·.1) := by rw [hc]; rfl
  have hskip : BusyClaimed (s.setContext c (.claiming todo batch)) := hi.setContext (by rw [hcl]; exact fun _ h => h)
  simp only [State.claim]
  split
  · split
    · refine hi.modify (fun k hk _ => ?_) fun _ => .inl (by simp [Context.claimed])
      rw [hcl] at hk
      simp only [Context.claimed, List.map_append, List.mem_append]
      exact .inl hk
    · exact hskip
  · exact hskip

theorem stepContext_busyClaimed (hi : BusyClaimed s) (hs : stepContext maxBatch s a = some s') : BusyClaimed s' := by
  cases a <;> simp only [stepContext] at hs
  case snapshot c =>
    split at hs <;> cases hs
    next hc _ => exact hi.setContext (by simp [hc, Context.claimed])
  case claim c got =>
    split at hs
    · next hc =>
      split at hs <;> cases hs
      exact claim_busyClaimed hi hc
    · cases hs
  case endClaims c =>
    split at hs
    · next todo batch hc =>
      split at hs <;> cases hs
      refine @BusyClaimed.setContext s c _ hi ?_
      rw [hc]
      by_cases hb : batch = []
      · simp [Context.claimed, hb]
      · simp [Context.claimed, hb]
    · cases hs
  case checkRemoving c =>
    split at hs <;> cases hs
    · next hc =>
      refine hi.setContext ?_
      rw [hc]
      split <;> exact fun _ h => h
    · next hc => exact hi.setContext (by rw [hc]; exact fun _ h => h)
  case enterFrame c =>
    split at hs
    · next k f todo claimed hc =>
      split at hs <;> cases hs
      exact hi.modify_busy (by rw [hc]; rfl) rfl
    · cases hs
  case endFrame c =>
    split at hs <;> cases hs
    next k todo claimed hc =>
    exact hi.modify_busy (by rw [hc]; rfl) rfl
  case release c =>
    split at hs
    · next k claimed hc =>
      split at hs <;> cases hs
      refine hi.modify (fun j hj hne => ?_) fun hb => by simp at hb
      rw [hc] at hj
      simpa [Context.claimed, hne] using hj
    · next hc =>
      cases hs
      exact hi.setContext (by simp [hc, Context.claimed])
    · cases hs
  all_goals cases hs

/-! ## What holds in every state -/

/-- What the control thread and the list of streams are like is as it was. -/
theorem Inv.beside (hi : Inv s) (hstreams : s'.streams = s.streams) (hnext : s'.next = s.next) (hcontrol : s'.control = s.control)
    (hstopping : s'.stopping = s.stopping) (hremoving : ∀ h, (s'.heap h).removing = (s.heap h).removing)
    (hstopped : ∀ h, (s'.heap h).source = .stopped → s'.stopping = true)
    (hbusy : ∀ h, (s'.heap h).busy = true → ∃ c, h ∈ (s'.contexts c).claimed) : Inv s' where
  nodup := hstreams ▸ hi.nodup
  lt := by rw [hstreams, hnext]; exact hi.lt
  holds := by rw [hstreams, hcontrol]; exact hi.holds
  removing := by simp only [hstreams, hcontrol, hstopping, hremoving]; exact hi.removing
  idle := by rw [hstopping, hcontrol]; exact hi.idle
  stopped := hstopped
  busy := hbusy

/-- Of what `Inv` speaks about, a context's step changes only who is busy. -/
theorem Inv.context (hi : Inv s) (hs : stepContext maxBatch s a = some s') : Inv s' := by
  have hf := stepContext_frame hs
  refine hi.beside hf.streams hf.next hf.control hf.stopping hf.removing ?_ (stepContext_busyClaimed hi.busy hs)
  simp only [hf.source, hf.stopping]
  exact hi.stopped

theorem Inv.source (hi : Inv s) (hs : stepSource s a = some s') : Inv s' := by
  have hf := stepSource_frame hs
  refine hi.beside hf.streams hf.next hf.control hf.stopping hf.removing (fun h hh => ?_) ?_
  · rw [hf.stopping]
    rcases hf.stopped h hh with hold | hstop
    · exact hi.stopped h hold
    · exact hstop
  · simp only [hf.busy, hf.contexts]
    exact hi.busy

theorem insert_perm {heap : Nat → Stream} {ks : List Nat} : (State.insert heap h ks).Perm (h :: ks) := by
  induction ks with
  | nil => exact .refl _
  | cons k ks ih =>
    simp only [State.insert]
    split
    · exact .refl _
    · exact (ih.cons k).trans (.swap h k ks)

theorem Inv.addStream {i : Nat} (hi : Inv s) (hc : s.control = .idle) (hns : s.stopping = false) :
    Inv (s.addStream i) := by
  have hmem : ∀ h, h ∈ (s.addStream i).streams ↔ h = s.next ∨ h ∈ s.streams := by
    intro h
    have := (@insert_perm s.next (Function.update s.heap s.next (newStream i)) s.streams).mem_iff (a := h)
    simpa [State.addStream] using this
  have hself : (s.addStream i).heap s.next = newStream i := Function.update_self ..
  have hold : ∀ h, h ≠ s.next → (s.addStream i).heap h = s.heap h := fun h hne => Function.update_of_ne hne ..
  constructor
  case nodup =>
    have hp := @insert_perm s.next (Function.update s.heap s.next (newStream i)) s.streams
    refine hp.nodup_iff.mpr (List.nodup_cons.mpr ⟨fun hm => ?_, hi.nodup⟩)
    have := hi.lt _ hm
    omega
  case lt =>
    intro h hm
    change h < s.next + 1
    rcases (hmem h).mp hm with rfl | hm
    · omega
    · have := hi.lt h hm
      omega
  case holds =>
    intro h hh
    rw [show (s.addStream i).control = .idle from hc] at hh
    cases hh
  case removing =>
    intro _ h hm hr
    rcases (hmem h).mp hm with rfl | hm
    · rw [hself] at hr
      cases hr
    · have hne : h ≠ s.next := by
        have := hi.lt h hm
        omega
      rw [hold h hne] at hr
      exact hi.removing hns h hm hr
  case idle => exact hi.idle
  case stopped =>
    intro h hh
    by_cases hne : h = s.next
    · subst hne
      rw [hself] at hh
      cases hh
    · rw [hold h hne] at hh
      exact hi.stopped h hh
  case busy =>
    intro h hb
    by_cases hne : h = s.next
    · subst hne
      rw [hself] at hb
      cases hb
    · rw [hold h hne] at hb
      exact hi.busy h hb

theorem Inv.stop (hi : Inv s) (hc : s.control = .idle) : Inv s.stop := by
  have hkeep : ∀ {γ : Type} (g : Stream → γ), (∀ st b, g { st with removing := b } = g st) →
      ∀ h, g (s.stop.heap h) = g (s.heap h) := by
    intro γ g hg h
    simp only [State.stop]
    split
    · exact hg ..
    · rfl
  constructor
  case nodup => exact hi.nodup
  case lt => exact hi.lt
  case holds => exact hi.holds
  case removing => exact fun hns => by cases hns
  case idle => exact fun _ => hc
  case stopped => exact fun _ _ => rfl
  case busy =>
    intro h hb
    rw [hkeep (·.busy) fun _ _ => rfl] at hb
    exact hi.busy h hb

/-- The control thread goes on, changing at most the flag of its stream. -/
theorem Inv.control {ctl : Control} {b : Bool} {replies : List Reply} (hi : Inv s) (hns : s.stopping = false)
    (hh : ∀ k, ctl.holds = some k → k ∈ s.streams)
    (hr : ∀ k ∈ s.streams, k ≠ h → (s.heap k).removing = true → ctl.removing = some k)
    (hb : h ∈ s.streams → b = true → ctl.removing = some h) :
    Inv { s.modify h fun st => { st with removing := b } with control := ctl, replies := replies } := by
  have hself : ((s.modify h fun st => { st with removing := b }).heap h).removing = b :=
    congrArg Stream.removing modify_heap_self
  have hne : ∀ k, k ≠ h → (s.modify h fun st => { st with removing := b }).heap k = s.heap k :=
    fun k hk => modify_heap_ne hk
  have hbusy : ∀ k, ((s.modify h fun st => { st with removing := b }).heap k).busy = (s.heap k).busy :=
    fun k => modify_keeps (·.busy) fun _ => rfl
  constructor
  case nodup => exact hi.nodup
  case lt => exact hi.lt
  case holds => exact hh
  case removing =>
    intro _ k hk hrem
    by_cases hkh : k = h
    · subst hkh
      exact hb hk (hself.symm.trans hrem)
    · refine hr k hk hkh ?_
      rw [← hne k hkh]
      exact hrem
  case idle =>
    intro hst
    exact absurd (hns.symm.trans hst) (by simp)
  case stopped => exact fun k hk => hi.stopped k (setRemoving_source.symm.trans hk)
  case busy => exact fun k hk => hi.busy k ((hbusy k).symm.trans hk)

/-- The same without a change of a flag. -/
theorem Inv.setControl {ctl : Control} {replies : List Reply} (hi : Inv s) (hns : s.stopping = false)
    (hh : ∀ k, ctl.holds = some k → k ∈ s.streams)
    (hr : ∀ k ∈ s.streams, (s.heap k).removing = true → ctl.removing = some k) :
    Inv { s with control := ctl, replies := replies } :=
  ⟨hi.nodup, hi.lt, hh, fun _ => hr, fun hst => absurd (hns.symm.trans hst) (by simp), hi.stopped, hi.busy⟩

theorem Inv.notStopping (hi : Inv s) (hc : s.control ≠ .idle) : s.stopping = false := by
  cases hst : s.stopping with
  | false => rfl
  | true => exact absurd (hi.idle hst) hc

theorem Inv.detach (hi : Inv s) (hc : s.control = .released h) :
    Inv { s with control := .joining h, streams := s.streams.erase h } := by
  have hns := hi.notStopping (by simp [hc])
  constructor
  case nodup => exact hi.nodup.erase h
  case lt => exact fun k hk => hi.lt k (List.mem_of_mem_erase hk)
  case holds => exact fun k hk => by cases hk
  case removing =>
    intro _ k hk hrem
    have hk := (hi.nodup.mem_erase_iff).mp hk
    have hcr := hi.removing hns k hk.2 hrem
    rw [hc] at hcr
    cases hcr
    exact absurd rfl hk.1
  case idle => exact fun hst => absurd (hns.symm.trans hst) (by simp)
  case stopped => exact hi.stopped
  case busy => exact hi.busy

theorem find_mem {i : Nat} (hf : s.find i = some h) : h ∈ s.streams := List.mem_of_find?_eq_some hf

/-- While an `op_remove` is under way nothing stops, and only its stream is
removing. -/
theorem Inv.under {c : Control} (hi : Inv s) (hc : s.control = c) (hne : c ≠ .idle) :
    s.stopping = false ∧ ∀ k ∈ s.streams, (s.heap k).removing = true → c.removing = some k := by
  have hns := hi.notStopping (hc ▸ hne)
  exact ⟨hns, fun k hk hr => hc ▸ hi.removing hns k hk hr⟩

theorem Inv.stepControl (hi : Inv s) (hs : stepControl s a = some s') : Inv s' := by
  cases a <;> simp only [NativeRuntime.stepControl] at hs
  case add i =>
    split at hs
    · next hg =>
      split at hs <;> cases hs
      · exact hi.setControl hg.2 hi.holds (hi.removing hg.2)
      · exact hi.addStream hg.1 hg.2
    · cases hs
  case remove i =>
    split at hs
    · next hg =>
      have hrem := hi.removing hg.2
      rw [hg.1] at hrem
      split at hs <;> cases hs
      · next h hf =>
        refine hi.setControl hg.2 (fun k hk => ?_) hrem
        cases hk
        exact find_mem hf
      · exact hi.setControl hg.2 hi.holds (hi.removing hg.2)
    · cases hs
  case setRemoving =>
    split at hs <;> cases hs
    next h hc =>
    obtain ⟨hns, hrem⟩ := hi.under hc nofun
    refine hi.control hns (fun k hk => hi.holds k (by rw [hc]; exact hk)) (fun k hk _ hr => ?_) fun _ _ => rfl
    cases hrem k hk hr
  case tryLock got =>
    split at hs
    · next h hc =>
      obtain ⟨hns, hrem⟩ := hi.under hc nofun
      have hh := hi.holds
      rw [hc] at hh
      split at hs <;> cases hs
      · exact hi.setControl hns hh hrem
      · exact hi.setControl hns hh hrem
    · cases hs
  case clock passed =>
    split at hs <;> cases hs
    next h hc =>
    obtain ⟨hns, hrem⟩ := hi.under hc nofun
    have hh := hi.holds
    rw [hc] at hh
    cases passed with
    | true => exact hi.setControl hns hh hrem
    | false => exact hi.setControl hns hh hrem
  case takeBack =>
    split at hs <;> cases hs
    next h hc =>
    obtain ⟨hns, hrem⟩ := hi.under hc nofun
    refine hi.control hns (fun k hk => hi.holds k (by rw [hc]; exact hk)) (fun k hk hne hr => ?_) fun _ hb => by cases hb
    have he := hrem k hk hr
    simp only [Control.removing, Option.some.injEq] at he
    exact absurd he.symm hne
  case replyTimeout =>
    split at hs <;> cases hs
    next h hc =>
    obtain ⟨hns, hrem⟩ := hi.under hc nofun
    exact hi.setControl hns (fun k hk => by cases hk) hrem
  case detach =>
    split at hs <;> cases hs
    next h hc => exact hi.detach hc
  case join =>
    split at hs
    · next h hc =>
      obtain ⟨hns, hrem⟩ := hi.under hc nofun
      split at hs <;> cases hs
      exact hi.setControl hns (fun k hk => by cases hk) hrem
    · cases hs
  case replyRemoved =>
    split at hs <;> cases hs
    next h hc =>
    obtain ⟨hns, hrem⟩ := hi.under hc nofun
    exact hi.setControl hns (fun k hk => by cases hk) hrem
  case stop =>
    split at hs <;> cases hs
    next hg => exact hi.stop hg.1
  all_goals cases hs

theorem step_inv (hi : Inv s) (hs : step maxBatch s a = some s') : Inv s' := by
  simp only [step] at hs
  split at hs
  all_goals first | exact hi.source hs | exact hi.context hs | exact hi.stepControl hs

theorem start_inv : Inv start where
  nodup := List.nodup_nil
  lt _ hh := by cases hh
  holds _ hh := by cases hh
  removing _ _ hh := by cases hh
  idle hst := by cases hst
  stopped _ hh := by cases hh
  busy _ hb := by cases hb

/-! ## From one operation to the next -/

/-- What a step of the control thread changes that takes up nothing new. -/
theorem stepControl_frame (hs : stepControl s a = some s') (hb : ¬ a.Begins) :
    s.control ≠ .idle ∧ (s'.control = .idle ∨ s'.control.target = s.control.target) ∧
      s'.stopping = s.stopping ∧ ∀ h, (s'.heap h).source = (s.heap h).source := by
  cases a <;> simp only [stepControl] at hs
  case add i => exact absurd trivial hb
  case remove i => exact absurd trivial hb
  case stop => exact absurd trivial hb
  case setRemoving =>
    split at hs <;> cases hs
    next h hc => exact ⟨by simp [hc], .inr (by simp [hc, Control.target]), rfl, fun _ => setRemoving_source⟩
  case takeBack =>
    split at hs <;> cases hs
    next h hc => exact ⟨by simp [hc], .inr (by simp [hc, Control.target]), rfl, fun _ => setRemoving_source⟩
  case tryLock got =>
    split at hs
    · next h hc =>
      split at hs <;> cases hs
      · exact ⟨by simp [hc], .inr (by simp [hc, Control.target]), rfl, fun _ => rfl⟩
      · exact ⟨by simp [hc], .inr (by simp [hc, Control.target]), rfl, fun _ => rfl⟩
    · cases hs
  case clock passed =>
    split at hs <;> cases hs
    next h hc =>
    refine ⟨by simp [hc], .inr ?_, rfl, fun _ => rfl⟩
    cases passed <;> simp [hc, Control.target]
  case replyTimeout =>
    split at hs <;> cases hs
    next h hc => exact ⟨by simp [hc], .inl rfl, rfl, fun _ => rfl⟩
  case detach =>
    split at hs <;> cases hs
    next h hc => exact ⟨by simp [hc], .inr (by simp [hc, Control.target]), rfl, fun _ => rfl⟩
  case join =>
    split at hs
    · next h hc =>
      split at hs <;> cases hs
      exact ⟨by simp [hc], .inr (by simp [hc, Control.target]), rfl, fun _ => rfl⟩
    · cases hs
  case replyRemoved =>
    split at hs <;> cases hs
    next h hc => exact ⟨by simp [hc], .inl rfl, rfl, fun _ => rfl⟩
  all_goals cases hs

/-- A step is one of the three kinds of thread's. -/
theorem step_view (hs : step maxBatch s a = some s') :
    stepControl s a = some s' ∨ stepSource s a = some s' ∨ stepContext maxBatch s a = some s' := by
  simp only [step] at hs
  split at hs
  all_goals first | exact .inr (.inl hs) | exact .inr (.inr hs) | exact .inl hs

/-- The control thread is at the removal of `h`, or done with it. -/
structure AtRemoval (h : Nat) (s : State) : Prop where
  control : s.control = .idle ∨ s.control.target = some h
  notStopping : s.stopping = false

theorem AtRemoval.next (hw : AtRemoval h s) (hb : ¬ a.Begins) (hs : step maxBatch s a = some s') : AtRemoval h s' := by
  rcases step_view hs with hs | hs | hs
  · obtain ⟨hc, hn, hst, -⟩ := stepControl_frame hs hb
    have ht := hw.control.resolve_left hc
    exact ⟨hn.imp_right fun he => he.trans ht, hst.trans hw.notStopping⟩
  · have hf := stepSource_frame hs
    exact ⟨hf.control ▸ hw.control, hf.stopping.trans hw.notStopping⟩
  · have hf := stepContext_frame hs
    exact ⟨hf.control ▸ hw.control, hf.stopping.trans hw.notStopping⟩

theorem AtRemoval.reaches (hw : AtRemoval h s) (hb : ∀ a ∈ as, ¬ a.Begins) (hr : run (step maxBatch) s as = some t) :
    AtRemoval h t :=
  run_invariant (fun s a s' hb hw (hs : step maxBatch s a = some s') => hw.next hb hs)
    (meets_of_forall hb) hw hr

/-- The stream is registered and claimable, and the control thread waits for
its next line. -/
structure Restored (h : Nat) (s : State) : Prop where
  control : s.control = .idle
  registered : h ∈ s.streams
  notRemoving : (s.heap h).removing = false

theorem Restored.next (hr : Restored h s) (hb : ¬ a.Begins) (hs : step maxBatch s a = some s') : Restored h s' := by
  rcases step_view hs with hs | hs | hs
  · exact absurd hr.control (stepControl_frame hs hb).1
  · have hf := stepSource_frame hs
    exact ⟨hf.control.trans hr.control, hf.streams ▸ hr.registered, (hf.removing h).trans hr.notRemoving⟩
  · have hf := stepContext_frame hs
    exact ⟨hf.control.trans hr.control, hf.streams ▸ hr.registered, (hf.removing h).trans hr.notRemoving⟩

theorem Restored.reaches (hw : Restored h s) (hb : ∀ a ∈ as, ¬ a.Begins) (hr : run (step maxBatch) s as = some t) :
    Restored h t :=
  run_invariant (fun s a s' hb hw (hs : step maxBatch s a = some s') => hw.next hb hs)
    (meets_of_forall hb) hw hr

/-- The failure reply finds the stream restored. -/
theorem restored_of_replyTimeout (hi : Inv s) (hw : AtRemoval h s) (hs : step maxBatch s .replyTimeout = some s') :
    Restored h s' := by
  simp only [step, stepControl] at hs
  split at hs <;> cases hs
  next k hc =>
  have hk : k = h := by
    have := hw.control.resolve_left (by simp [hc])
    simpa [hc, Control.target] using this
  subst hk
  have hmem : k ∈ s.streams := hi.holds k (by simp [hc, Control.holds])
  refine ⟨rfl, hmem, ?_⟩
  by_contra hrem
  have := hi.removing hw.notStopping k hmem (by simpa using hrem)
  simp [hc, Control.removing] at this

/-! ## The source thread -/

/-- A source thread that has left stays so. -/
theorem step_left (hb : ¬ a.Begins) (hl : (s.heap h).source = .left) (hs : step maxBatch s a = some s') :
    (s'.heap h).source = .left := by
  rcases step_view hs with hs | hs | hs
  · exact ((stepControl_frame hs hb).2.2.2 h).trans hl
  · exact (stepSource_frame hs).stays h hl
  · exact ((stepContext_frame hs).source h).trans hl

/-- It leaves only where it looks at `removing` while it is set. -/
theorem step_notLeft (hb : ¬ a.Begins) (hu : Unseen h s a) (hl : (s.heap h).source ≠ .left)
    (hs : step maxBatch s a = some s') : (s'.heap h).source ≠ .left := by
  intro hl'
  rcases step_view hs with hs | hs | hs
  · exact hl (((stepControl_frame hs hb).2.2.2 h).symm.trans hl')
  · rcases (stepSource_frame hs).left h hl' with hold | ⟨ha, hrem⟩
    · exact hl hold
    · exact absurd (hrem.symm.trans (hu ha)) (by simp)
  · exact hl (((stepContext_frame hs).source h).symm.trans hl')

/-- Where it looks at `removing` while it is set, it leaves. -/
theorem sample_left (hns : s.stopping = false) (hrem : (s.heap h).removing = true)
    (hs : step maxBatch s (.sample h) = some s') : (s'.heap h).source = .left := by
  have hleft : ∀ next, ((s.sample h next).heap h).source = .left := by
    intro next
    simp only [State.sample, hns, hrem, Bool.false_eq_true, if_false, if_true, State.setSource]
    rw [modify_heap_self]
  simp only [step, stepSource] at hs
  split at hs <;> cases hs
  · exact hleft _
  · exact hleft _

/-- **From one operation to the next, the source thread runs on** exactly where
it was running and never sees the flag. -/
theorem run_notLeft (hw : AtRemoval h s) (hb : ∀ a ∈ as, ¬ a.Begins) (hr : run (step maxBatch) s as = some t) :
    (t.heap h).source ≠ .left ↔ (s.heap h).source ≠ .left ∧ Meets (step maxBatch) (Unseen h) s as := by
  induction as generalizing s with
  | nil =>
    cases hr
    exact ⟨fun hl => ⟨hl, trivial⟩, fun hl => hl.1⟩
  | cons a as ih =>
    obtain ⟨s', hs, hr⟩ := run_cons.mp hr
    have ha : ¬ a.Begins := hb a (by simp)
    have hrest := ih (hw.next ha hs) (fun b hm => hb b (by simp [hm])) hr
    rw [hrest]
    constructor
    · rintro ⟨hl', hm⟩
      refine ⟨fun hl => hl' (step_left ha hl hs), fun he => ?_, fun u hu => ?_⟩
      · subst he
        by_contra hrem
        exact hl' (sample_left hw.notStopping (by simpa using hrem) hs)
      · rw [hs] at hu
        cases hu
        exact hm
    · rintro ⟨hl, hu, hm⟩
      exact ⟨step_notLeft ha hu hl hs, hm s' hs⟩

/-- A source thread that runs brings the next frame to the slot. -/
theorem takesFrame_of_running (hns : s.stopping = false) (hrem : (s.heap h).removing = false)
    (hrun : (s.heap h).source.Running) : s.TakesFrame maxBatch h := by
  have hread : ∀ u : State, (u.heap h).source = .reading →
      ∃ t, step maxBatch u (.readFrame h) = some t ∧ (t.heap h).latest = some u.frames := by
    intro u hu
    refine ⟨u.putFrame h, by simp [step, stepSource, hu], ?_⟩
    simp [State.putFrame, State.modify]
  have hloop : ∀ u : State, u.stopping = false → (u.heap h).removing = false → (u.heap h).source = .looping →
      ∃ t, run (step maxBatch) u [.sample h, .readFrame h] = some t ∧ (t.heap h).latest = some u.frames := by
    intro u hst hre hu
    have hsam : step maxBatch u (.sample h) = some (u.setSource h .reading) := by
      simp [step, stepSource, hu, State.sample, hst, hre]
    obtain ⟨t, ht, hl⟩ := hread (u.setSource h .reading) (by simp [State.setSource, modify_heap_self])
    exact ⟨t, run_cons.mpr ⟨_, hsam, run_cons.mpr ⟨t, ht, rfl⟩⟩, hl⟩
  have hopen : ∀ u : State, u.stopping = false → (u.heap h).removing = false → (u.heap h).source = .opening →
      ∃ t, run (step maxBatch) u [.reopen h true, .sample h, .readFrame h] = some t ∧
        (t.heap h).latest = some u.frames := by
    intro u hst hre hu
    have hre' : step maxBatch u (.reopen h true) = some (u.setSource h .looping) := by
      simp [step, stepSource, hu]
    obtain ⟨t, ht, hl⟩ := hloop (u.setSource h .looping) hst (by simpa [State.setSource, modify_heap_self] using hre)
      (by simp [State.setSource, modify_heap_self])
    exact ⟨t, run_cons.mpr ⟨_, hre', ht⟩, hl⟩
  cases hsrc : (s.heap h).source with
  | looping =>
    obtain ⟨t, ht⟩ := hloop s hns hrem hsrc
    exact ⟨_, t, by simp [Action.OfSource], ht⟩
  | reading =>
    obtain ⟨t, ht, hl⟩ := hread s hsrc
    exact ⟨[.readFrame h], t, by simp [Action.OfSource], run_cons.mpr ⟨t, ht, rfl⟩, hl⟩
  | reconnecting =>
    have hsam : step maxBatch s (.sample h) = some (s.setSource h .opening) := by
      simp [step, stepSource, hsrc, State.sample, hns, hrem]
    obtain ⟨t, ht, hl⟩ := hopen (s.setSource h .opening) hns (by simpa [State.setSource, modify_heap_self] using hrem)
      (by simp [State.setSource, modify_heap_self])
    exact ⟨_, t, by simp [Action.OfSource], run_cons.mpr ⟨_, hsam, ht⟩, hl⟩
  | opening =>
    obtain ⟨t, ht⟩ := hopen s hns hrem hsrc
    exact ⟨_, t, by simp [Action.OfSource], ht⟩
  | left => exact absurd hsrc hrun.1
  | stopped => exact absurd hsrc hrun.2

/-! ## A failed remove -/

/-- **A failed remove leaves the stream usable** until the control thread takes
up its next line, exactly where the source thread was running when `op_remove`
found the stream, and does not look at `removing` before it is taken back. -/
theorem failed_remove_usable {pre mid after : List Action} (hpre : run (step maxBatch) start pre = some s)
    (hfound : s.control = .found h) (hno : ∀ a ∈ mid ++ .replyTimeout :: after, ¬ a.Begins)
    (hr : run (step maxBatch) s (mid ++ .replyTimeout :: after) = some t) :
    t.Usable maxBatch h ↔
      (s.heap h).source ≠ .left ∧ Meets (step maxBatch) (Unseen h) s (mid ++ .replyTimeout :: after) := by
  have hi : Inv s := run_invariant' (fun _ _ _ => step_inv) start_inv hpre
  have hit : Inv t := run_invariant' (fun _ _ _ => step_inv) hi hr
  have hw : AtRemoval h s := ⟨.inr (by simp [hfound, Control.target]), hi.notStopping (by simp [hfound])⟩
  have hwt : AtRemoval h t := hw.reaches hno hr
  rw [← run_notLeft hw hno hr]
  obtain ⟨u, hmid, hr⟩ := run_append.mp hr
  obtain ⟨v, hreply, hafter⟩ := run_cons.mp hr
  have hiu : Inv u := run_invariant' (fun _ _ _ => step_inv) hi hmid
  have hwu : AtRemoval h u := hw.reaches (fun a ha => hno a (by simp [ha])) hmid
  have hrest : Restored h t :=
    (restored_of_replyTimeout hiu hwu hreply).reaches (fun a ha => hno a (by simp [ha])) hafter
  constructor
  · exact fun husable => husable.running.1
  · intro hl
    have hrun : (t.heap h).source.Running := by
      refine ⟨hl, fun hst => ?_⟩
      exact absurd (hwt.notStopping.symm.trans (hit.stopped h hst)) (by simp)
    exact ⟨hrest.registered, hrest.notRemoving, hit.busy h, hrun,
      takesFrame_of_running hwt.notStopping hrest.notRemoving hrun⟩

instance : Decidable (Unseen h s a) := inferInstanceAs (Decidable (a = .sample h → _))

/-- A context is in the middle of a frame of stream 0, and `op_remove` has
found the stream. -/
def inFrame : List Action :=
  [.add 0, .sample 0, .readFrame 0, .snapshot 0, .claim 0 true, .endClaims 0, .checkRemoving 0, .enterFrame 0,
    .remove 0]

def foundInFrame : State := (run (step 1) start inFrame).getD start

/-- The wait times out; the source thread looks at `removing` before and after. -/
theorem failed_remove_usable_of_frame : ∃ t, run (step 1) foundInFrame
    (([.sample 0, .readNothing 0, .setRemoving, .tryLock true, .clock true, .takeBack] : List Action) ++ .replyTimeout :: [.sample 0]) =
      some t ∧ t.Usable 1 0 := by
  have hpre : run (step 1) start inFrame = some foundInFrame := rfl
  have hsome : (run (step 1) foundInFrame (([.sample 0, .readNothing 0, .setRemoving, .tryLock true, .clock true,
    .takeBack] : List Action) ++ .replyTimeout :: [.sample 0])).isSome = true := rfl
  obtain ⟨t, ht⟩ := Option.isSome_iff_exists.mp hsome
  refine ⟨t, ht, (failed_remove_usable hpre rfl ?_ ht).mpr ⟨by decide, by decide⟩⟩
  simp [Action.Begins]

/-- The source thread looks at `removing` in the meantime: the reply says
failed, and the stream is registered without a source thread. -/
theorem failed_remove_stops_source : ∃ t, run (step 1) start
    (inFrame ++ ([.setRemoving, .sample 0, .tryLock true, .clock true, .takeBack, .replyTimeout] : List Action)) = some t ∧
      t.replies = [.added 0, .removeTimeout 0] ∧ (t.heap 0).source = .left ∧ ¬ t.Usable 1 0 := by
  refine ⟨_, rfl, rfl, rfl, fun hu => ?_⟩
  exact hu.running.1 rfl

end RetailVision.NativeRuntime
