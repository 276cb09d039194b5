/-
A successful remove is final. When `op_remove` has got the stream's lock and
found it not busy, no context has claimed it, and none can again, `removing`
being set; the stream leaves the map, and its source thread has ended when
the join returns. From the reply on no thread touches the `StreamState`
(`step_untouched`), so no record of it is queued any more; the index may be in
use again, by another one.
-/
import RetailVision.NativeExclusive

set_option linter.all false

namespace RetailVision.NativeRuntime

open Lib

/-- The stream whose records a step queues to the writer: what `process`
queues for a frame, the source thread's stream states, the "starting" of
`op_add` and the "stopped" of `op_remove`. -/
def State.queues (s : State) : Action → Option Nat
  | .add i => match s.find i with
    | some _ => none
    | none => some s.next
  | .readFrame h => if (s.heap h).gotFirstFrame then none else some h
  | .readFails h => some h
  | .endFrame c => (s.contexts c).processes
  | .replyRemoved => s.control.target
  | _ => none

/-- The stream `op_remove` has found not busy, with `removing` set. -/
def Control.drained : Control → Option Nat
  | .released h | .joining h | .removed h => some h
  | _ => none

/-- The stream `op_remove` has detached. -/
def Control.detached : Control → Option Nat
  | .joining h | .removed h => some h
  | _ => none

/-- The source thread has left its loop. -/
def Source.Over (src : Source) : Prop := src = .left ∨ src = .stopped

/-- What holds of the stream of the running `op_remove`. -/
structure Removal (s : State) : Prop where
  lt : ∀ h, s.control.target = some h → h < s.next
  flagged : ∀ h, s.control.removing = some h ∨ s.control.drained = some h → (s.heap h).removing = true
  free : ∀ h, s.control.drained = some h → (s.heap h).busy = false
  detached : ∀ h, s.control.detached = some h → h ∉ s.streams
  ended : ∀ h, s.control = .removed h → (s.heap h).source.Over

/-- A stream nobody is to use again. -/
structure Removed (h : Nat) (s : State) : Prop where
  lt : h < s.next
  gone : h ∉ s.streams
  flagged : (s.heap h).removing = true
  free : (s.heap h).busy = false
  ended : (s.heap h).source.Over
  notTarget : s.control.target ≠ some h

variable {maxBatch : Nat} {s s' t u u' : State} {a : Action} {as bs : List Action} {h k c : Nat}

/-! ## What a step leaves of a stream it is not about -/

/-- A source thread that has left its loop does nothing more. -/
theorem stepSource_over (ho : (s.heap h).source.Over) (hs : stepSource s a = some s') : s'.heap h = s.heap h := by
  have hne : ∀ k, (s.heap k).source ≠ .left → (s.heap k).source ≠ .stopped → h ≠ k := by
    intro k hl hst he
    subst he
    exact ho.elim hl hst
  have hset : ∀ k src, (s.heap k).source ≠ .left → (s.heap k).source ≠ .stopped →
      (s.setSource k src).heap h = s.heap h := fun k src hl hst => modify_heap_ne (hne k hl hst)
  have hsample : ∀ k next, (s.heap k).source ≠ .left → (s.heap k).source ≠ .stopped →
      (s.sample k next).heap h = s.heap h := by
    intro k next hl hst
    simp only [State.sample]
    split
    · exact hset k _ hl hst
    · split
      · exact hset k _ hl hst
      · exact hset k _ hl hst
  cases a <;> simp only [stepSource] at hs
  case sample k =>
    split at hs <;> cases hs
    · next hsrc => exact hsample k _ (by simp [hsrc]) (by simp [hsrc])
    · next hsrc => exact hsample k _ (by simp [hsrc]) (by simp [hsrc])
  case readFrame k =>
    split at hs <;> cases hs
    next hsrc => exact putFrame_heap_ne (hne k (by simp [hsrc]) (by simp [hsrc]))
  case readNothing k =>
    split at hs <;> cases hs
    next hsrc => exact hset k _ (by simp [hsrc]) (by simp [hsrc])
  case readFails k =>
    split at hs <;> cases hs
    next hsrc => exact modify_heap_ne (hne k (by simp [hsrc]) (by simp [hsrc]))
  case reopen k ok =>
    split at hs <;> cases hs
    next hsrc => exact hset k _ (by simp [hsrc]) (by simp [hsrc])
  all_goals cases hs

/-- No context touches a stream that is not busy and removing. -/
theorem ContextMove.untouched (hi : Exclusive s) (hb : (s.heap h).busy = false) (hr : (s.heap h).removing = true)
    {o : Option Event} (hm : ContextMove s s' c o) : s'.heap h = s.heap h := by
  have hno : h ∉ (s.contexts c).claimed := hi.not_claimed hb
  cases hm with
  | looks ctx heap => rw [heap]
  | takes k f todo batch at_ latest free notRemoving heap =>
    have hne : h ≠ k := by
      rintro rfl
      rw [hr] at notRemoving
      cases notRemoving
    rw [heap, modify_heap_ne hne]
  | enters k f todo claimed at_ heap =>
    have hne : h ≠ k := fun he => hno (he ▸ hi.claimed_of_processes (by rw [at_]; rfl))
    rw [heap, modify_heap_ne hne]
  | leaves k todo claimed at_ heap =>
    have hne : h ≠ k := fun he => hno (he ▸ hi.claimed_of_processes (by rw [at_]; rfl))
    rw [heap, modify_heap_ne hne]
  | releases k claimed at_ heap =>
    have hne : h ≠ k := by
      rintro rfl
      exact hno (by rw [at_]; exact List.mem_cons_self)
    rw [heap, modify_heap_ne hne]

theorem addStream_streams {i : Nat} : k ∈ (s.addStream i).streams ↔ k = s.next ∨ k ∈ s.streams := by
  have := (@insert_perm s.next (Function.update s.heap s.next (newStream i)) s.streams).mem_iff (a := k)
  simpa [State.addStream] using this

/-- The control thread leaves a stream that it is not about and is not
registered. -/
theorem stepControl_other (ht : s.control.target ≠ some h) (hn : h ∉ s.streams) (hlt : h < s.next)
    (hs : stepControl s a = some s') :
    s'.heap h = s.heap h ∧ h ∉ s'.streams ∧ h < s'.next ∧ s'.control.target ≠ some h := by
  cases a <;> simp only [stepControl] at hs
  case add i =>
    split at hs
    · next hg =>
      split at hs <;> cases hs
      · exact ⟨rfl, hn, hlt, ht⟩
      · refine ⟨Function.update_of_ne (by omega) .., ?_, Nat.lt_succ_of_lt hlt, ht⟩
        rw [addStream_streams]
        exact fun hm => hm.elim (by omega) hn
    · cases hs
  case remove i =>
    split at hs
    · split at hs <;> cases hs
      · next k hf =>
        refine ⟨rfl, hn, hlt, fun he => hn ?_⟩
        have hk : k = h := by simpa [Control.target] using he
        exact hk ▸ find_mem hf
      · exact ⟨rfl, hn, hlt, ht⟩
    · cases hs
  case setRemoving =>
    split at hs <;> cases hs
    next k hc =>
    have hk : h ≠ k := by
      rintro rfl
      exact ht (by simp [hc, Control.target])
    exact ⟨Function.update_of_ne hk .., hn, hlt, by simpa [Control.target] using hk.symm⟩
  case takeBack =>
    split at hs <;> cases hs
    next k hc =>
    have hk : h ≠ k := by
      rintro rfl
      exact ht (by simp [hc, Control.target])
    exact ⟨Function.update_of_ne hk .., hn, hlt, by simpa [Control.target] using hk.symm⟩
  case tryLock got =>
    split at hs
    · next k hc =>
      rw [hc] at ht
      split at hs <;> cases hs
      · exact ⟨rfl, hn, hlt, ht⟩
      · exact ⟨rfl, hn, hlt, ht⟩
    · cases hs
  case clock passed =>
    split at hs <;> cases hs
    next k hc =>
    rw [hc] at ht
    refine ⟨rfl, hn, hlt, ?_⟩
    cases passed <;> exact ht
  case replyTimeout =>
    split at hs <;> cases hs
    exact ⟨rfl, hn, hlt, by simp [Control.target]⟩
  case detach =>
    split at hs <;> cases hs
    next k hc =>
    rw [hc] at ht
    exact ⟨rfl, fun hm => hn (List.mem_of_mem_erase hm), hlt, ht⟩
  case join =>
    split at hs
    · next k hc =>
      rw [hc] at ht
      split at hs <;> cases hs
      exact ⟨rfl, hn, hlt, ht⟩
    · cases hs
  case replyRemoved =>
    split at hs <;> cases hs
    exact ⟨rfl, hn, hlt, by simp [Control.target]⟩
  case stop =>
    split at hs <;> cases hs
    exact ⟨if_neg hn, hn, hlt, ht⟩
  all_goals cases hs

/-! ## Until the reply -/

theorem Removal.context (hm : Removal s) (hi : Exclusive s) (hs : stepContext maxBatch s a = some s') : Removal s' := by
  have hf := stepContext_frame hs
  obtain ⟨c, hmove⟩ := stepContext_move hs
  constructor
  case lt => rw [hf.control, hf.next]; exact hm.lt
  case flagged => simp only [hf.control, hf.removing]; exact hm.flagged
  case free =>
    intro h hd
    rw [hf.control] at hd
    rw [hmove.untouched hi (hm.free h hd) (hm.flagged h (.inr hd))]
    exact hm.free h hd
  case detached => rw [hf.control, hf.streams]; exact hm.detached
  case ended => simp only [hf.control, hf.source]; exact hm.ended

theorem Removal.source (hm : Removal s) (hs : stepSource s a = some s') : Removal s' := by
  have hf := stepSource_frame hs
  constructor
  case lt => rw [hf.control, hf.next]; exact hm.lt
  case flagged => simp only [hf.control, hf.removing]; exact hm.flagged
  case free => simp only [hf.control, hf.busy]; exact hm.free
  case detached => rw [hf.control, hf.streams]; exact hm.detached
  case ended =>
    intro h hc
    rw [hf.control] at hc
    rw [stepSource_over (hm.ended h hc) hs]
    exact hm.ended h hc

/-- The control thread waits for its next line. -/
theorem Removal.idle (hc : s.control = .idle) : Removal s := by
  refine ⟨fun h hh => ?_, fun h hh => ?_, fun h hh => ?_, fun h hh => ?_, fun h hh => ?_⟩
  all_goals
    rw [hc] at hh
    simp [Control.target, Control.removing, Control.drained, Control.detached] at hh

/-- The control thread is at the removal of `h`: what is to hold is about `h`. -/
theorem Removal.of_target (ht : s.control.target = some h) (hlt : h < s.next)
    (hr : s.control.removing = some h ∨ s.control.drained = some h → (s.heap h).removing = true)
    (hf : s.control.drained = some h → (s.heap h).busy = false)
    (hd : s.control.detached = some h → h ∉ s.streams)
    (ho : s.control = .removed h → (s.heap h).source.Over) : Removal s := by
  have hone : ∀ k, s.control.target = some k ∨ s.control.removing = some k ∨ s.control.drained = some k ∨
      s.control.detached = some k ∨ s.control = .removed k → k = h := by
    intro k hk
    cases hc : s.control <;>
      simp_all [Control.target, Control.removing, Control.drained, Control.detached]
  refine ⟨fun k hk => ?_, fun k hk => ?_, fun k hk => ?_, fun k hk => ?_, fun k hk => ?_⟩
  · rw [hone k (.inl hk)]
    exact hlt
  · obtain rfl := hone k (hk.elim (fun h => .inr (.inl h)) fun h => .inr (.inr (.inl h)))
    exact hr hk
  · obtain rfl := hone k (.inr (.inr (.inl hk)))
    exact hf hk
  · obtain rfl := hone k (.inr (.inr (.inr (.inl hk))))
    exact hd hk
  · obtain rfl := hone k (.inr (.inr (.inr (.inr hk))))
    exact ho hk

theorem Removal.stepControl (hm : Removal s) (hv : Inv s) (hs : stepControl s a = some s') : Removal s' := by
  cases a <;> simp only [NativeRuntime.stepControl] at hs
  case add i =>
    split at hs
    · next hg =>
      split at hs <;> cases hs
      · exact .idle hg.1
      · exact .idle hg.1
    · cases hs
  case remove i =>
    split at hs
    · next hg =>
      split at hs <;> cases hs
      · next k hf =>
        refine @Removal.of_target _ k rfl (hv.lt k (find_mem hf)) ?_ ?_ ?_ ?_
        all_goals simp [Control.removing, Control.drained, Control.detached]
      · exact .idle hg.1
    · cases hs
  case setRemoving =>
    split at hs <;> cases hs
    next k hc =>
    refine @Removal.of_target _ k rfl (hm.lt k (by rw [hc]; rfl)) (fun _ => ?_) ?_ ?_ ?_
    · simp [State.modify]
    all_goals simp [Control.drained, Control.detached]
  case tryLock got =>
    split at hs
    · next k hc =>
      have hlt : k < s.next := hm.lt k (by rw [hc]; rfl)
      have hflag : (s.heap k).removing = true := hm.flagged k (.inl (by rw [hc]; rfl))
      split at hs
      · next hg =>
        cases hs
        refine @Removal.of_target _ k rfl hlt (fun _ => hflag) (fun _ => hg.2.2) ?_ ?_
        all_goals simp [Control.detached]
      · cases hs
        refine @Removal.of_target _ k rfl hlt (fun _ => hflag) ?_ ?_ ?_
        all_goals simp [Control.drained, Control.detached]
    · cases hs
  case clock passed =>
    split at hs <;> cases hs
    next k hc =>
    have hlt : k < s.next := hm.lt k (by rw [hc]; rfl)
    have hflag : (s.heap k).removing = true := hm.flagged k (.inl (by rw [hc]; rfl))
    cases passed with
    | true =>
      refine @Removal.of_target _ k rfl hlt (fun _ => hflag) ?_ ?_ ?_
      all_goals simp [Control.drained, Control.detached]
    | false =>
      refine @Removal.of_target _ k rfl hlt (fun _ => hflag) ?_ ?_ ?_
      all_goals simp [Control.drained, Control.detached]
  case takeBack =>
    split at hs <;> cases hs
    next k hc =>
    refine @Removal.of_target _ k rfl (hm.lt k (by rw [hc]; rfl)) ?_ ?_ ?_ ?_
    all_goals simp [Control.removing, Control.drained, Control.detached]
  case replyTimeout =>
    split at hs <;> cases hs
    exact .idle rfl
  case detach =>
    split at hs <;> cases hs
    next k hc =>
    refine @Removal.of_target _ k rfl (hm.lt k (by rw [hc]; rfl)) (fun _ => hm.flagged k (.inr (by rw [hc]; rfl)))
      (fun _ => hm.free k (by rw [hc]; rfl)) (fun _ hmem => ?_) (by simp)
    exact (hv.nodup.mem_erase_iff.mp hmem).1 rfl
  case join =>
    split at hs
    · next k hc =>
      split at hs
      · next hover =>
        cases hs
        exact @Removal.of_target _ k rfl (hm.lt k (by rw [hc]; rfl)) (fun _ => hm.flagged k (.inr (by rw [hc]; rfl)))
          (fun _ => hm.free k (by rw [hc]; rfl)) (fun _ => hm.detached k (by rw [hc]; rfl)) fun _ => hover
      · cases hs
    · cases hs
  case replyRemoved =>
    split at hs <;> cases hs
    exact .idle rfl
  case stop =>
    split at hs <;> cases hs
    next hg => exact .idle hg.1
  all_goals cases hs

theorem step_removal (hv : Inv s) (hi : Exclusive s) (hm : Removal s) (hs : step maxBatch s a = some s') :
    Removal s' := by
  rcases step_view hs with hs | hs | hs
  · exact hm.stepControl hv hs
  · exact hm.source hs
  · exact hm.context hi hs

/-! ## From the reply on -/

/-- **Nobody touches a removed stream.** -/
theorem step_untouched (hi : Exclusive s) (hr : Removed h s) (hs : step maxBatch s a = some s') :
    s'.heap h = s.heap h ∧ h ∉ s'.streams ∧ h < s'.next ∧ s'.control.target ≠ some h := by
  rcases step_view hs with hs | hs | hs
  · exact stepControl_other hr.notTarget hr.gone hr.lt hs
  · have hf := stepSource_frame hs
    refine ⟨stepSource_over hr.ended hs, ?_, ?_, ?_⟩
    · rw [hf.streams]; exact hr.gone
    · rw [hf.next]; exact hr.lt
    · rw [hf.control]; exact hr.notTarget
  · have hf := stepContext_frame hs
    obtain ⟨c, hm⟩ := stepContext_move hs
    refine ⟨hm.untouched hi hr.free hr.flagged, ?_, ?_, ?_⟩
    · rw [hf.streams]; exact hr.gone
    · rw [hf.next]; exact hr.lt
    · rw [hf.control]; exact hr.notTarget

theorem step_removed (hi : Exclusive s) (hr : Removed h s) (hs : step maxBatch s a = some s') : Removed h s' := by
  obtain ⟨hheap, hgone, hlt, htarget⟩ := step_untouched hi hr hs
  refine ⟨hlt, hgone, ?_, ?_, ?_, htarget⟩
  all_goals rw [hheap]
  · exact hr.flagged
  · exact hr.free
  · exact hr.ended

/-- The reply leaves its stream removed. -/
theorem removed_of_reply (hm : Removal s) (hc : s.control = .removed h) (hs : step maxBatch s .replyRemoved = some s') :
    Removed h s' := by
  have hdr : s.control.drained = some h := by rw [hc]; rfl
  simp only [step, NativeRuntime.stepControl, hc] at hs
  cases hs
  exact ⟨hm.lt h (by rw [hc]; rfl), hm.detached h (by rw [hc]; rfl), hm.flagged h (.inr hdr), hm.free h hdr,
    hm.ended h hc, by simp [Control.target]⟩

/-- No context is at a removed stream. -/
theorem Removed.not_processed (hi : Exclusive s) (hr : Removed h s) : (s.contexts c).processes ≠ some h :=
  fun hp => hi.not_claimed hr.free (hi.claimed_of_processes hp)

/-- A step that queues a record of a stream is one of a thread that uses it. -/
theorem Removed.not_queued (hi : Exclusive s) (hr : Removed h s) (hs : step maxBatch s a = some s') :
    s.queues a ≠ some h := by
  have hsrc : (s.heap h).source ≠ .reading := by
    rcases hr.ended with hl | hl
    · simp [hl]
    · simp [hl]
  cases a with
  | add i =>
    simp only [State.queues]
    have := hr.lt
    split
    · simp
    · simp only [ne_eq, Option.some.injEq]
      omega
  | readFrame k =>
    have hne : k ≠ h := by
      rintro rfl
      simp [step, stepSource] at hs
    simp only [State.queues]
    split
    · simp
    · simpa using hne
  | readFails k =>
    have hne : k ≠ h := by
      rintro rfl
      simp [step, stepSource] at hs
    simpa [State.queues] using hne
  | endFrame c => exact hr.not_processed hi
  | replyRemoved => exact hr.notTarget
  | _ => simp [State.queues]

/-- **A successful remove is final**: after the step that queues the "stopped"
record and replies, in every run, no context is at the frame of the removed
stream and no step queues a record of it. -/
theorem remove_final (hr : run (step maxBatch) start as = some s) (hc : s.control = .removed h)
    (hs : step maxBatch s .replyRemoved = some t) (hrest : run (step maxBatch) t bs = some u) :
    (∀ c, (u.contexts c).processes ≠ some h) ∧ ∀ a u', step maxBatch u a = some u' → u.queues a ≠ some h := by
  obtain ⟨hv, hi, hm⟩ : Inv s ∧ Exclusive s ∧ Removal s := by
    refine run_invariant' (I := fun s : State => Inv s ∧ Exclusive s ∧ Removal s) (fun s a s' hI hs => ?_)
      ⟨start_inv, start_exclusive, .idle rfl⟩ hr
    obtain ⟨hv, hi, hm⟩ := hI
    exact ⟨step_inv hv hs, step_exclusive hv hi hs, step_removal hv hi hm hs⟩
  obtain ⟨-, hiu, hru⟩ : Inv u ∧ Exclusive u ∧ Removed h u := by
    refine run_invariant' (I := fun s : State => Inv s ∧ Exclusive s ∧ Removed h s) (fun s a s' hI hs => ?_)
      ⟨step_inv hv hs, step_exclusive hv hi hs, removed_of_reply hm hc hs⟩ hrest
    obtain ⟨hv, hi, hr⟩ := hI
    exact ⟨step_inv hv hs, step_exclusive hv hi hs, step_removed hi hr hs⟩
  exact ⟨fun c => hru.not_processed hiu, fun a u' hs => hru.not_queued hiu hs⟩

/-- A context has the stream in its snapshot when it is removed. -/
def removeSnapshot : List Action :=
  [.add 0, .sample 0, .readFrame 0, .snapshot 0, .remove 0, .setRemoving, .tryLock true, .sample 0, .detach, .join]

/-- The context goes on, and the index is added again: a frame of the new
stream is processed. -/
def addAgain : List Action :=
  [.claim 0 true, .endClaims 0, .add 0, .sample 1, .readFrame 1, .snapshot 0, .claim 0 true, .endClaims 0,
    .checkRemoving 0, .enterFrame 0]

theorem remove_final_of_add_again : ∃ s t u, run (step 1) start removeSnapshot = some s ∧
    step 1 s .replyRemoved = some t ∧ run (step 1) t addAgain = some u ∧
    t.replies = [.added 0, .removed 0] ∧ u.replies = [.added 0, .removed 0, .added 0] ∧
    u.queues (.endFrame 0) = some 1 ∧ ∀ a u', step 1 u a = some u' → u.queues a ≠ some 0 := by
  refine ⟨_, _, _, rfl, rfl, rfl, rfl, rfl, rfl, ?_⟩
  have hr : run (step 1) start removeSnapshot = some _ := rfl
  exact (remove_final hr rfl rfl (show run (step 1) _ addAgain = some _ from rfl)).2

end RetailVision.NativeRuntime
