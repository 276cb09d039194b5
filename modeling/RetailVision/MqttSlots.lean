/-
The slots that publishes of QoS 1 take in `_inflight`. A slot is taken before
the packet is encoded, and each way a call ends gives it back but one: where
the packet cannot be encoded, the call raises and leaves it there until the
connection is lost. So calls give back their slots exactly where their topics
go into a packet (`released_iff`).
-/
import RetailVision.MqttSessions

set_option linter.all false

namespace RetailVision.MqttClient

open Lib

/-- The packet id a request is registered with, if it is given one. -/
def Request.slot (r : Request) (pid : Nat) : Option Nat :=
  match r with
  | .publish _ _ qos _ => if qos = 0 then none else some pid
  | _ => none

/-- The packet id a call may be registered with. -/
def Call.slot : Call → Option Nat
  | .numbered r pid | .encoded r pid _ | .writing r pid _ _ | .failed r pid | .waiting r pid | .unanswered r pid => r.slot pid
  | _ => none

/-- The call is over, and its topic does not go into a packet. -/
def Call.Leaked (call : Call) : Prop :=
  ∃ topic payload qos retain o, call = .ended (.publish topic payload qos retain) o ∧ ¬ Fits topic

/-- The call has not been registered yet. -/
def Call.Early : Call → Prop
  | .idle | .begun _ | .checked _ => True
  | _ => False

/-- A packet id is one, and only a call that needs one waits for it. -/
def Call.Numbered : Call → Prop
  | .checked r => r.needsPid = true
  | .numbered _ pid => pid ≤ 65535
  | _ => True

/-- Who is registered, and what of it the waiters say. -/
structure Slots (s : State) : Prop where
  slot : ∀ pid t, (pid, t) ∈ s.inflight.entries → (s.calls t).slot = some pid ∨ (s.calls t).Leaked
  once : ∀ pid pid' t, (pid, t) ∈ s.inflight.entries → (pid', t) ∈ s.inflight.entries → pid = pid'
  numbered : ∀ t, (s.calls t).Numbered
  early : ∀ t, (s.calls t).Early → (s.waiters t).result = none ∧ ∀ b, (t, b) ∉ s.toResolve
  /-- a call that is registered has not been acknowledged -/
  unanswered : ∀ pid t, (pid, t) ∈ s.inflight.entries → (s.waiters t).result ≠ some true ∧ (t, true) ∉ s.toResolve

variable {c : Settings} {s s' : State} {a : Action} {as : List Action} {t pid : Nat} {r : Request} {call : Call}
  {topic : Str} {payload : Bytes} {retain : Bool}

theorem start_slots : Slots start where
  slot _ _ h := by cases h
  once _ _ _ h := by cases h
  numbered _ := trivial
  early _ _ := ⟨rfl, fun _ h => by cases h⟩
  unanswered _ _ h := by cases h

theorem Slots.unregistered (hi : Slots s) (hslot : (s.calls t).slot = none) (hleaked : ¬ (s.calls t).Leaked) :
    (pid, t) ∉ s.inflight.entries := by
  intro h
  obtain he | he := hi.slot pid t h
  · rw [hslot] at he
    cases he
  · exact hleaked he

theorem not_leaked (hc : ∀ r o, call ≠ .ended r o) : ¬ call.Leaked := by
  rintro ⟨topic, payload, qos, retain, o, he, -⟩
  exact hc _ _ he

/-- A registered call is not early. -/
theorem Slots.not_early (hi : Slots s) (h : (pid, t) ∈ s.inflight.entries) : ¬ (s.calls t).Early := by
  intro he
  refine hi.unregistered ?_ (not_leaked ?_) h
  · cases hc : s.calls t <;> rw [hc] at he <;> first | rfl | exact he.elim
  · intro r o hc
    rw [hc] at he
    exact he

/-- A call goes on: it gives back its slot, or keeps it. -/
theorem Slots.move (hi : Slots s) {inflight : Dict Nat Nat} {log : Nat → List Event} {closed : Nat → Bool} {connected stop : Bool}
    {subs : List SubEntry} (hsub : ∀ e ∈ inflight.entries, e ∈ s.inflight.entries) (hnumbered : call.Numbered)
    (hearly : call.Early → (s.calls t).Early)
    (hslot : ∀ pid, (pid, t) ∈ inflight.entries → call.slot = some pid ∨ call.Leaked) : Slots { s.setCall t call with
      inflight := inflight, log := log, closed := closed, connected := connected, stop := stop, subs := subs } := by
  have hself : (s.setCall t call).calls t = call := Function.update_self ..
  have hne : ∀ {u}, u ≠ t → (s.setCall t call).calls u = s.calls u := fun hu => Function.update_of_ne hu ..
  constructor
  case slot =>
    intro pid u h
    by_cases hu : u = t
    · subst hu
      rw [hself]
      exact hslot pid h
    · rw [hne hu]
      exact hi.slot pid u (hsub _ h)
  case once => exact fun pid pid' u h h' => hi.once pid pid' u (hsub _ h) (hsub _ h')
  case numbered =>
    intro u
    by_cases hu : u = t
    · subst hu
      rw [hself]
      exact hnumbered
    · rw [hne hu]
      exact hi.numbered u
  case early =>
    intro u he
    by_cases hu : u = t
    · subst hu
      rw [hself] at he
      exact hi.early u (hearly he)
    · rw [hne hu] at he
      exact hi.early u he
  case unanswered => exact fun pid u h => hi.unanswered pid u (hsub _ h)

/-- A call that is not registered goes on. -/
theorem Slots.free (hi : Slots s) {log : Nat → List Event} {closed : Nat → Bool} {connected stop : Bool} {subs : List SubEntry}
    (hno : ∀ pid, (pid, t) ∉ s.inflight.entries) (hnumbered : call.Numbered) (hearly : call.Early → (s.calls t).Early) :
    Slots { s.setCall t call with log := log, closed := closed, connected := connected, stop := stop, subs := subs } :=
  hi.move (fun _ h => h) hnumbered hearly fun pid h => absurd h (hno pid)

/-- A call keeps its slot. -/
theorem Slots.keep (hi : Slots s) {log : Nat → List Event} (hc : ¬ (s.calls t).Leaked) (hslot : call.slot = (s.calls t).slot)
    (hnumbered : call.Numbered) (hearly : call.Early → (s.calls t).Early) : Slots { s.setCall t call with log := log } := by
  refine hi.move (fun _ h => h) hnumbered hearly fun pid h => .inl ?_
  rw [hslot]
  exact (hi.slot pid t h).resolve_right hc

/-- A call gives back its slot. -/
theorem Slots.release (hi : Slots s) (hc : ¬ (s.calls t).Leaked) (hslot : ∀ p, (s.calls t).slot = some p → p = pid) (hnumbered : call.Numbered)
    (hearly : ¬ call.Early) : Slots { s.setCall t call with inflight := s.inflight.erase pid } := by
  refine hi.move (fun e h => (Dict.mem_erase.mp (show (e.1, e.2) ∈ _ from h)).1) hnumbered (fun h => absurd h hearly) fun p h => ?_
  obtain ⟨hm, hp⟩ := Dict.mem_erase.mp h
  exact absurd (hslot p ((hi.slot p t hm).resolve_right hc)) hp

/-- A slot is taken. -/
theorem Slots.register (hi : Slots s) (hearly : (s.calls t).Early) (h : s.inflight.get? pid = none) (hp : pid ≤ 65535) (hslot : r.slot pid = some pid) :
    Slots { (s.setCall t (.numbered r pid)).setWaiter t ⟨false, none⟩ with inflight := s.inflight.add pid t h } := by
  have hself : ((s.setCall t (.numbered r pid)).setWaiter t ⟨false, none⟩).calls t = .numbered r pid := Function.update_self ..
  have hne : ∀ {u}, u ≠ t → ((s.setCall t (.numbered r pid)).setWaiter t ⟨false, none⟩).calls u = s.calls u := fun hu => Function.update_of_ne hu ..
  have hwself : ((s.setCall t (.numbered r pid)).setWaiter t ⟨false, none⟩).waiters t = ⟨false, none⟩ := Function.update_self ..
  have hwne : ∀ {u}, u ≠ t → ((s.setCall t (.numbered r pid)).setWaiter t ⟨false, none⟩).waiters u = s.waiters u := fun hu => Function.update_of_ne hu ..
  have hno : ∀ p, (p, t) ∉ s.inflight.entries := fun p hm => hi.not_early hm hearly
  have hmem : ∀ {p u}, (p, u) ∈ (s.inflight.add pid t h).entries → (p, u) ∈ s.inflight.entries ∨ p = pid ∧ u = t :=
    fun hm => Dict.mem_add.mp hm
  constructor
  case slot =>
    intro p u hm
    obtain hm | ⟨rfl, rfl⟩ := hmem hm
    · have hu : u ≠ t := fun he => hno p (he ▸ hm)
      rw [hne hu]
      exact hi.slot p u hm
    · rw [hself]
      exact .inl hslot
  case once =>
    intro p p' u hm hm'
    obtain hold | ⟨rfl, rfl⟩ := hmem hm
    · obtain hold' | ⟨rfl, rfl⟩ := hmem hm'
      · exact hi.once p p' u hold hold'
      · exact absurd hold (hno p)
    · obtain hold' | ⟨rfl, -⟩ := hmem hm'
      · exact absurd hold' (hno p')
      · rfl
  case numbered =>
    intro u
    by_cases hu : u = t
    · subst hu
      rw [hself]
      exact hp
    · rw [hne hu]
      exact hi.numbered u
  case early =>
    intro u he
    by_cases hu : u = t
    · subst hu
      rw [hself] at he
      exact he.elim
    · rw [hne hu] at he
      rw [hwne hu]
      exact hi.early u he
  case unanswered =>
    intro p u hm
    obtain hm | ⟨rfl, rfl⟩ := hmem hm
    · have hu : u ≠ t := fun he => hno p (he ▸ hm)
      rw [hwne hu]
      exact hi.unanswered p u hm
    · rw [hwself]
      exact ⟨by simp, (hi.early u hearly).2 true⟩

/-! ## Every step -/

theorem Slots.begin (hi : Slots s) (hc : s.calls t = .idle) : Slots (s.begin t r) := by
  have hno : ∀ pid, (pid, t) ∉ s.inflight.entries := fun pid hm => hi.not_early hm (by rw [hc]; trivial)
  have hearly : (s.calls t).Early := by rw [hc]; trivial
  cases r <;> simp only [State.begin]
  · split
    · exact hi.free hno trivial fun _ => hearly
    · split
      · exact hi.free hno trivial fun _ => hearly
      · exact hi.free hno trivial fun _ => hearly
  · exact hi.free hno trivial fun _ => hearly
  · exact hi.free hno trivial fun _ => hearly

theorem Slots.check (hi : Slots s) (hc : s.calls t = .begun r) :
    Slots (s.setCall t (if s.connected then (if r.needsPid then .checked r else .numbered r 0) else r.notConnected)) := by
  have hno : ∀ pid, (pid, t) ∉ s.inflight.entries := fun pid hm => hi.not_early hm (by rw [hc]; trivial)
  have hearly : (s.calls t).Early := by rw [hc]; trivial
  refine hi.free hno ?_ fun _ => hearly
  split
  · split
    · next hr => exact hr
    · exact Nat.zero_le _
  · cases r <;> trivial

/-- Where the packet cannot be encoded, the slot stays. -/
theorem Slots.encode (hi : Slots s) (hc : s.calls t = .numbered r pid) (hs : (match r.packet pid with
    | .error e => some (s.setCall t (.ended r (.raised e)))
    | .ok pkt => some (s.setCall t (.encoded r pid pkt))) = some s') : Slots s' := by
  have hnot : ¬ (s.calls t).Leaked := by rw [hc]; exact not_leaked fun _ _ h => by cases h
  split at hs <;> cases hs
  · next e he =>
    refine hi.move (fun _ h => h) trivial (fun h => h.elim) fun p hm => .inr ?_
    have hslot := (hi.slot p t hm).resolve_right hnot
    rw [hc] at hslot
    cases r with
    | publish topic payload qos retain =>
      refine ⟨topic, payload, qos, retain, _, rfl, fun hfits => ?_⟩
      have hp : pid ≤ 65535 := by
        have h := hi.numbered t
        rw [hc] at h
        exact h
      obtain ⟨pkt, hpkt⟩ := (@encodePublish_ok_iff topic payload qos pid retain hp).mpr hfits
      cases he.symm.trans hpkt
    | subscribe topicFilter qos => cases hslot
    | close => cases hslot
  · next pkt hpkt => exact hi.keep hnot (by rw [hc]; rfl) trivial fun h => h.elim

theorem Slots.sent (hi : Slots s) {pkt : Bytes} {k : Nat} {log : Nat → List Event} (hc : s.calls t = .writing r pid pkt k) :
    Slots { s.setCall t (r.sent pid) with log := log } := by
  have hnot : ¬ (s.calls t).Leaked := by rw [hc]; exact not_leaked fun _ _ h => by cases h
  cases r with
  | publish topic payload qos retain =>
    simp only [Request.sent]
    split
    · next hq =>
      have hslot : (s.calls t).slot = none := by rw [hc]; simp [Call.slot, Request.slot, hq]
      exact hi.free (fun p => hi.unregistered hslot hnot) trivial fun h => h.elim
    · exact hi.keep hnot (by rw [hc]; rfl) trivial fun h => h.elim
  | subscribe topicFilter qos => exact hi.keep hnot (by rw [hc]; rfl) trivial fun h => h.elim
  | close => exact hi.keep hnot (by rw [hc]; rfl) trivial fun h => h.elim

theorem Slots.handleError (hi : Slots s) (hc : s.calls t = .failed r pid) : Slots (s.handleError t r pid) := by
  have hnot : ¬ (s.calls t).Leaked := by rw [hc]; exact not_leaked fun _ _ h => by cases h
  cases r with
  | publish topic payload qos retain =>
    simp only [State.handleError]
    split
    · next hq =>
      have hslot : (s.calls t).slot = none := by rw [hc]; simp [Call.slot, Request.slot, hq]
      exact hi.free (fun p => hi.unregistered hslot hnot) trivial fun h => h.elim
    · next hq =>
      refine hi.release hnot (fun p hp => ?_) trivial (fun h => h)
      rw [hc] at hp
      simp only [Call.slot, Request.slot, hq, if_false, Option.some.injEq] at hp
      exact hp.symm
  | subscribe topicFilter qos =>
    exact hi.free (fun p => hi.unregistered (by rw [hc]; rfl) hnot) trivial fun h => h.elim
  | close => exact hi.free (fun p => hi.unregistered (by rw [hc]; rfl) hnot) trivial fun h => h.elim

theorem Slots.stepCall (hi : Slots s) {a : CallAction} (hs : stepCall c s t a = some s') : Slots s' := by
  have hover : ∀ {t call}, s.calls t = call → (∀ r o, call ≠ .ended r o) → ¬ (s.calls t).Leaked := by
    intro t call hc hno
    rw [hc]
    exact not_leaked hno
  -- a call without a slot
  have hfree : ∀ {t call}, s.calls t = call → call.slot = none → (∀ r o, call ≠ .ended r o) → ∀ pid, (pid, t) ∉ s.inflight.entries :=
    fun hc hslot hno pid => hi.unregistered (by rw [hc]; exact hslot) (hover hc hno)
  cases a <;> simp only [MqttClient.stepCall] at hs
  case begin r =>
    split at hs <;> cases hs
    next hc => exact hi.begin hc
  case check =>
    split at hs <;> cases hs
    next r hc => exact hi.check hc
  case register pid =>
    split at hs
    · next topic payload qos retain hc =>
      split at hs
      · next h =>
        split at hs <;> cases hs
        next hg =>
        have hqos : qos = 1 := by
          have hn := hi.numbered t
          rw [hc] at hn
          exact of_decide_eq_true hn
        exact hi.register (by rw [hc]; trivial) h hg.2.2 (by simp [Request.slot, hqos])
      · cases hs
    · cases hs
  case giveUp =>
    split at hs
    · next hc =>
      split at hs <;> cases hs
      exact hi.free (hfree hc rfl fun _ _ h => by cases h) trivial fun h => h.elim
    · cases hs
  case alloc pid =>
    split at hs
    · next hc =>
      split at hs <;> cases hs
      next hp => exact hi.free (hfree hc rfl fun _ _ h => by cases h) hp.2 fun h => h.elim
    · cases hs
  case encode =>
    split at hs
    · next r pid hc => exact hi.encode hc hs
    · cases hs
  case readSock =>
    split at hs
    · next r pid pkt hc =>
      have hnot := hover hc fun _ _ h => by cases h
      split at hs <;> cases hs
      · exact hi.keep hnot (by rw [hc]; rfl) trivial fun h => h.elim
      · exact hi.keep hnot (by rw [hc]; rfl) trivial fun h => h.elim
    · cases hs
  case write ok =>
    split at hs
    · next r pid pkt k hc =>
      split at hs
      · split at hs <;> cases hs
        exact hi.sent hc
      · cases hs
        exact hi.keep (hover hc fun _ _ h => by cases h) (by rw [hc]; rfl) trivial fun h => h.elim
    · cases hs
  case handleError =>
    split at hs <;> cases hs
    next r pid hc => exact hi.handleError hc
  case handleDrop =>
    split at hs
    · next r hc =>
      have hno := hfree hc rfl fun _ _ h => by cases h
      split at hs <;> cases hs
      · exact hi.free hno trivial fun h => h.elim
      · exact hi.free hno trivial fun h => h.elim
    · cases hs
  case wake =>
    split at hs
    · next pid hc =>
      split at hs
      · split at hs <;> cases hs
        · next hres => exact hi.free (fun p hm => (hi.unanswered p t hm).1 hres) trivial fun h => h.elim
        · exact hi.keep (hover hc fun _ _ h => by cases h) (by rw [hc]; rfl) trivial fun h => h.elim
      · cases hs
    · cases hs
  case timeOut =>
    split at hs
    · next hc =>
      split at hs <;> cases hs
      exact hi.keep (hover hc fun _ _ h => by cases h) (by rw [hc]; rfl) trivial fun h => h.elim
    · cases hs
  case pop =>
    split at hs <;> cases hs
    next r pid hc =>
    refine hi.release (hover hc fun _ _ h => by cases h) (fun p hp => ?_) trivial fun h => h
    rw [hc] at hp
    cases r with
    | publish topic payload qos retain =>
      simp only [Call.slot, Request.slot] at hp
      split at hp <;> cases hp
      rfl
    | subscribe topicFilter qos => cases hp
    | close => cases hp
  case suback rejected =>
    split at hs
    · next hc =>
      have hno := hfree hc rfl fun _ _ h => by cases h
      split at hs <;> cases hs
      · exact hi.free hno trivial fun h => h.elim
      · exact hi.free hno trivial fun h => h.elim
    · cases hs
  case setStop =>
    split at hs <;> cases hs
    next hc => exact hi.free (hfree hc rfl fun _ _ h => by cases h) trivial fun h => h.elim
  case clear =>
    split at hs <;> cases hs
    next hc => exact hi.free (hfree hc rfl fun _ _ h => by cases h) trivial fun h => h.elim

theorem Slots.stepIo (hi : Slots s) {a : IoAction} (hs : stepIo c s a = some s') : Slots s' := by
  cases stepIo_move hs with
  | same calls waiters inflight toResolve =>
    constructor
    case slot => rw [calls, inflight]; exact hi.slot
    case once => rw [inflight]; exact hi.once
    case numbered => rw [calls]; exact hi.numbered
    case early => rw [calls, waiters, toResolve]; exact hi.early
    case unanswered => rw [inflight, waiters, toResolve]; exact hi.unanswered
  | acknowledges pid t get calls waiters inflight toResolve =>
    have ht := Dict.get?_eq_some get
    constructor
    case slot =>
      rw [calls, inflight]
      exact fun p u hm => hi.slot p u (Dict.mem_erase.mp hm).1
    case once =>
      rw [inflight]
      exact fun p p' u hm hm' => hi.once p p' u (Dict.mem_erase.mp hm).1 (Dict.mem_erase.mp hm').1
    case numbered => rw [calls]; exact hi.numbered
    case early =>
      rw [calls, waiters, toResolve]
      intro u he
      refine ⟨(hi.early u he).1, fun b hm => ?_⟩
      cases List.mem_singleton.mp hm
      exact hi.not_early ht he
    case unanswered =>
      rw [inflight, waiters, toResolve]
      intro p u hm
      obtain ⟨hmem, hp⟩ := Dict.mem_erase.mp hm
      refine ⟨(hi.unanswered p u hmem).1, fun hr => ?_⟩
      cases List.mem_singleton.mp hr
      exact hp (hi.once p pid t hmem ht)
  | fails calls waiters inflight toResolve =>
    constructor
    case slot => rw [inflight]; exact fun p u hm => by cases hm
    case once => rw [inflight]; exact fun p p' u hm => by cases hm
    case numbered => rw [calls]; exact hi.numbered
    case early =>
      rw [calls, waiters, toResolve]
      intro u he
      refine ⟨(hi.early u he).1, fun b hm => ?_⟩
      obtain ⟨e, hme, hu⟩ := List.mem_map.mp hm
      cases hu
      exact hi.not_early (show (e.1, e.2) ∈ _ from hme) he
    case unanswered => rw [inflight]; exact fun p u hm => by cases hm

theorem Slots.resolve (hi : Slots s) (hs : s.resolve = some s') : Slots s' := by
  simp only [State.resolve] at hs
  split at hs <;> cases hs
  next t b rest hto =>
  have hself : (s.setWaiter t ⟨true, some b⟩).waiters t = ⟨true, some b⟩ := Function.update_self ..
  have hne : ∀ {u}, u ≠ t → (s.setWaiter t ⟨true, some b⟩).waiters u = s.waiters u := fun hu => Function.update_of_ne hu ..
  have hsub : ∀ {x}, x ∈ rest → x ∈ s.toResolve := fun hm => hto ▸ List.mem_cons_of_mem _ hm
  have hhead : (t, b) ∈ s.toResolve := hto ▸ List.mem_cons_self
  constructor
  case slot => exact hi.slot
  case once => exact hi.once
  case numbered => exact hi.numbered
  case early =>
    intro u he
    obtain ⟨hres, hno⟩ := hi.early u he
    have hu : u ≠ t := by
      rintro rfl
      exact hno b hhead
    rw [hne hu]
    exact ⟨hres, fun b' hm => hno b' (hsub hm)⟩
  case unanswered =>
    intro p u hm
    obtain ⟨hres, hno⟩ := hi.unanswered p u hm
    refine ⟨?_, fun hr => hno (hsub hr)⟩
    by_cases hu : u = t
    · subst hu
      rw [hself]
      intro hb
      cases hb
      exact hno hhead
    · rw [hne hu]
      exact hres

theorem step_slots (s : State) (a : Action) (s' : State) (hi : Slots s) (hs : step c s a = some s') : Slots s' := by
  cases a with
  | call t a => exact hi.stepCall hs
  | unsubscribe topicFilter =>
    cases hs
    exact ⟨hi.slot, hi.once, hi.numbered, hi.early, hi.unanswered⟩
  | io a =>
    simp only [step] at hs
    split at hs
    · exact hi.stepIo hs
    · cases hs
  | resolve => exact hi.resolve hs

/-- A call whose topic fits gives back its slot. -/
theorem released (hr : run (step c) start as = some s) {qos : Nat} {o : Outcome} (hc : s.calls t = .ended (.publish topic payload qos retain) o)
    (hf : Fits topic) : (pid, t) ∉ s.inflight.entries := by
  have hi : Slots s := run_invariant' step_slots start_slots hr
  refine hi.unregistered (by rw [hc]; rfl) fun hl => ?_
  obtain ⟨topic', payload', qos', retain', o', he, hnot⟩ := hl
  rw [hc] at he
  cases he
  exact hnot hf

/-! ## Clients that take no slot -/

/-- Where nobody comes to take a slot, none is taken. -/
theorem step_empty (he : s.inflight.entries = []) (hno : 0 < c.maxInflight → ∀ t r, s.calls t ≠ .checked r) (hs : step c s a = some s') :
    s'.inflight.entries = [] := by
  cases a with
  | call t a =>
    obtain hsub | ⟨hpos, u, r, hc⟩ := (stepCall_frame hs).inflight
    · exact List.eq_nil_iff_forall_not_mem.mpr fun e hm => by simpa [he] using hsub e hm
    · exact absurd hc (hno hpos u r)
  | unsubscribe topicFilter =>
    cases hs
    exact he
  | io a =>
    simp only [step] at hs
    split at hs
    · cases stepIo_move hs with
      | same _ _ inflight _ => rw [inflight, he]
      | acknowledges pid t get _ _ inflight _ => simp [inflight, Dict.erase, he]
      | fails _ _ inflight _ => rw [inflight]; rfl
    · cases hs
  | resolve =>
    simp only [step, State.resolve] at hs
    split at hs <;> cases hs
    exact he

/-- The IO thread has no session whose CONNECT is written. -/
def Io.Outside : Io → Prop
  | .awaitingConnack _ | .acknowledged _ | .connected _ | .resubscribing _ _ | .awaitingSuback _ _ | .traffic _ => False
  | _ => True

/-- No session is ever established. -/
structure Offline (s : State) : Prop where
  connected : s.connected = false
  calls : ∀ t r, s.calls t ≠ .checked r
  io : s.io.Outside
  empty : s.inflight.entries = []

theorem start_offline : Offline start where
  connected := rfl
  calls _ _ h := by cases h
  io := trivial
  empty := rfl

theorem Offline.stepIo (hi : Offline s) (hc : ∀ pkt, encodeConnect c ≠ .ok pkt) {a : IoAction} (hs : stepIo c s a = some s') :
    s'.connected = false ∧ s'.io.Outside := by
  have hio := hi.io
  have hno := hi.connected
  cases a <;> simp only [MqttClient.stepIo] at hs
  case loop =>
    split at hs <;> cases hs
    refine ⟨hno, ?_⟩
    dsimp only
    split <;> trivial
  case connect ok =>
    split at hs
    · split at hs <;> cases hs <;> exact ⟨hno, trivial⟩
    · cases hs
  case sendConnect ok =>
    split at hs
    · split at hs
      · cases hs
        exact ⟨hno, trivial⟩
      · next pkt hpkt => exact absurd hpkt (hc pkt)
    · cases hs
  case puback pid =>
    split at hs
    · split at hs <;> cases hs <;> exact ⟨hno, hio⟩
    · cases hs
  case replyPuback pid ok =>
    split at hs
    · split at hs
      · split at hs <;> cases hs
        exact ⟨hno, hio⟩
      · cases hs
        exact ⟨hno, hio⟩
    · cases hs
  case sessionFails =>
    split at hs <;> cases hs
    exact ⟨hno, trivial⟩
  case closeSock =>
    split at hs <;> cases hs
    exact ⟨hno, trivial⟩
  case clearSock =>
    split at hs <;> cases hs
    refine ⟨hno, ?_⟩
    dsimp only
    split <;> trivial
  case sessionOver =>
    split at hs <;> cases hs
    refine ⟨hno, ?_⟩
    dsimp only
    split <;> trivial
  case clearConnected =>
    split at hs <;> cases hs
    exact ⟨rfl, trivial⟩
  case failInflight =>
    split at hs <;> cases hs
    exact ⟨hno, trivial⟩
  case backOff =>
    split at hs <;> cases hs
    refine ⟨hno, ?_⟩
    dsimp only
    split <;> trivial
  -- the IO thread is in no session
  case readConnack | setConnected | takeSubs | resubscribe | enterTraffic | readSuback | ping =>
    split at hs
    · next hk =>
      rw [hk] at hio
      exact hio.elim
    · cases hs

theorem step_offline (hc : ∀ pkt, encodeConnect c ≠ .ok pkt) (s : State) (a : Action) (s' : State) (hi : Offline s) (hs : step c s a = some s') :
    Offline s' := by
  have hempty := step_empty hi.empty (fun _ => hi.calls) hs
  cases a with
  | call t a =>
    have hf := stepCall_frame hs
    refine ⟨?_, fun u r hr => ?_, hf.io ▸ hi.io, hempty⟩
    · by_contra hno
      have hcon := hf.connected (by simpa using hno)
      rw [hi.connected] at hcon
      cases hcon
    · obtain h | h := hf.checked u r hr
      · exact hi.calls u r h
      · rw [hi.connected] at h
        cases h
  | unsubscribe topicFilter =>
    cases hs
    exact ⟨hi.connected, hi.calls, hi.io, hempty⟩
  | io a =>
    simp only [step] at hs
    split at hs
    · obtain ⟨hno, hio⟩ := hi.stepIo hc hs
      refine ⟨hno, ?_, hio, hempty⟩
      cases stepIo_move hs with
      | same calls _ _ _ => rw [calls]; exact hi.calls
      | acknowledges _ _ _ calls _ _ _ => rw [calls]; exact hi.calls
      | fails calls _ _ _ => rw [calls]; exact hi.calls
    · cases hs
  | resolve =>
    simp only [step, State.resolve] at hs
    split at hs <;> cases hs
    exact ⟨hi.connected, hi.calls, hi.io, hempty⟩

/-! ## Slots that leak -/

/-- A client comes to be connected, and a call registered; its packet cannot be encoded. -/
def leak (topic : Str) (payload : Bytes) (retain : Bool) : List Action :=
  ([.loop, .connect true, .sendConnect true, .readConnack [0, 0], .setConnected] : List IoAction).map .io ++
    ([.begin (.publish topic payload 1 retain), .check, .register 1, .encode] : List CallAction).map (.call 0)

theorem leaks (hp : payload.length ≤ maxPayload) (hf : ¬ Fits topic) (hmax : c.maxInflight ≠ 0) {pkt : Bytes} (hc : encodeConnect c = .ok pkt) :
    ∃ s o, run (step c) start (leak topic payload retain) = some s ∧ s.calls 0 = .ended (.publish topic payload 1 retain) o ∧
      (1, 0) ∈ s.inflight.entries := by
  have herr : ∃ e, encodePublish topic payload 1 1 retain = .error e := by
    cases he : encodePublish topic payload 1 1 retain with
    | error e => exact ⟨e, rfl⟩
    | ok pkt => exact absurd ((encodePublish_ok_iff (by decide)).mp ⟨pkt, he⟩) hf
  obtain ⟨e, he⟩ := herr
  have hpos : 0 < c.maxInflight := Nat.pos_of_ne_zero hmax
  have hlen : ¬ payload.length > maxPayload := Nat.not_lt.mpr hp
  simp only [leak, start, Dict.empty, List.map_cons, List.map_nil, List.cons_append, List.nil_append, run, step, stepIo, stepCall, hc, he,
    ↓reduceIte, Bool.false_eq_true, State.writeIo, State.happens, State.begin, State.setCall, State.setWaiter, Dict.get?, Dict.add,
    Request.needsPid, Request.packet, hlen, hpos, List.getD_eq_getElem?_getD, List.length_cons, List.length_nil, zero_add, Nat.reduceAdd,
    Nat.lt_add_one, getElem?_pos, List.getElem_cons_succ, List.getElem_cons_zero, Option.getD_some, gt_iff_lt, ne_eq, one_ne_zero,
    not_false_eq_true, not_true_eq_false, and_false, Std.le_refl, Nat.reduceLeDiff, and_self, and_true, Option.bind_some,
    Function.update_self, decide_true, List.find?_nil, Option.map_none, ↓reduceDIte, Option.some.injEq]
  exact ⟨_, _, rfl, rfl, List.mem_singleton.mpr rfl⟩

/-- **Every call gives back its slot, however it ends**, exactly where its topic
goes into a packet, or the client takes no slots or is never connected. -/
theorem released_iff (hp : payload.length ≤ maxPayload) :
    (∀ as s t o, run (step c) start as = some s → s.calls t = .ended (.publish topic payload 1 retain) o →
      ∀ pid, (pid, t) ∉ s.inflight.entries) ↔ Fits topic ∨ c.maxInflight = 0 ∨ ∀ pkt, encodeConnect c ≠ .ok pkt := by
  constructor
  · intro h
    by_contra hno
    simp only [not_or, not_forall, not_not] at hno
    obtain ⟨hf, hmax, pkt, hc⟩ := hno
    obtain ⟨s, o, hr, hover, hm⟩ := @leaks c topic payload retain hp hf hmax pkt hc
    exact h _ s 0 o hr hover 1 hm
  · intro h as s t o hr hover pid hm
    obtain hf | hmax | hc := h
    · exact released hr hover hf hm
    · have he : s.inflight.entries = [] := by
        refine run_invariant' (I := fun s : State => s.inflight.entries = []) (fun u a u' he hs => ?_) rfl hr
        exact step_empty he (fun hpos => absurd hmax (Nat.ne_of_gt hpos)) hs
      rw [he] at hm
      cases hm
    · have hi : Offline s := run_invariant' (step_offline hc) start_offline hr
      rw [hi.empty] at hm
      cases hm

theorem released_iff_topic : Fits [0x74] ∧ ∀ as s t o, run (step camera) start as = some s →
    s.calls t = .ended (.publish [0x74] [0x31] 1 false) o → ∀ pid, (pid, t) ∉ s.inflight.entries :=
  ⟨by decide, (@released_iff camera [0x74] [0x31] false (by decide)).mpr (.inl (by decide))⟩

/-- A topic of 65536 letters. -/
def longTopic : Str := List.replicate 65536 ⟨0x61, by decide⟩

theorem not_released : ∃ s o, run (step camera) start (leak longTopic [] false) = some s ∧
    s.calls 0 = .ended (.publish longTopic [] 1 false) o ∧ (1, 0) ∈ s.inflight.entries := by
  have hf : ¬ Fits longTopic := by
    rintro ⟨-, hlen⟩
    rw [longTopic, List.map_replicate, List.sum_replicate_nat] at hlen
    exact absurd hlen (by decide)
  obtain ⟨pkt, hpkt⟩ : ∃ pkt, encodeConnect camera = .ok pkt := ⟨_, rfl⟩
  exact leaks (by decide) hf (by decide) hpkt

end RetailVision.MqttClient
