/-
A writer that has been started: every event that a producer has handed over
before the stop is requested comes to the sink, once and in the order of the
queue; of the frames, those that are not given to the sink are the oldest of
the queue at the moment it is full (`writer_delivery`).

What has been given to the sink, what it is being given and what is queued,
one after the other, is `given`: only a push changes it. The invariant says of
it what the claims about the sink say at the end.
-/
import RetailVision.Writer

set_option linter.all false

namespace RetailVision.Writer

open Lib

variable {π ρ : Type} {cfg : WriterConfig} {s s' : State π ρ} {h : History ρ} {q : List (Entry ρ)} {bytes : ρ}

/-! ## Making room -/

/-- The first of its kind, taken out of a list. -/
theorem find_eraseP {α : Type} {p : α → Bool} {l : List α} {x : α} (hx : l.find? p = some x) :
    ∃ l₁ l₂, l = l₁ ++ x :: l₂ ∧ l.eraseP p = l₁ ++ l₂ ∧ p x = true ∧ ∀ y ∈ l₁, p y = false := by
  obtain ⟨hp, l₁, l₂, rfl, hnone⟩ := List.find?_eq_some_iff_append.mp hx
  have hl₁ : ∀ y ∈ l₁, p y = false := fun y hy => by simpa using hnone y hy
  refine ⟨l₁, l₂, rfl, ?_, hp, hl₁⟩
  rw [List.eraseP_append_right _ fun y hy => by simp [hl₁ y hy], List.eraseP_cons_of_pos hp]

theorem frames_eq_nil (hq : ∀ e ∈ q, e.isFrame = false) : frames q = [] :=
  List.filterMap_eq_nil_iff.mpr fun e he => by simp [Entry.frame, hq e he]

/-- The loop of `push_frame` takes the oldest frames, and no event, and goes
on until there is room. -/
theorem dropOldest_eq (hpos : 1 ≤ cfg.frameQueue) {n : Nat} (hn : s.q.length ≤ n)
    (hcount : s.framesQueued = (frames s.q).length) : ∃ d q, dropOldest cfg n s =
      (d, { s with q := q, framesQueued := (frames q).length, framesDropped := s.framesDropped + d.length }) ∧
      frames s.q = d ++ frames q ∧ events s.q = events q ∧ (frames q).length < cfg.frameQueue := by
  induction n generalizing s with
  | zero =>
    have hnil : s.q = [] := List.eq_nil_of_length_eq_zero (by omega)
    refine ⟨[], s.q, ?_, rfl, rfl, ?_⟩
    · rw [dropOldest, ← hcount]
      rfl
    · rw [hnil]
      exact hpos
  | succ n ih =>
    by_cases hfull : cfg.frameQueue ≤ s.framesQueued
    · obtain ⟨e, he⟩ : ∃ e, s.q.find? (·.isFrame) = some e := by
        refine Option.isSome_iff_exists.mp (List.find?_isSome.mpr ?_)
        by_contra hnone
        have hnil : frames s.q = [] := frames_eq_nil fun e he => by
          by_contra hframe
          exact hnone ⟨e, he, by simpa using hframe⟩
        rw [hnil, List.length_nil] at hcount
        omega
      obtain ⟨l₁, l₂, hq, herase, hframe, hl₁⟩ := find_eraseP he
      obtain ⟨isFrame, bytes⟩ := e
      cases hframe
      have hfirst : frames s.q = bytes :: frames (l₁ ++ l₂) := by
        rw [hq, frames_append, frames_append, frames_eq_nil hl₁]
        rfl
      have hevents : events s.q = events (l₁ ++ l₂) := by
        rw [hq, events_append, events_append]
        rfl
      rw [dropOldest, if_pos hfull, he]
      dsimp only
      rw [herase]
      obtain ⟨d, q, hdrop, hframes, hsame, hroom⟩ := @ih
        { s with q := l₁ ++ l₂, framesQueued := s.framesQueued - 1, framesDropped := s.framesDropped + 1 }
        (by rw [hq, List.length_append, List.length_cons] at hn
            show (l₁ ++ l₂).length ≤ n
            rw [List.length_append]
            omega)
        (by show s.framesQueued - 1 = _
            rw [hcount, hfirst, List.length_cons, Nat.add_sub_cancel])
      refine ⟨bytes :: d, q, ?_, ?_, hevents.trans hsame, hroom⟩
      · rw [hdrop]
        simp only [List.length_cons, Nat.add_assoc, Nat.add_comm 1]
      · rw [hfirst, List.cons_append, ← hframes]
    · refine ⟨[], s.q, ?_, rfl, rfl, by omega⟩
      rw [dropOldest, if_neg hfull, ← hcount]
      rfl

theorem pushFrame_eq (bytes : ρ) (hpos : 1 ≤ cfg.frameQueue) (hrun : s.running = true)
    (hcount : s.framesQueued = (frames s.q).length) : ∃ d q, pushFrame cfg bytes s =
      (d, { s with
        q := q ++ [⟨true, bytes⟩]
        framesQueued := (frames q).length + 1
        framesDropped := s.framesDropped + d.length }) ∧
      frames s.q = d ++ frames q ∧ events s.q = events q ∧ (frames q).length < cfg.frameQueue := by
  obtain ⟨d, q, hdrop, hrest⟩ := dropOldest_eq hpos (Nat.le_refl s.q.length) hcount
  refine ⟨d, q, ?_, hrest⟩
  unfold pushFrame
  rw [if_pos hrun, hdrop]

theorem pushFrame_stopped (hrun : s.running = false) : pushFrame cfg bytes s = ([], s) :=
  if_neg (by simp [hrun])

/-! ## The invariant -/

/-- What has been given to the sink, what it is being given, and what is queued. -/
def given (s : State π ρ) (h : History ρ) : List (Entry ρ) := h.delivered ++ (s.thread.held ++ s.q)

structure Inv (cfg : WriterConfig) (s : State π ρ) (h : History ρ) : Prop where
  started : s.thread ≠ .notStarted
  /-- after `stop` there is nothing left -/
  stopped : s.running = false → s.q = [] ∧ s.thread = .exited
  exited : s.thread = .exited → s.stopping = true
  framesQueued : s.running = true → s.framesQueued = (frames s.q).length
  eventsQueued : s.running = true → s.eventsQueued = (events s.q).length
  framesBound : (frames s.q).length ≤ cfg.frameQueue
  eventsBound : (events s.q).length ≤ cfg.eventBackpressureLimit
  framesDropped : s.framesDropped = h.dropped.length
  order : (frames (given s h)).Sublist h.pushed
  conserved : s.running = true → h.pushed.Perm (h.dropped ++ frames (given s h))
  entered : events (given s h) = h.entered
  returned : h.returned <+: h.entered
  /-- before the stop is requested -/
  before : s.stopping = false → h.returned = h.entered

variable {p : π} {o : Outcome}

theorem Inv.stopping (hi : Inv cfg s h) (hrun : s.running = false) : s.stopping = true :=
  hi.exited (hi.stopped hrun).2

theorem Inv.pushFrame (hpos : 1 ≤ cfg.frameQueue) (hi : Inv cfg s h) : Inv cfg (pushFrame cfg bytes s).2
    { h with pushed := h.pushed ++ [bytes], dropped := h.dropped ++ (pushFrame cfg bytes s).1 } := by
  cases hrun : s.running with
  | false =>
    rw [pushFrame_stopped hrun, List.append_nil]
    exact { hi with
      order := hi.order.trans (List.sublist_append_left _ _)
      conserved := fun hrun' => by rw [hrun] at hrun'; cases hrun' }
  | true =>
    obtain ⟨d, q, hpush, hframes, hevents, hroom⟩ := pushFrame_eq bytes hpos hrun (hi.framesQueued hrun)
    have hold := hi.order
    have hperm := hi.conserved hrun
    have hentered := hi.entered
    rw [given, frames_append, frames_append, hframes] at hold hperm
    rw [given, events_append, events_append, hevents] at hentered
    rw [hpush]
    refine { hi with
      stopped := fun hrun' => by rw [hrun] at hrun'; cases hrun'
      framesQueued := fun _ => by simp
      eventsQueued := fun _ => by rw [hi.eventsQueued hrun, hevents]; simp
      framesBound := by simpa using Nat.succ_le_of_lt hroom
      eventsBound := by simpa [← hevents] using hi.eventsBound
      framesDropped := by simp [hi.framesDropped]
      order := ?_
      conserved := fun _ => ?_
      entered := by simpa [given] using hentered }
    · have hkept : (frames h.delivered ++ (frames s.thread.held ++ frames q)).Sublist h.pushed := by
        refine List.Sublist.trans ?_ hold
        exact List.Sublist.append_left (List.Sublist.append_left (List.sublist_append_right d _) _) _
      simpa [given] using hkept.append (List.Sublist.refl [bytes])
    · have hmove : (h.dropped ++ (frames h.delivered ++ (frames s.thread.held ++ (d ++ frames q)))).Perm
          (h.dropped ++ d ++ (frames h.delivered ++ (frames s.thread.held ++ frames q))) := by
        have hswap : (frames h.delivered ++ (frames s.thread.held ++ (d ++ frames q))).Perm
            (d ++ (frames h.delivered ++ (frames s.thread.held ++ frames q))) := by
          have h₁ : (frames h.delivered ++ frames s.thread.held ++ d ++ frames q).Perm
              (d ++ (frames h.delivered ++ frames s.thread.held) ++ frames q) := List.perm_append_comm.append_right _
          simpa only [List.append_assoc] using h₁
        simpa only [List.append_assoc] using hswap.append_left h.dropped
      simpa [given] using (hperm.trans hmove).append_right [bytes]

@[simp] theorem comesTo_pushed {stopping : Bool} : (h.comesTo stopping o bytes).pushed = h.pushed := rfl
@[simp] theorem comesTo_dropped {stopping : Bool} : (h.comesTo stopping o bytes).dropped = h.dropped := rfl
@[simp] theorem comesTo_delivered {stopping : Bool} : (h.comesTo stopping o bytes).delivered = h.delivered := rfl

theorem comesTo_parked {stopping : Bool} : h.comesTo stopping .parked bytes = h := by simp [History.comesTo]

theorem comesTo_ignored {stopping : Bool} (hstop : stopping = true) : h.comesTo stopping .ignored bytes = h := by
  simp [History.comesTo, hstop]

theorem pushEvent_ignored (hrun : s.running = false) : pushEvent cfg p bytes s = (.ignored, s) := if_pos (by simp [hrun])

theorem pushEvent_parked (hrun : s.running = true) (hfull : cfg.eventBackpressureLimit ≤ s.eventsQueued) :
    pushEvent cfg p bytes s =
      (.parked, { s with eventBackpressure := s.eventBackpressure + 1, parked := s.parked ++ [(p, bytes)] }) := by
  unfold pushEvent
  rw [if_neg (by simp [hrun]), if_pos hfull]

theorem pushEvent_queued (hrun : s.running = true) (hroom : s.eventsQueued < cfg.eventBackpressureLimit) :
    pushEvent cfg p bytes s = (.queued, queueEvent bytes s) := by
  unfold pushEvent
  rw [if_neg (by simp [hrun]), if_neg (by omega)]

/-- A record comes to stand in the queue. -/
theorem Inv.queueEvent (hi : Inv cfg s h) (hrun : s.running = true) (hroom : s.eventsQueued < cfg.eventBackpressureLimit) :
    Inv cfg (queueEvent bytes s) (h.comesTo s.stopping .queued bytes) := by
  have hcount := hi.eventsQueued hrun
  have hentered := hi.entered
  rw [given, events_append, events_append] at hentered
  refine { hi with
    stopped := fun hrun' => by rw [Writer.queueEvent, hrun] at hrun'; cases hrun'
    framesQueued := fun _ => by simpa [Writer.queueEvent] using hi.framesQueued hrun
    eventsQueued := fun _ => by simp [Writer.queueEvent, hcount]
    framesBound := by simpa [Writer.queueEvent] using hi.framesBound
    eventsBound := by
      rw [hcount] at hroom
      simpa [Writer.queueEvent] using Nat.succ_le_of_lt hroom
    order := by simpa [given, Writer.queueEvent] using hi.order
    conserved := fun _ => by simpa [given, Writer.queueEvent] using hi.conserved hrun
    entered := by simp [given, Writer.queueEvent, History.comesTo, ← hentered]
    returned := ?_
    before := fun hstop => ?_ }
  · cases hstop : s.stopping with
    | false => simp [History.comesTo, hi.before hstop]
    | true => simpa [History.comesTo] using hi.returned.trans (List.prefix_append _ _)
  · have hsame : s.stopping = false := hstop
    simp [History.comesTo, hsame, hi.before hsame]

theorem Inv.pushEvent (hi : Inv cfg s h) : Inv cfg (pushEvent cfg p bytes s).2
    (h.comesTo s.stopping (pushEvent cfg p bytes s).1 bytes) := by
  by_cases hrun : s.running = true
  · by_cases hfull : cfg.eventBackpressureLimit ≤ s.eventsQueued
    · rw [pushEvent_parked hrun hfull, comesTo_parked]
      exact { hi with }
    · rw [pushEvent_queued hrun (by omega)]
      exact hi.queueEvent hrun (by omega)
  · have hstopped : s.running = false := by simpa using hrun
    rw [pushEvent_ignored hstopped, comesTo_ignored (hi.stopping hstopped)]
    exact hi

section

variable [DecidableEq π]

/-- What a producer that wakes up comes to. -/
theorem wake_eq_some (hw : wake cfg p s = some (o, bytes, s')) : ∃ x, s.parked.find? (·.1 = p) = some x ∧ bytes = x.2 ∧
    ((s.stopping = true ∧ o = .ignored ∧ s' = { s with parked := s.parked.eraseP (·.1 = p) }) ∨
      (s.stopping = false ∧ s.eventsQueued < cfg.eventBackpressureLimit ∧ o = .queued ∧
        s' = queueEvent bytes { s with parked := s.parked.eraseP (·.1 = p) })) := by
  unfold wake at hw
  split at hw
  · cases hw
  next p' b hfind =>
    refine ⟨(p', b), hfind, ?_⟩
    cases hstop : s.stopping with
    | true =>
      simp only [hstop, Bool.true_or, if_true] at hw
      cases hw
      exact ⟨rfl, .inl ⟨rfl, rfl, rfl⟩⟩
    | false =>
      simp only [hstop, Bool.false_or, decide_eq_true_eq, Bool.false_eq_true, if_false] at hw
      split at hw
      next hroom =>
        cases hw
        exact ⟨rfl, .inr ⟨rfl, hroom, rfl, rfl⟩⟩
      · cases hw

theorem Inv.wake (hi : Inv cfg s h) (hw : wake cfg p s = some (o, bytes, s')) :
    Inv cfg s' (h.comesTo s.stopping o bytes) := by
  obtain ⟨x, -, -, ⟨hstop, rfl, rfl⟩ | ⟨hstop, hroom, rfl, rfl⟩⟩ := wake_eq_some hw
  · rw [comesTo_ignored hstop]
    exact { hi with }
  · have hrun : s.running = true := by
      by_contra hrun
      rw [hi.stopping (by simpa using hrun)] at hstop
      cases hstop
    have hparked : Inv cfg { s with parked := s.parked.eraseP (·.1 = p) } h := { hi with }
    exact hparked.queueEvent hrun hroom

end

/-! ## The thread -/

theorem pop_eq_some (hp : pop s = some s') : s.thread = .waiting ∧ ∃ e q, s.q = e :: q ∧ s' = { s with
    q := q
    framesQueued := if e.isFrame then s.framesQueued - 1 else s.framesQueued
    eventsQueued := if e.isFrame then s.eventsQueued else s.eventsQueued - 1
    thread := .delivering e } := by
  unfold pop at hp
  split at hp
  next e q hthread hq =>
    refine ⟨hthread, e, q, hq, ?_⟩
    cases hframe : e.isFrame with
    | true =>
      simp only [hframe, if_true] at hp
      cases hp
      rfl
    | false =>
      simp only [hframe, Bool.false_eq_true, if_false] at hp
      cases hp
      rfl
  · cases hp

theorem deliver_eq_some (hd : deliver s = some s') : ∃ e, s.thread = .delivering e ∧ s' = { s with thread := .waiting } := by
  unfold deliver at hd
  split at hd
  next e hthread =>
    cases hd
    exact ⟨e, hthread, rfl⟩
  · cases hd

theorem leave_eq_some (hl : leave s = some s') :
    s.thread = .waiting ∧ s.q = [] ∧ s.stopping = true ∧ s' = { s with thread := .exited } := by
  unfold leave at hl
  split at hl
  next hthread hq =>
    split at hl
    next hstop =>
      cases hl
      exact ⟨hthread, hq, hstop, rfl⟩
    · cases hl
  · cases hl

theorem stop_eq_some (hs : stop s = some s') : (s.thread = .notStarted ∨ s.thread = .exited) ∧ s.stopping = true ∧
    s' = { s with q := [], running := false } := by
  unfold stop at hs
  split at hs
  next hthread =>
    split at hs
    next hstop =>
      cases hs
      exact ⟨.inl hthread, hstop, rfl⟩
    · cases hs
  next hthread =>
    split at hs
    next hstop =>
      cases hs
      exact ⟨.inr hthread, hstop, rfl⟩
    · cases hs
  · cases hs

theorem Inv.pop (hi : Inv cfg s h) (hp : pop s = some s') : Inv cfg s' h := by
  obtain ⟨hthread, e, q, hq, rfl⟩ := pop_eq_some hp
  obtain ⟨isFrame, bytes⟩ := e
  have hrun : s.running = true := by
    by_contra hrun
    rw [(hi.stopped (by simpa using hrun)).2] at hthread
    cases hthread
  have hframes := hi.framesQueued hrun
  have hevents := hi.eventsQueued hrun
  have hframesBound := hi.framesBound
  have heventsBound := hi.eventsBound
  have hgiven : given { s with
      q := q
      framesQueued := if isFrame then s.framesQueued - 1 else s.framesQueued
      eventsQueued := if isFrame then s.eventsQueued else s.eventsQueued - 1
      thread := .delivering ⟨isFrame, bytes⟩ } h = given s h := by
    rw [given, given, hthread, hq]
    rfl
  rw [hq] at hframes hevents hframesBound heventsBound
  refine { hi with
    started := fun hthread' => by cases hthread'
    stopped := fun hrun' => absurd hrun' (by simp [hrun])
    exited := fun hthread' => by cases hthread'
    framesQueued := fun _ => ?_
    eventsQueued := fun _ => ?_
    framesBound := ?_
    eventsBound := ?_
    order := hgiven ▸ hi.order
    conserved := hgiven ▸ hi.conserved
    entered := hgiven ▸ hi.entered }
  all_goals
    cases isFrame with
    | true =>
      simp at hframes hevents hframesBound heventsBound ⊢
      omega
    | false =>
      simp at hframes hevents hframesBound heventsBound ⊢
      omega

theorem Inv.deliver {e : Entry ρ} (hi : Inv cfg s h) (hthread : s.thread = .delivering e) :
    Inv cfg { s with thread := .waiting } { h with delivered := h.delivered ++ [e] } := by
  have hgiven : given { s with thread := .waiting } { h with delivered := h.delivered ++ [e] } = given s h := by
    rw [given, given, hthread]
    exact List.append_assoc _ _ _
  exact { hi with
    started := fun hthread' => by cases hthread'
    stopped := fun hrun => by
      have hexited := (hi.stopped hrun).2
      rw [hthread] at hexited
      cases hexited
    exited := fun hthread' => by cases hthread'
    order := hgiven ▸ hi.order
    conserved := hgiven ▸ hi.conserved
    entered := hgiven ▸ hi.entered }

theorem Inv.leave (hi : Inv cfg s h) (hl : leave s = some s') : Inv cfg s' h := by
  obtain ⟨hthread, hq, hstop, rfl⟩ := leave_eq_some hl
  have hgiven : given { s with thread := .exited } h = given s h := by
    rw [given, given, hthread]
    rfl
  exact { hi with
    started := fun hthread' => by cases hthread'
    stopped := fun hrun => ⟨(hi.stopped hrun).1, rfl⟩
    exited := fun _ => hstop
    order := hgiven ▸ hi.order
    conserved := hgiven ▸ hi.conserved
    entered := hgiven ▸ hi.entered }

theorem Inv.stop (hi : Inv cfg s h) (hs : stop s = some s') : Inv cfg s' { h with delivered := h.delivered ++ s.q } := by
  obtain ⟨hthread, hstop, rfl⟩ := stop_eq_some hs
  have hexited : s.thread = .exited := hthread.resolve_left hi.started
  have hgiven : given { s with q := [], running := false } { h with delivered := h.delivered ++ s.q } = given s h := by
    rw [given, given, hexited]
    exact List.append_nil _
  exact { hi with
    stopped := fun _ => ⟨rfl, hexited⟩
    framesQueued := fun hrun => by cases hrun
    eventsQueued := fun hrun => by cases hrun
    framesBound := Nat.zero_le _
    eventsBound := Nat.zero_le _
    order := hgiven ▸ hi.order
    conserved := fun hrun => by cases hrun
    entered := hgiven ▸ hi.entered }

/-! ## What it means for the sink -/

/-- What a writer has come to, at any moment after `start`. -/
structure Delivery (cfg : WriterConfig) (s : State π ρ) (h : History ρ) : Prop where
  /-- while the thread runs, the counters are the numbers in the queue -/
  counters : s.thread ≠ .exited → s.framesQueued = (frames s.q).length ∧ s.eventsQueued = (events s.q).length
  framesBound : (frames s.q).length ≤ cfg.frameQueue
  eventsBound : (events s.q).length ≤ cfg.eventBackpressureLimit
  /-- before the stop is requested, every frame is accounted for -/
  frameCount : s.stopping = false → h.pushed.length =
    (frames h.delivered).length + s.framesDropped + (frames s.q).length + (frames s.thread.held).length
  frameOrder : (frames h.delivered).Sublist h.pushed
  /-- events come to the sink as they came to stand in the queue -/
  eventOrder : events h.delivered <+: h.entered
  /-- those whose `push_event` had returned before the stop was requested are among them -/
  returned : h.returned <+: h.entered
  /-- when `stop` has returned, all of them have come to the sink -/
  stopped : s.running = false → events h.delivered = h.entered

theorem Inv.delivery (hi : Inv cfg s h) : Delivery cfg s h := by
  have hentered := hi.entered
  have horder := hi.order
  rw [given, events_append] at hentered
  rw [given, frames_append] at horder
  refine ⟨fun hthread => ?_, hi.framesBound, hi.eventsBound, fun hstop => ?_, (List.sublist_append_left _ _).trans horder,
    ⟨_, hentered⟩, hi.returned, fun hrun => ?_⟩
  · have hrun : s.running = true := by
      by_contra hrun
      exact hthread (hi.stopped (by simpa using hrun)).2
    exact ⟨hi.framesQueued hrun, hi.eventsQueued hrun⟩
  · have hrun : s.running = true := by
      by_contra hrun
      rw [hi.stopping (by simpa using hrun)] at hstop
      cases hstop
    have hcount := (hi.conserved hrun).length_eq
    rw [given, frames_append, frames_append, List.length_append, List.length_append, List.length_append,
      ← hi.framesDropped] at hcount
    omega
  · obtain ⟨hq, hexited⟩ := hi.stopped hrun
    rw [hq, hexited] at hentered
    simpa [Thread.held] using hentered

/-! ## Runs -/

variable [DecidableEq π] {a : Act π ρ}

theorem Inv.step (hpos : 1 ≤ cfg.frameQueue) (hi : Inv cfg s h) (hs : step cfg s a = some s') :
    Inv cfg s' (record cfg s a h) := by
  cases a with
  | start =>
    have hstarted := hi.started
    rw [Writer.step] at hs
    split at hs
    next hthread => exact absurd hthread hstarted
    · cases hs
  | requestStop =>
    cases hs
    exact { hi with
      exited := fun _ => rfl
      before := fun hstop => by cases hstop }
  | pushFrame p bytes =>
    rw [Writer.step] at hs
    split at hs
    · cases hs
    · cases hs
      exact hi.pushFrame hpos
  | pushEvent p bytes =>
    rw [Writer.step] at hs
    split at hs
    · cases hs
    · cases hs
      exact hi.pushEvent
  | wake p =>
    obtain ⟨⟨o, bytes, t⟩, hw, rfl⟩ := Option.map_eq_some_iff.mp hs
    rw [record, hw]
    exact hi.wake hw
  | pop => exact hi.pop hs
  | deliver =>
    obtain ⟨e, hthread, rfl⟩ := deliver_eq_some hs
    rw [record, hthread]
    exact hi.deliver hthread
  | leave => exact hi.leave hs
  | stop => exact hi.stop hs

def afterStart (π ρ : Type) : State π ρ := start (initial π ρ)

omit [DecidableEq π] in
theorem Inv.init : Inv cfg (afterStart π ρ) (History.empty ρ) where
  started h := by cases h
  stopped h := by cases h
  exited h := by cases h
  framesQueued _ := rfl
  eventsQueued _ := rfl
  framesBound := Nat.zero_le _
  eventsBound := Nat.zero_le _
  framesDropped := rfl
  order := List.Sublist.refl _
  conserved _ := List.Perm.refl _
  entered := rfl
  returned := List.prefix_rfl
  before _ := rfl

/-- The invariant holds after every run of a writer that has been started. -/
theorem inv_of_run (hpos : 1 ≤ cfg.frameQueue) {as : List (Act π ρ)}
    (hr : run (traced (step cfg) (record cfg)) (afterStart π ρ, History.empty ρ) as = some (s, h)) : Inv cfg s h := by
  refine run_invariant' (I := fun sh => Inv cfg sh.1 sh.2) (fun sh a sh' hi hs => ?_) Inv.init hr
  obtain ⟨s, h⟩ := sh
  obtain ⟨s', h'⟩ := sh'
  obtain ⟨ht, rfl⟩ := traced_eq_some.mp hs
  exact hi.step hpos ht

/-- **What is dropped is the oldest of what is queued**, and makes room for a new frame. -/
theorem Inv.oldest (hpos : 1 ≤ cfg.frameQueue) (hi : Inv cfg s h) (hs : Writer.step cfg s a = some s') :
    ∃ d kept, (record cfg s a h).dropped = h.dropped ++ d ∧ frames s.q = d ++ kept ∧
      (d ≠ [] → ∃ bytes, frames s'.q = kept ++ [bytes]) := by
  have hnone : (record cfg s a h).dropped = h.dropped → ∃ d kept, (record cfg s a h).dropped = h.dropped ++ d ∧
      frames s.q = d ++ kept ∧ (d ≠ [] → ∃ bytes, frames s'.q = kept ++ [bytes]) := fun hsame =>
    ⟨[], frames s.q, by rw [hsame, List.append_nil], rfl, fun hd => absurd rfl hd⟩
  cases a with
  | pushFrame p bytes =>
    rw [Writer.step] at hs
    split at hs
    · cases hs
    · cases hs
      by_cases hrun : s.running = true
      · obtain ⟨d, q, hpush, hframes, -, -⟩ := pushFrame_eq bytes hpos hrun (hi.framesQueued hrun)
        refine ⟨d, frames q, ?_, hframes, fun _ => ⟨bytes, ?_⟩⟩
        · rw [record, hpush]
        · rw [hpush]
          exact frames_append
      · refine hnone ?_
        rw [record, pushFrame_stopped (by simpa using hrun)]
        exact List.append_nil _
  | wake p =>
    refine hnone ?_
    rw [record]
    split
    · rfl
    · rfl
  | deliver =>
    refine hnone ?_
    rw [record]
    split
    · rfl
    · rfl
  | start | requestStop | pushEvent | pop | leave | stop => exact hnone rfl

/-- An action of the writer's own, or of the caller of `stop`. -/
def Act.isOwn : Act π ρ → Bool
  | .pop | .deliver | .leave | .stop => true
  | _ => false

/-- A stop that has been requested can be completed, whatever the producers do. -/
def Completes (cfg : WriterConfig) (s : State π ρ) : Prop :=
  ∃ as : List (Act π ρ), (∀ a ∈ as, a.isOwn = true) ∧ ∃ s', run (step cfg) s as = some s' ∧ s'.running = false

theorem Completes.of_step (ha : a.isOwn = true) (hs : Writer.step cfg s a = some s') (hc : Completes cfg s') :
    Completes cfg s := by
  obtain ⟨as, has, t, hr, ht⟩ := hc
  exact ⟨a :: as, List.forall_mem_cons.mpr ⟨ha, has⟩, t, run_cons.mpr ⟨s', hs, hr⟩, ht⟩

theorem completes_of_exited (hthread : s.thread = .exited) (hstop : s.stopping = true) : Completes cfg s := by
  have hs : Writer.step cfg s .stop = some { s with q := [], running := false } := by
    rw [Writer.step, Writer.stop, hthread]
    exact if_pos hstop
  exact ⟨[.stop], by simp [Act.isOwn], _, run_cons.mpr ⟨_, hs, rfl⟩, rfl⟩

/-- The thread gives the queue to the sink, one record after the other, and leaves. -/
theorem completes_of_waiting (hthread : s.thread = .waiting) (hstop : s.stopping = true) : Completes cfg s := by
  induction hq : s.q generalizing s with
  | nil =>
    have hs : Writer.step cfg s .leave = some { s with thread := .exited } := by
      rw [Writer.step, Writer.leave, hthread, hq]
      exact if_pos hstop
    have hexited : Completes cfg { s with thread := .exited } := completes_of_exited rfl hstop
    exact hexited.of_step rfl hs
  | cons e q ih =>
    obtain ⟨t, ht, hnext, hstopping, hrest⟩ : ∃ t, Writer.step cfg s .pop = some t ∧ t.thread = .delivering e ∧
        t.stopping = true ∧ t.q = q := by
      rw [Writer.step, Writer.pop, hthread, hq]
      dsimp only
      split
      · exact ⟨_, rfl, rfl, hstop, rfl⟩
      · exact ⟨_, rfl, rfl, hstop, rfl⟩
    have hdeliver : Writer.step cfg t .deliver = some { t with thread := .waiting } := by
      rw [Writer.step, Writer.deliver, hnext]
    have hwaiting : Completes cfg { t with thread := .waiting } := ih rfl hstopping hrest
    exact (hwaiting.of_step rfl hdeliver).of_step rfl ht

theorem Inv.completes (hi : Inv cfg s h) (hstop : s.stopping = true) : Completes cfg s := by
  cases hthread : s.thread with
  | notStarted => exact absurd hthread hi.started
  | waiting => exact completes_of_waiting hthread hstop
  | delivering e =>
    have hdeliver : Writer.step cfg s .deliver = some { s with thread := .waiting } := by
      rw [Writer.step, Writer.deliver, hthread]
    have hwaiting : Completes cfg { s with thread := .waiting } := completes_of_waiting rfl hstop
    exact hwaiting.of_step rfl hdeliver
  | exited => exact completes_of_exited hthread hstop

/-- **A started writer loses no event and drops the oldest frames.** After any
run of producers, thread, `request_stop` and `stop`; and a stop that has been
requested can be completed. -/
theorem writer_delivery (hpos : 1 ≤ cfg.frameQueue) {as : List (Act π ρ)}
    (hr : run (traced (step cfg) (record cfg)) (afterStart π ρ, History.empty ρ) as = some (s, h)) :
    Delivery cfg s h ∧
      (∀ a s', step cfg s a = some s' → ∃ d kept, (record cfg s a h).dropped = h.dropped ++ d ∧
        frames s.q = d ++ kept ∧ (d ≠ [] → ∃ bytes, frames s'.q = kept ++ [bytes])) ∧
      (s.stopping = true → Completes cfg s) := by
  have hi := inv_of_run hpos hr
  exact ⟨hi.delivery, fun _ _ hs => hi.oldest hpos hs, hi.completes⟩

/-- A frame makes room for another, a producer waits, and the writer stops. -/
def overflow : List (Act Nat Nat) :=
  [.pushFrame 0 1, .pushEvent 0 2, .pushEvent 1 3, .pushFrame 0 4, .pop, .wake 1, .deliver, .pop, .requestStop, .deliver,
    .pop, .deliver, .leave, .stop]

theorem writer_delivery_overflow : ∃ s h, run (traced (step ⟨1, 1⟩) (record ⟨1, 1⟩))
    (afterStart Nat Nat, History.empty Nat) overflow = some (s, h) ∧
    h.dropped = [1] ∧ h.returned = [2, 3] ∧ events h.delivered = h.entered :=
  ⟨_, _, rfl, rfl, rfl, (@writer_delivery Nat Nat ⟨1, 1⟩ _ _ _ (by decide) overflow rfl).1.stopped rfl⟩

end RetailVision.Writer
