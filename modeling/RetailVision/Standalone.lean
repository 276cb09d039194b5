/-
`run_standalone` of `vb/src/out/standalone.cpp`, and what becomes of the
events that the pool emits meanwhile: the streams are added one after the
other, and the pool works on a stream once it is added, but the writer is
started after the last of them. An event gets lost where `push_event` returns
without queueing it, before the start or on the way out
(`events_passed_iff`).

Left out: what `on_record` does with a record, the status records, which do
not go through the writer, and what makes an analyzer fire.
-/
import RetailVision.WriterDelivery
import RetailVision.Wire

set_option linter.all false

namespace RetailVision.Standalone

open Lib Wire

/-- What `emit_events` is given of a stream, a frame and an event. -/
structure Emission where
  index : Nat
  seq : Nat
  wallMs : F64
  analyzerName : String
  type : String
  trackId : Nat
  fieldsJson : String

/-- A pass of the loop of `emit_events`, up to the `push_event`. -/
def eventRecord (nl : Nlohmann) (dump : Json → Bytes) (e : Emission) : Bytes :=
  let fields := match nl.parse (utf8 e.fieldsJson) with
    | .ok fields => fields
    | .error _ => .str e.fieldsJson
  let j : Json := .obj [("stream_index", .int e.index), ("seq", .int e.seq), ("wall_ms", .float e.wallMs),
    ("analyzer", .str e.analyzerName), ("type", .str e.type), ("track_id", .int e.trackId), ("fields", fields)]
  wireEncodeJsonRecord magicEvent (dump j) []

/-- Where `run_standalone` is. -/
inductive Phase
  /-- about to add a stream, or to look what has been added -/
  | adding (i : Nat)
  /-- no stream could be added -/
  | gaveUp
  | serving
  /-- in `rt.stop()` -/
  | stopping
  /-- the pool and the other threads are joined -/
  | joined
  | returned

/-- The threads that push are there. -/
def Phase.alive : Phase → Bool
  | .adding _ | .serving | .stopping => true
  | _ => false

structure State (π : Type) where
  phase : Phase
  /-- the indices of the streams that the pool works on -/
  streams : List Nat
  writer : Writer.State π Bytes

def start (π : Type) : State π := { phase := .adding 0, streams := [], writer := Writer.initial π Bytes }

inductive Act (π : Type)
  /-- the next stream is added; its source opens, or not -/
  | add (ok : Bool)
  | giveUp
  | startWriter
  /-- a context thread emits an event -/
  | emit (p : π) (e : Emission)
  /-- a reply, a state or the statistics -/
  | control (p : π) (jsonBody : Bytes)
  | frame (p : π) (bytes : Bytes)
  | wake (p : π)
  | pop
  | deliver
  | leave
  /-- a signal ends the loop, and `rt.stop()` requests the writer's stop -/
  | signal
  | join
  | stopWriter

variable {π : Type}

/-- `Writer writer`: a writer with its defaults. -/
def writerConfig : Writer.WriterConfig := {}

section

variable (nl : Nlohmann) (dump : Json → Bytes)

/-- What an action is to the writer. -/
def Act.toWriter : Act π → Option (Writer.Act π Bytes)
  | .add _ | .join => none
  | .giveUp | .signal => some .requestStop
  | .startWriter => some .start
  | .emit p e => some (.pushEvent p (eventRecord nl dump e))
  | .control p jsonBody => some (.pushEvent p (wireEncodeJsonRecord magicControl jsonBody []))
  | .frame p bytes => some (.pushFrame p bytes)
  | .wake p => some (.wake p)
  | .pop => some .pop
  | .deliver => some .deliver
  | .leave => some .leave
  | .stopWriter => some .stop

/-- What an action is to `run_standalone`, `n` being the number of configured
streams, where it can happen. -/
def moved (n : Nat) (s : State π) : Act π → Option (State π)
  | .add ok => match s.phase with
    | .adding i =>
      if i < n then some { s with phase := .adding (i + 1), streams := if ok then s.streams ++ [i] else s.streams }
      else none
    | _ => none
  | .giveUp => match s.phase with
    | .adding i => if i = n ∧ s.streams = [] then some { s with phase := .gaveUp } else none
    | _ => none
  | .startWriter => match s.phase with
    | .adding i => if i = n ∧ s.streams ≠ [] then some { s with phase := .serving } else none
    | _ => none
  | .emit _ e => if s.phase.alive ∧ e.index ∈ s.streams then some s else none
  | .control _ _ | .frame _ _ => if s.phase.alive then some s else none
  | .wake _ | .pop | .deliver | .leave => some s
  | .signal => match s.phase with
    | .serving => some { s with phase := .stopping }
    | _ => none
  | .join => match s.phase with
    | .stopping => if s.writer.parked.isEmpty then some { s with phase := .joined } else none
    | _ => none
  | .stopWriter => match s.phase with
    | .joined => some { s with phase := .returned }
    | _ => none

def step [DecidableEq π] (n : Nat) (s : State π) (a : Act π) : Option (State π) :=
  (moved n s a).bind fun t => match a.toWriter nl dump with
    | none => some t
    | some w => (Writer.step writerConfig s.writer w).map fun writer => { t with writer := writer }

/-- A record of an analyzer's event. -/
def isEvent (bytes : Bytes) : Bool := decide (bytes.take 4 = magicEvent)

/-- What has happened. -/
structure Log where
  /-- the events that the pool has passed to `push_event` -/
  emitted : List Bytes
  /-- those it returned for without having queued them -/
  lost : List Bytes
  /-- since the writer was started -/
  writer : Writer.History Bytes

def Log.empty : Log := ⟨[], [], .empty Bytes⟩

def Log.comesTo (l : Log) (o : Writer.Outcome) (bytes : Bytes) : Log :=
  { l with lost := if o = .ignored then l.lost ++ [bytes].filter isEvent else l.lost }

def recordWriter [DecidableEq π] (s : State π) (a : Act π) (h : Writer.History Bytes) : Writer.History Bytes :=
  match s.phase with
  | .adding _ => h
  | _ => match a.toWriter nl dump with
    | none => h
    | some w => Writer.record writerConfig s.writer w h

def record [DecidableEq π] (s : State π) (a : Act π) (l : Log) : Log :=
  let l := { l with writer := recordWriter nl dump s a l.writer }
  match a with
  | .emit p e =>
    let bytes := eventRecord nl dump e
    { l with emitted := l.emitted ++ [bytes] }.comesTo (Writer.pushEvent writerConfig p bytes s.writer).1 bytes
  | .wake p => match Writer.wake writerConfig p s.writer with
    | none => l
    | some (o, bytes, _) => l.comesTo o bytes
  | _ => l

end

/-- The events among the records that `on_record` has been passed. -/
def Log.passed (l : Log) : List Bytes := (Writer.events l.writer.delivered).filter isEvent

/-- Every event that was emitted has been passed to `on_record`, once. -/
def Log.AllPassed (l : Log) : Prop := l.passed.Perm l.emitted

/-- The writer is running where an event is emitted, and is not being stopped
where a context thread has waited with one. -/
def Queues [DecidableEq π] (s : State π) : Act π → Prop
  | .emit _ _ => s.writer.running = true
  | .wake p => s.writer.stopping = true → ∀ x ∈ s.writer.parked.find? (·.1 = p), isEvent x.2 = false
  | _ => True

/-! ## What becomes of an event -/

variable {s s' : State π} {l : Log} {emitted entered lost : List Bytes} {parked l₁ l₂ : List (π × Bytes)} {p : π}
  {bytes : Bytes} {x : π × Bytes}

/-- What has been emitted has been queued, or lost, or a context thread waits with it. -/
def Sent (emitted entered lost : List Bytes) (parked : List (π × Bytes)) : Prop :=
  emitted.Perm (entered.filter isEvent ++ (lost ++ (parked.map (·.2)).filter isEvent))

theorem sent_iff : Sent emitted entered lost parked ↔ ∀ b, emitted.count b =
    (entered.filter isEvent).count b + lost.count b + ((parked.map (·.2)).filter isEvent).count b := by
  rw [Sent, List.perm_iff_count]
  refine forall_congr' fun b => ?_
  rw [List.count_append, List.count_append, Nat.add_assoc]

theorem filter_event (he : isEvent bytes = true) : [bytes].filter isEvent = [bytes] := List.filter_cons_of_pos he

theorem filter_other (he : isEvent bytes = false) : [bytes].filter isEvent = [] := List.filter_cons_of_neg (by simp [he])

/-- An event is lost, or queued, or waits. -/
theorem Sent.lose (h : Sent emitted entered lost parked) :
    Sent (emitted ++ [bytes].filter isEvent) entered (lost ++ [bytes].filter isEvent) parked := by
  rw [sent_iff] at h ⊢
  intro b
  have hb := h b
  rw [List.count_append, List.count_append]
  omega

theorem Sent.queue (h : Sent emitted entered lost parked) :
    Sent (emitted ++ [bytes].filter isEvent) (entered ++ [bytes]) lost parked := by
  rw [sent_iff] at h ⊢
  intro b
  have hb := h b
  rw [List.filter_append, List.count_append, List.count_append]
  omega

theorem Sent.park (h : Sent emitted entered lost parked) :
    Sent (emitted ++ [bytes].filter isEvent) entered lost (parked ++ [(p, bytes)]) := by
  rw [sent_iff] at h ⊢
  intro b
  have hb := h b
  have hsplit : (parked ++ [(p, bytes)]).map (·.2) = parked.map (·.2) ++ [bytes] := List.map_append
  rw [hsplit, List.filter_append, List.count_append, List.count_append]
  omega

/-- A producer no longer waits. -/
theorem count_parked [DecidableEq π] (hfind : parked.find? (·.1 = p) = some x) (b : Bytes) :
    ((parked.map (·.2)).filter isEvent).count b = ([x.2].filter isEvent).count b +
      (((parked.eraseP (·.1 = p)).map (·.2)).filter isEvent).count b := by
  obtain ⟨l₁, l₂, rfl, herase, -, -⟩ := Writer.find_eraseP hfind
  have hsplit : (l₁ ++ x :: l₂).map (·.2) = l₁.map (·.2) ++ ([x.2] ++ l₂.map (·.2)) := by
    rw [List.map_append, List.map_cons, List.singleton_append]
  rw [herase, hsplit, List.map_append, List.filter_append, List.filter_append, List.filter_append, List.count_append,
    List.count_append, List.count_append]
  omega

theorem Sent.wake_lose [DecidableEq π] (h : Sent emitted entered lost parked) (hfind : parked.find? (·.1 = p) = some x) :
    Sent emitted entered (lost ++ [x.2].filter isEvent) (parked.eraseP (·.1 = p)) := by
  rw [sent_iff] at h ⊢
  intro b
  have hb := h b
  have hparked := count_parked hfind b
  rw [List.count_append]
  omega

theorem Sent.wake_queue [DecidableEq π] (h : Sent emitted entered lost parked) (hfind : parked.find? (·.1 = p) = some x) :
    Sent emitted (entered ++ [x.2]) lost (parked.eraseP (·.1 = p)) := by
  rw [sent_iff] at h ⊢
  intro b
  have hb := h b
  have hparked := count_parked hfind b
  rw [List.filter_append, List.count_append]
  omega

variable {cfg : Writer.WriterConfig} {w w' : Writer.State π Bytes} {o : Writer.Outcome}

theorem Sent.push (h : Sent emitted entered lost w.parked) : Sent (emitted ++ [bytes].filter isEvent)
    (if (Writer.pushEvent cfg p bytes w).1 = .queued then entered ++ [bytes] else entered)
    (if (Writer.pushEvent cfg p bytes w).1 = .ignored then lost ++ [bytes].filter isEvent else lost)
    (Writer.pushEvent cfg p bytes w).2.parked := by
  by_cases hrun : w.running = true
  · by_cases hfull : cfg.eventBackpressureLimit ≤ w.eventsQueued
    · rw [Writer.pushEvent_parked hrun hfull]
      exact h.park
    · rw [Writer.pushEvent_queued hrun (Nat.not_le.mp hfull)]
      exact h.queue
  · rw [Writer.pushEvent_ignored (by simpa using hrun)]
    exact h.lose

theorem Sent.wake [DecidableEq π] (h : Sent emitted entered lost w.parked)
    (hw : Writer.wake cfg p w = some (o, bytes, w')) : Sent emitted (if o = .queued then entered ++ [bytes] else entered)
      (if o = .ignored then lost ++ [bytes].filter isEvent else lost) w'.parked := by
  obtain ⟨x, hfind, rfl, ⟨-, rfl, rfl⟩ | ⟨-, -, rfl, rfl⟩⟩ := Writer.wake_eq_some hw
  · exact h.wake_lose hfind
  · exact h.wake_queue hfind

/-! ## Runs -/

def Phase.started : Phase → Bool
  | .serving | .stopping | .joined | .returned => true
  | _ => false

structure Inv (s : State π) (l : Log) : Prop where
  /-- before its start the writer is as it was made -/
  adding : ∀ i, s.phase = .adding i → s.writer = Writer.initial π Bytes ∧ l.writer = .empty Bytes
  started : s.phase.started = true → Writer.Inv writerConfig s.writer l.writer
  gone : s.phase = .joined ∨ s.phase = .returned → s.writer.parked = []
  ended : s.phase = .returned → s.writer.running = false
  sent : s.phase ≠ .gaveUp → Sent l.emitted l.writer.entered l.lost s.writer.parked

variable {nl : Nlohmann} {dump : Json → Bytes} {n : Nat} {e : Emission}

theorem take_jsonRecord {magic jsonBody : Bytes} (hmagic : magic.length = 4) :
    (wireEncodeJsonRecord magic jsonBody []).take 4 = magic := by
  rw [wireEncodeJsonRecord, putHeader, putU32, List.nil_append, List.append_assoc]
  exact List.take_left' hmagic

theorem isEvent_eventRecord : isEvent (eventRecord nl dump e) = true :=
  decide_eq_true (take_jsonRecord (by decide))

theorem isEvent_control {jsonBody : Bytes} : isEvent (wireEncodeJsonRecord magicControl jsonBody []) = false := by
  rw [isEvent, take_jsonRecord (by decide)]
  decide

variable {a : Act π}

/-- What there is to say of a step of `run_standalone`. -/
def Moves (s t : State π) : Act π → Prop
  | .add ok => ∃ i, s.phase = .adding i ∧
    t = { s with phase := .adding (i + 1), streams := if ok then s.streams ++ [i] else s.streams }
  | .giveUp => t = { s with phase := .gaveUp }
  | .startWriter => ∃ i, s.phase = .adding i ∧ t = { s with phase := .serving }
  | .emit _ _ | .control _ _ | .frame _ _ => s.phase.alive = true ∧ t = s
  | .wake _ | .pop | .deliver | .leave => t = s
  | .signal => s.phase = .serving ∧ t = { s with phase := .stopping }
  | .join => s.phase = .stopping ∧ s.writer.parked = [] ∧ t = { s with phase := .joined }
  | .stopWriter => s.phase = .joined ∧ t = { s with phase := .returned }

theorem moves_of_moved {t : State π} (h : moved n s a = some t) : Moves s t a := by
  cases a with
  | add ok =>
    rw [moved] at h
    split at h
    next i hphase =>
      split at h
      · cases h
        exact ⟨i, hphase, rfl⟩
      · cases h
    · cases h
  | giveUp =>
    rw [moved] at h
    split at h
    · split at h
      · cases h
        rfl
      · cases h
    · cases h
  | startWriter =>
    rw [moved] at h
    split at h
    next i hphase =>
      split at h
      · cases h
        exact ⟨i, hphase, rfl⟩
      · cases h
    · cases h
  | emit p e =>
    rw [moved] at h
    split at h
    next halive =>
      cases h
      exact ⟨halive.1, rfl⟩
    · cases h
  | control | frame =>
    rw [moved] at h
    split at h
    next halive =>
      cases h
      exact ⟨halive, rfl⟩
    · cases h
  | wake | pop | deliver | leave =>
    cases h
    rfl
  | signal =>
    rw [moved] at h
    split at h
    next hphase =>
      cases h
      exact ⟨hphase, rfl⟩
    · cases h
  | join =>
    rw [moved] at h
    split at h
    next hphase =>
      split at h
      next hparked =>
        cases h
        exact ⟨hphase, List.isEmpty_iff.mp hparked, rfl⟩
      · cases h
    · cases h
  | stopWriter =>
    rw [moved] at h
    split at h
    next hphase =>
      cases h
      exact ⟨hphase, rfl⟩
    · cases h

theorem alive_cases {phase : Phase} (h : phase.alive = true) : (∃ i, phase = .adding i) ∨ phase.started = true := by
  cases phase with
  | adding i => exact .inl ⟨i, rfl⟩
  | serving | stopping => exact .inr rfl
  | gaveUp | joined | returned => cases h

variable [DecidableEq π]

theorem step_eq_some : step nl dump n s a = some s' ↔ ∃ t, moved n s a = some t ∧
    ((a.toWriter nl dump = none ∧ t = s') ∨ ∃ w writer, a.toWriter nl dump = some w ∧
      Writer.step writerConfig s.writer w = some writer ∧ s' = { t with writer := writer }) := by
  unfold step
  rw [Option.bind_eq_some_iff]
  refine exists_congr fun t => and_congr_right fun _ => ?_
  cases hw : a.toWriter nl dump with
  | none => simp
  | some w => simp [eq_comm]

variable {wa : Writer.Act π Bytes} {h : Writer.History Bytes}

theorem recordWriter_adding {i : Nat} (hphase : s.phase = .adding i) : recordWriter nl dump s a h = h := by
  rw [recordWriter, hphase]

theorem recordWriter_none (hw : a.toWriter nl dump = none) : recordWriter nl dump s a h = h := by
  rw [recordWriter, hw]
  split
  · rfl
  · rfl

theorem recordWriter_started (hphase : s.phase.started = true) (hw : a.toWriter nl dump = some wa) :
    recordWriter nl dump s a h = Writer.record writerConfig s.writer wa h := by
  rw [recordWriter, hw]
  split
  next heq =>
    rw [heq] at hphase
    cases hphase
  · rfl

/-- A producer comes to something, of which the writer knows nothing before its start. -/
theorem Inv.entered_push (hi : Inv s l) (halive : s.phase.alive = true)
    (hw : a.toWriter nl dump = some (.pushEvent p bytes)) : (recordWriter nl dump s a l.writer).entered =
      if (Writer.pushEvent writerConfig p bytes s.writer).1 = .queued then l.writer.entered ++ [bytes]
      else l.writer.entered := by
  obtain ⟨i, hphase⟩ | hphase := alive_cases halive
  · rw [recordWriter_adding hphase, (hi.adding i hphase).1]
    rfl
  · rw [recordWriter_started hphase hw]
    rfl

/-- A push keeps the invariant, if its record is accounted for. -/
theorem Inv.pushed (hi : Inv s l) (halive : s.phase.alive = true) (hw : a.toWriter nl dump = some wa)
    (hs : Writer.step writerConfig s.writer wa = some w) (hquiet : s.writer = Writer.initial π Bytes → w = s.writer)
    (hsent : Sent emitted (recordWriter nl dump s a l.writer).entered lost w.parked) :
    Inv { s with writer := w } ⟨emitted, lost, recordWriter nl dump s a l.writer⟩ where
  adding i hphase := by
    have hold := hi.adding i hphase
    have hsame : recordWriter nl dump s a l.writer = l.writer := recordWriter_adding hphase
    exact ⟨(hquiet hold.1).trans hold.1, hsame.trans hold.2⟩
  started hphase := by
    have hinv := (hi.started hphase).step (by decide) hs
    have hrec : recordWriter nl dump s a l.writer = _ := recordWriter_started hphase hw
    exact hrec ▸ hinv
  gone hphase := by
    obtain hphase | hphase := hphase
    · have hgone : s.phase = .joined := hphase
      rw [hgone] at halive
      cases halive
    · have hgone : s.phase = .returned := hphase
      rw [hgone] at halive
      cases halive
  ended hphase := by
    have hgone : s.phase = .returned := hphase
    rw [hgone] at halive
    cases halive
  sent _ := hsent

/-- So does what happens to the writer apart from that. -/
theorem Inv.own (hi : Inv s l) (hw : a.toWriter nl dump = some wa)
    (hs : Writer.step writerConfig s.writer wa = some w) (hnew : s.writer ≠ Writer.initial π Bytes)
    (hgone : s.writer.parked = [] → w.parked = []) (hrun : s.writer.running = false → w.running = false)
    (hsent : Sent l.emitted l.writer.entered l.lost s.writer.parked →
      Sent l.emitted (Writer.record writerConfig s.writer wa l.writer).entered lost w.parked) :
    Inv { s with writer := w } ⟨l.emitted, lost, recordWriter nl dump s a l.writer⟩ where
  adding i hphase := absurd (hi.adding i hphase).1 hnew
  started hphase := by
    have hinv := (hi.started hphase).step (by decide) hs
    have hrec : recordWriter nl dump s a l.writer = _ := recordWriter_started hphase hw
    exact hrec ▸ hinv
  gone hphase := hgone (hi.gone hphase)
  ended hphase := hrun (hi.ended hphase)
  sent hphase := by
    have hst : s.phase.started = true := by
      cases hp : s.phase with
      | adding i => exact absurd (hi.adding i hp).1 hnew
      | gaveUp => exact absurd hp hphase
      | serving | stopping | joined | returned => rfl
    show Sent _ (recordWriter nl dump s a l.writer).entered _ _
    rw [recordWriter_started hst hw]
    exact hsent (hi.sent hphase)

omit [DecidableEq π] in
theorem Inv.init : Inv (start π) Log.empty where
  adding _ _ := ⟨rfl, rfl⟩
  started hphase := by cases hphase
  gone hphase := by
    obtain hphase | hphase := hphase
    · cases hphase
    · cases hphase
  ended hphase := by cases hphase
  sent _ := List.Perm.refl _

omit [DecidableEq π] in
/-- `run_standalone` goes on. -/
theorem Inv.of_phase {phase : Phase} {streams : List Nat} (hi : Inv s l)
    (hadding : ∀ i, phase = .adding i → ∃ i, s.phase = .adding i) (hstarted : phase.started = s.phase.started)
    (hgone : phase = .joined ∨ phase = .returned → s.writer.parked = []) (hended : phase = .returned → s.writer.running = false)
    (hgaveUp : s.phase ≠ .gaveUp) : Inv ⟨phase, streams, s.writer⟩ l where
  adding i hphase := by
    obtain ⟨i, hphase⟩ := hadding i hphase
    exact hi.adding i hphase
  started hphase := hi.started (hstarted ▸ hphase)
  gone := hgone
  ended := hended
  sent _ := hi.sent hgaveUp

omit [DecidableEq π] in
theorem dropOldest_parked {m : Nat} : (Writer.dropOldest cfg m w).2.parked = w.parked := by
  induction m generalizing w with
  | zero => rfl
  | succ m ih =>
    rw [Writer.dropOldest]
    split
    · split
      · rfl
      · exact ih
    · rfl

omit [DecidableEq π] in
theorem pushFrame_parked : (Writer.pushFrame cfg bytes w).2.parked = w.parked := by
  rw [Writer.pushFrame]
  split
  · exact dropOldest_parked
  · rfl

theorem Inv.event (hi : Inv s l) (halive : s.phase.alive = true)
    (hw : a.toWriter nl dump = some (.pushEvent p bytes))
    (hs : Writer.step writerConfig s.writer (.pushEvent p bytes) = some w) : Inv { s with writer := w }
      ⟨l.emitted ++ [bytes].filter isEvent,
        if (Writer.pushEvent writerConfig p bytes s.writer).1 = .ignored then l.lost ++ [bytes].filter isEvent else l.lost,
        recordWriter nl dump s a l.writer⟩ := by
  have hsent : Sent _ _ _ (Writer.pushEvent writerConfig p bytes s.writer).2.parked :=
    (hi.sent fun h => by rw [h] at halive; cases halive).push
  have hstep := hs
  rw [Writer.step] at hstep
  split at hstep
  · cases hstep
  · cases hstep
    refine hi.pushed halive hw hs (fun h => ?_) (hi.entered_push halive hw ▸ hsent)
    rw [h]
    rfl

theorem Inv.frame (hi : Inv s l) (halive : s.phase.alive = true) (hw : a.toWriter nl dump = some (.pushFrame p bytes))
    (hs : Writer.step writerConfig s.writer (.pushFrame p bytes) = some w) :
    Inv { s with writer := w } ⟨l.emitted, l.lost, recordWriter nl dump s a l.writer⟩ := by
  have hsent := hi.sent fun h => by rw [h] at halive; cases halive
  have hentered : (recordWriter nl dump s a l.writer).entered = l.writer.entered := by
    obtain ⟨i, hphase⟩ | hphase := alive_cases halive
    · rw [recordWriter_adding hphase]
    · rw [recordWriter_started hphase hw]
      rfl
  have hstep := hs
  rw [Writer.step] at hstep
  split at hstep
  · cases hstep
  · cases hstep
    refine hi.pushed halive hw hs (fun h => ?_) ?_
    · rw [h]
      rfl
    · rw [hentered, pushFrame_parked]
      exact hsent

theorem Inv.wake (hi : Inv s l) (hw : a.toWriter nl dump = some (.wake p)) {o : Writer.Outcome}
    (hs : Writer.wake writerConfig p s.writer = some (o, bytes, w)) : Inv { s with writer := w }
      ⟨l.emitted, if o = .ignored then l.lost ++ [bytes].filter isEvent else l.lost, recordWriter nl dump s a l.writer⟩ := by
  obtain ⟨x, hfind, -, hcases⟩ := Writer.wake_eq_some hs
  have hparked : s.writer.parked ≠ [] := by
    intro hnil
    rw [hnil] at hfind
    cases hfind
  have hstep : Writer.step writerConfig s.writer (.wake p) = some w := by
    rw [Writer.step, hs]
    rfl
  have hentered : (Writer.record writerConfig s.writer (.wake p) l.writer).entered =
      if o = .queued then l.writer.entered ++ [bytes] else l.writer.entered := by
    rw [Writer.record, hs]
    rfl
  refine hi.own hw hstep (fun h => hparked (by rw [h]; rfl)) (fun h => absurd h hparked) (fun hrun => ?_) fun hsent => ?_
  · obtain ⟨-, -, rfl⟩ | ⟨-, -, -, rfl⟩ := hcases
    · exact hrun
    · exact hrun
  · rw [hentered]
    exact hsent.wake hs

/-- What neither queues an event nor lets a producer go on. -/
theorem Inv.quiet (hi : Inv s l) (hw : a.toWriter nl dump = some wa)
    (hs : Writer.step writerConfig s.writer wa = some w) (hnew : s.writer ≠ Writer.initial π Bytes)
    (hparked : w.parked = s.writer.parked) (hrun : s.writer.running = false → w.running = false)
    (hentered : (Writer.record writerConfig s.writer wa l.writer).entered = l.writer.entered) :
    Inv { s with writer := w } { l with writer := recordWriter nl dump s a l.writer } :=
  hi.own hw hs hnew (fun h => hparked.trans h) hrun fun hsent => by rwa [hentered, hparked]

theorem Inv.step (hi : Inv s l) (hs : step nl dump n s a = some s') : Inv s' (record nl dump s a l) := by
  have hnew : s.phase.started = true → s.writer ≠ Writer.initial π Bytes := fun hst heq =>
    (hi.started hst).started (by rw [heq]; rfl)
  obtain ⟨t, hmoved, ⟨hw, rfl⟩ | ⟨wa, w, hw, hwriter, rfl⟩⟩ := step_eq_some.mp hs
  · have hsame : recordWriter nl dump s a l.writer = l.writer := recordWriter_none hw
    have hspec := moves_of_moved hmoved
    cases a with
    | add ok =>
      obtain ⟨i, hphase, rfl⟩ := hspec
      have hlog : record nl dump s (.add ok) l = l := congrArg (Log.mk l.emitted l.lost) hsame
      rw [hlog]
      exact hi.of_phase (fun _ _ => ⟨i, hphase⟩) (by rw [hphase]; rfl) (fun h => by simp at h) (fun h => by cases h)
        (fun h => by rw [hphase] at h; cases h)
    | join =>
      obtain ⟨hphase, hparked, rfl⟩ := hspec
      have hlog : record nl dump s .join l = l := congrArg (Log.mk l.emitted l.lost) hsame
      rw [hlog]
      exact hi.of_phase (fun _ h => by cases h) (by rw [hphase]; rfl) (fun _ => hparked) (fun h => by cases h)
        (fun h => by rw [hphase] at h; cases h)
    | giveUp | startWriter | emit | control | frame | wake | pop | deliver | leave | signal | stopWriter => cases hw
  · have hspec := moves_of_moved hmoved
    clear hs hmoved
    cases a with
    | add | join => cases hw
    | giveUp =>
      subst hspec
      exact {
        adding := fun _ h => by cases h
        started := fun h => by cases h
        gone := fun h => by simp at h
        ended := fun h => by cases h
        sent := fun h => absurd rfl h }
    | startWriter =>
      obtain ⟨i, hphase, rfl⟩ := hspec
      obtain ⟨hinitial, hempty⟩ := hi.adding i hphase
      have hsent := hi.sent fun h => by rw [hphase] at h; cases h
      have hsame : recordWriter nl dump s .startWriter l.writer = l.writer := recordWriter_adding hphase
      have hlog : record nl dump s .startWriter l = l := congrArg (Log.mk l.emitted l.lost) hsame
      obtain rfl : w = Writer.afterStart π Bytes := by
        cases hw
        rw [hinitial] at hwriter
        exact (Option.some.inj hwriter).symm
      rw [hlog]
      rw [hinitial] at hsent
      exact {
        adding := fun _ h => by cases h
        started := fun _ => hempty ▸ Writer.Inv.init
        gone := fun h => by simp at h
        ended := fun h => by cases h
        sent := fun _ => hsent }
    | emit p e =>
      obtain ⟨halive, rfl⟩ := hspec
      cases hw
      have hinv : Inv { t with writer := w } ⟨_, _, recordWriter nl dump t (.emit p e) l.writer⟩ :=
        hi.event halive rfl hwriter
      rwa [filter_event isEvent_eventRecord] at hinv
    | control p jsonBody =>
      obtain ⟨halive, rfl⟩ := hspec
      cases hw
      have hinv : Inv { t with writer := w } ⟨_, _, recordWriter nl dump t (.control p jsonBody) l.writer⟩ :=
        hi.event halive rfl hwriter
      rwa [filter_other isEvent_control, List.append_nil, List.append_nil, ite_self] at hinv
    | frame p bytes =>
      obtain ⟨halive, rfl⟩ := hspec
      cases hw
      exact hi.frame halive rfl hwriter
    | wake p =>
      subst hspec
      cases hw
      obtain ⟨⟨o, bytes, w⟩, hwake, rfl⟩ := Option.map_eq_some_iff.mp hwriter
      have hlog : record nl dump t (.wake p) l = ⟨l.emitted, if o = .ignored then l.lost ++ [bytes].filter isEvent
          else l.lost, recordWriter nl dump t (.wake p) l.writer⟩ := by
        rw [record, hwake]
        rfl
      rw [hlog]
      exact hi.wake rfl hwake
    | pop =>
      subst hspec
      cases hw
      obtain ⟨hthread, e, q, hq, rfl⟩ := Writer.pop_eq_some hwriter
      exact hi.quiet rfl hwriter (fun h => by rw [h] at hthread; cases hthread) rfl id rfl
    | deliver =>
      subst hspec
      cases hw
      obtain ⟨e, hthread, rfl⟩ := Writer.deliver_eq_some hwriter
      refine hi.quiet rfl hwriter (fun h => by rw [h] at hthread; cases hthread) rfl id ?_
      rw [Writer.record, hthread]
    | leave =>
      subst hspec
      cases hw
      obtain ⟨hthread, -, -, rfl⟩ := Writer.leave_eq_some hwriter
      exact hi.quiet rfl hwriter (fun h => by rw [h] at hthread; cases hthread) rfl id rfl
    | signal =>
      obtain ⟨hphase, rfl⟩ := hspec
      cases hw
      obtain rfl : Writer.requestStop s.writer = w := Option.some.inj hwriter
      have hinv : Inv { s with writer := Writer.requestStop s.writer }
          { l with writer := recordWriter nl dump s .signal l.writer } :=
        hi.quiet rfl hwriter (hnew (by rw [hphase]; rfl)) rfl id rfl
      exact hinv.of_phase (fun _ h => by cases h) (by rw [hphase]; rfl) (fun h => by simp at h) (fun h => by cases h)
        (fun h => by rw [hphase] at h; cases h)
    | stopWriter =>
      obtain ⟨hphase, rfl⟩ := hspec
      cases hw
      obtain ⟨-, -, rfl⟩ := Writer.stop_eq_some hwriter
      have hinv : Inv { s with writer := { s.writer with q := [], running := false } }
          { l with writer := recordWriter nl dump s .stopWriter l.writer } :=
        hi.quiet rfl hwriter (hnew (by rw [hphase]; rfl)) rfl (fun _ => rfl) rfl
      exact hinv.of_phase (fun _ h => by cases h) (by rw [hphase]; rfl) (fun _ => hi.gone (.inl hphase)) (fun _ => rfl)
        (fun h => by rw [hphase] at h; cases h)

/-! ## The events that are passed on -/

theorem inv_of_run {as : List (Act π)}
    (hr : run (traced (step nl dump n) (record nl dump)) (start π, Log.empty) as = some (s, l)) : Inv s l := by
  refine run_invariant' (I := fun sl => Inv sl.1 sl.2) (fun sl a sl' hi hs => ?_) Inv.init hr
  obtain ⟨s, l⟩ := sl
  obtain ⟨s', l'⟩ := sl'
  obtain ⟨ht, rfl⟩ := traced_eq_some.mp hs
  exact hi.step ht

omit [DecidableEq π] in
/-- At the end, what has been emitted has been passed on, or is lost. -/
theorem Inv.passed (hi : Inv s l) (hdone : s.phase = .returned) : l.emitted.Perm (l.passed ++ l.lost) := by
  have hsent := hi.sent fun h => by rw [hdone] at h; cases h
  have hwriter := (hi.started (by rw [hdone]; rfl)).delivery.stopped (hi.ended hdone)
  rw [Sent, hi.gone (.inr hdone), ← hwriter] at hsent
  simpa [Log.passed] using hsent

/-- An event is lost in a step that does not meet the condition. -/
theorem lost_nil_iff (hs : step nl dump n s a = some s') :
    (record nl dump s a l).lost = [] ↔ l.lost = [] ∧ Queues s a := by
  cases a with
  | emit p e =>
    by_cases hrun : s.writer.running = true
    · have hnot : (Writer.pushEvent writerConfig p (eventRecord nl dump e) s.writer).1 ≠ .ignored := by
        by_cases hfull : writerConfig.eventBackpressureLimit ≤ s.writer.eventsQueued
        · rw [Writer.pushEvent_parked hrun hfull]
          exact fun h => by cases h
        · rw [Writer.pushEvent_queued hrun (by omega)]
          exact fun h => by cases h
      have hlost : (record nl dump s (.emit p e) l).lost = l.lost := if_neg hnot
      rw [hlost]
      exact ⟨fun h => ⟨h, hrun⟩, fun h => h.1⟩
    · have hlost : (record nl dump s (.emit p e) l).lost = l.lost ++ [eventRecord nl dump e].filter isEvent := by
        refine if_pos ?_
        rw [Writer.pushEvent_ignored (by simpa using hrun)]
      rw [hlost, filter_event isEvent_eventRecord]
      exact iff_of_false (by simp) fun h => hrun h.2
  | wake p =>
    obtain ⟨t, -, ⟨hw, -⟩ | ⟨wa, w, hw, hwriter, -⟩⟩ := step_eq_some.mp hs
    · cases hw
    · cases hw
      obtain ⟨⟨o, bytes, w⟩, hwake, rfl⟩ := Option.map_eq_some_iff.mp hwriter
      have hlost : (record nl dump s (.wake p) l).lost =
          if o = .ignored then l.lost ++ [bytes].filter isEvent else l.lost := by
        rw [record, hwake]
        rfl
      obtain ⟨x, hfind, rfl, ⟨hstop, rfl, -⟩ | ⟨hstop, -, rfl, -⟩⟩ := Writer.wake_eq_some hwake
      · have hqueues : Queues s (.wake p) ↔ isEvent x.2 = false := by
          rw [Queues, hfind, hstop]
          simp
        rw [hlost, if_pos rfl, hqueues, List.append_eq_nil_iff]
        simp
      · have hqueues : Queues s (.wake p) := fun h => by
          rw [hstop] at h
          cases h
        rw [hlost, if_neg (fun h => by cases h)]
        exact ⟨fun h => ⟨h, hqueues⟩, fun h => h.1⟩
  | add | giveUp | startWriter | control | frame | pop | deliver | leave | signal | join | stopWriter =>
    exact ⟨fun h => ⟨h, trivial⟩, fun h => h.1⟩

theorem lost_nil_iff_meets {as : List (Act π)} {l' : Log}
    (hr : run (traced (step nl dump n) (record nl dump)) (s, l) as = some (s', l')) :
    l'.lost = [] ↔ l.lost = [] ∧ Meets (step nl dump n) Queues s as := by
  induction as generalizing s l with
  | nil =>
    cases hr
    exact ⟨fun h => ⟨h, trivial⟩, fun h => h.1⟩
  | cons a as ih =>
    obtain ⟨⟨t, l₁⟩, hs, hr⟩ := run_cons.mp hr
    obtain ⟨ht, rfl⟩ := traced_eq_some.mp hs
    rw [ih hr, lost_nil_iff ht, meets_cons_some ht, and_assoc]

/-- **Every event comes to `on_record`, if and only if** none was emitted
before the writer was started, and the stop found no context thread waiting
with one. -/
theorem events_passed_iff (nl : Nlohmann) (dump : Json → Bytes) (n : Nat) {as : List (Act π)}
    (hr : run (traced (step nl dump n) (record nl dump)) (start π, Log.empty) as = some (s, l))
    (hdone : s.phase = .returned) : l.AllPassed ↔ Meets (step nl dump n) Queues (start π) as := by
  have hperm := (inv_of_run hr).passed hdone
  have hlost : l.AllPassed ↔ l.lost = [] := by
    constructor
    · intro hall
      have hlength := (hall.trans hperm).length_eq
      rw [List.length_append] at hlength
      exact List.eq_nil_of_length_eq_zero (by omega)
    · intro hnil
      rw [hnil, List.append_nil] at hperm
      exact hperm.symm
  have hmeets := lost_nil_iff_meets hr
  rw [hlost, hmeets]
  exact ⟨fun h => h.2, fun h => ⟨rfl, h⟩⟩

/-- An event without fields. -/
def crossing : Emission where
  index := 0
  seq := 1
  wallMs := .fin 0
  analyzerName := "line_cross"
  type := "cross"
  trackId := 1
  fieldsJson := "\x7b\x7d"

def crossingParser : Nlohmann := ⟨fun _ => .ok (.obj []), fun _ => ""⟩

def crossingText (_ : Json) : Bytes :=
  utf8 "\x7b\"analyzer\":\"line_cross\",\"fields\":\x7b\x7d,\"seq\":1,\"stream_index\":0,\"track_id\":1,\"type\":\"cross\",\"wall_ms\":0.0\x7d"

/-- The event comes to stand in the queue. -/
def late : List (Act Nat) :=
  [.add true, .startWriter, .emit 0 crossing, .pop, .deliver, .signal, .leave, .join, .stopWriter]

theorem events_passed_iff_late : ∃ s l, run (traced (step crossingParser crossingText 1) (record crossingParser crossingText))
    (start Nat, Log.empty) late = some (s, l) ∧ l.emitted ≠ [] ∧
      (l.AllPassed ↔ Meets (step crossingParser crossingText 1) Queues (start Nat) late) :=
  ⟨_, _, rfl, by decide, @events_passed_iff Nat _ _ _ crossingParser crossingText 1 late rfl rfl⟩

/-- The event of the first stream comes while the second is being added. -/
def early : List (Act Nat) :=
  [.add true, .emit 0 crossing, .add true, .startWriter, .signal, .leave, .join, .stopWriter]

theorem early_event_lost : ¬ ∀ (nl : Nlohmann) (dump : Json → Bytes) (n : Nat) (as : List (Act Nat)) (s : State Nat) (l : Log),
    run (traced (step nl dump n) (record nl dump)) (start Nat, Log.empty) as = some (s, l) → s.phase = .returned →
      l.AllPassed := by
  intro hall
  have hpassed := hall crossingParser crossingText 2 early _ _ rfl rfl
  exact absurd hpassed.length_eq (by decide)

end RetailVision.Standalone
