/-
The socket between the native runtime and its host: the writer of
`vb/src/writer.cpp`, whose sink in `main.cpp` is `write_all_fd` of
`vb/src/runtime.cpp`, and `_read_loop` of `vision_base/runtime_client.py` at the
other end.

A `send` takes any number of the bytes it is given, and fails for good where it
fails; the flush window of the stop elapses at any moment after the stop has
been requested, also between the check of it and the `send`. What is sent
arrives in order, cut anywhere. Whatever is given up, the host dispatches the
first of the records that the writer has given out, each whole and once
(`host_dispatches`): after a record that is torn, not a byte is sent.

Left out: a host that closes the connection, and the time before there is one,
which `--listen` has and `--ipc-fd` has not.
-/
import RetailVision.RuntimeReader
import RetailVision.WriterDelivery

set_option linter.all false

namespace RetailVision.HostLink

open Lib Wire
open Writer (WriterConfig Entry History events frames)
open RuntimeReader (Record Client dispatch readChunk readLoop readRecord)

/-- A record whose length can be written in its header. -/
structure Sendable where
  record : Record
  small : record.bytes.length < 8 + 2 ^ 32

def Sendable.bytes (r : Sendable) : Bytes := r.record.bytes

structure State (π σ : Type) where
  writer : Writer.State π Sendable
  /-- what is left to write of the records that the sink has been given -/
  sink : List Bytes
  /-- `write_all_fd` has found that it is not to give up, and comes to `send` -/
  armed : Bool
  /-- `flush_expired` -/
  expired : Bool
  /-- a `send` has failed -/
  broken : Bool
  /-- sent and not yet received -/
  wire : Bytes
  reader : RuntimeReader.State σ

inductive Act (π : Type)
  | writer (a : Writer.Act π Sendable)
  | expire
  | check
  | send (n : Nat)
  | retry
  | fail
  | written
  | receive (n : Nat)

variable {π σ : Type} [DecidableEq π]

section

variable (cfg : WriterConfig) (c : Client σ)

/-- The records in the sink are those that `run` gives it, and those that
`stop` drains. -/
def writerStep (s : State π σ) (a : Writer.Act π Sendable) : Option (State π σ) :=
  (Writer.step cfg s.writer a).bind fun w => match a with
    | .pop => some { s with writer := w, sink := w.thread.held.map (·.bytes.bytes) }
    | .deliver => if s.sink = [] then some { s with writer := w } else none
    | .stop => if s.sink = [] then some { s with writer := w, sink := s.writer.q.map (·.bytes.bytes) } else none
    | _ => some { s with writer := w }

/-- `write_all_fd` on the first of the records in the sink, and what is around
it. `retry` is a `send` that was interrupted or has timed out. -/
def step (s : State π σ) : Act π → Option (State π σ)
  | .writer a => writerStep cfg s a
  | .expire => if s.writer.stopping then some { s with expired := true } else none
  | .check => match s.sink with
    | (_ :: _) :: rest =>
      if s.armed then none
      else if s.expired then some { s with sink := rest }
      else some { s with armed := true }
    | _ => none
  | .send n => match s.sink with
    | data :: rest =>
      if s.armed ∧ s.broken = false ∧ 0 < n ∧ n ≤ data.length then
        some { s with armed := false, sink := data.drop n :: rest, wire := s.wire ++ data.take n }
      else none
    | [] => none
  | .retry => if s.armed then some { s with armed := false } else none
  | .fail => if s.armed then some { s with armed := false, broken := true, sink := s.sink.tail } else none
  | .written => match s.sink with
    | [] :: rest => some { s with sink := rest }
    | _ => none
  | .receive n =>
    if 0 < n ∧ n ≤ s.wire.length then
      some { s with wire := s.wire.drop n, reader := readChunk c s.reader (s.wire.take n) }
    else none

def record (s : State π σ) (a : Act π) (h : History Sendable) : History Sendable :=
  match a with
  | .writer a => Writer.record cfg s.writer a h
  | _ => h

def start (π : Type) (host : σ) : State π σ where
  writer := Writer.afterStart π Sendable
  sink := []
  armed := false
  expired := false
  broken := false
  wire := []
  reader := RuntimeReader.start host

end

/-- The records that the sink has been given. -/
def givenOut (s : State π σ) (h : History Sendable) : List (Entry Sendable) := h.delivered ++ s.writer.thread.held

/-- Their bytes, as they are to stand on the wire. -/
def stream (es : List (Entry Sendable)) : Bytes := es.flatMap (·.bytes.bytes)

/-- Those of which anything is written, each as it is read. -/
def calls (es : List (Entry Sendable)) : List (Bytes × Bytes) := es.filterMap (·.bytes.record.pair)

variable {cfg : WriterConfig} {c : Client σ} {s s' : State π σ} {h : History Sendable} {host : σ}
  {es l r : List (Entry Sendable)} {a : Act π}

theorem stream_append : stream (l ++ r) = stream l ++ stream r := List.flatMap_append

theorem stream_eq_flatten (es : List (Entry Sendable)) : stream es = (es.map (·.bytes.bytes)).flatten := List.flatMap_def

/-! ## What the host makes of the first bytes of a stream -/

theorem readRecord_nil : readRecord [] = .more := rfl

/-- The bytes of a stream are those of the records of which anything is
written, each of which is read as it was written. -/
theorem stream_calls (es : List (Entry Sendable)) :
    stream es = (calls es).flatMap RuntimeReader.packed ∧
      ∀ r ∈ calls es, readRecord (RuntimeReader.packed r) = .got r [] := by
  have hsmall : ∀ r ∈ es.map (·.bytes.record), r.bytes.length < 8 + 2 ^ 32 := by
    intro r hr
    obtain ⟨e, -, rfl⟩ := List.mem_map.mp hr
    exact e.bytes.small
  have hcalls : (es.map (·.bytes.record)).filterMap Record.pair = calls es := List.filterMap_map
  obtain ⟨hbytes, hread⟩ := RuntimeReader.flatMap_bytes hsmall
  rw [hcalls] at hbytes hread
  rw [List.flatMap_map] at hbytes
  exact ⟨hbytes, hread⟩

/-- Records are read as they were written, as far as they have come. -/
theorem drain_stream {buf : Bytes} (hbuf : buf <+: stream es) :
    (drain readRecord buf).1 <+: calls es ∧ ∃ rest, (drain readRecord buf).2 = .more rest := by
  obtain ⟨hstream, hread⟩ := stream_calls es
  rw [hstream] at hbuf
  have hinit := drain_prefix RuntimeReader.readRecord_framed readRecord_nil hread hbuf
  rwa [List.map_id'] at hinit

theorem drain_whole : (drain readRecord (stream es)).1 = calls es := by
  obtain ⟨hstream, hread⟩ := stream_calls es
  have hrecords := drain_records RuntimeReader.readRecord_framed [] hread
  rw [List.append_nil, ← hstream, drain_more readRecord_nil, List.append_nil, List.map_id'] at hrecords
  rw [hrecords]

/-- Bytes that have been received, in chunks, and what they have come to. -/
def Received (c : Client σ) (host : σ) (reader : RuntimeReader.State σ) (bytes : Bytes) : Prop :=
  ∃ chunks : List Bytes, (∀ chunk ∈ chunks, chunk ≠ []) ∧ chunks.flatten = bytes ∧
    reader = readLoop c (RuntimeReader.start host) chunks

theorem readLoop_append {reader : RuntimeReader.State σ} {chunks : List Bytes} {chunk : Bytes}
    (hne : ∀ chunk ∈ chunks, chunk ≠ []) (hchunk : chunk ≠ []) :
    readLoop c reader (chunks ++ [chunk]) = readChunk c (readLoop c reader chunks) chunk := by
  induction chunks generalizing reader with
  | nil =>
    show readLoop c reader [chunk] = readChunk c reader chunk
    rw [readLoop, if_neg hchunk, readLoop]
  | cons first chunks ih =>
    obtain ⟨hfirst, hrest⟩ := List.forall_mem_cons.mp hne
    rw [List.cons_append, readLoop, readLoop, if_neg hfirst, if_neg hfirst, ih hrest]

theorem Received.nil : Received c host (RuntimeReader.start host) [] := ⟨[], by simp, rfl, rfl⟩

theorem Received.chunk {reader : RuntimeReader.State σ} {bytes chunk : Bytes} (hr : Received c host reader bytes)
    (hchunk : chunk ≠ []) : Received c host (readChunk c reader chunk) (bytes ++ chunk) := by
  obtain ⟨chunks, hne, rfl, rfl⟩ := hr
  refine ⟨chunks ++ [chunk], ?_, by simp, (readLoop_append hne hchunk).symm⟩
  simpa [or_imp, forall_and] using ⟨hne, hchunk⟩

/-- **What has come of a stream is dispatched**, in order: each record that is
there whole. -/
theorem Received.calls {reader : RuntimeReader.State σ} {bytes : Bytes} (hr : Received c host reader bytes)
    (hbytes : bytes <+: stream es) : reader.calls = (drain readRecord bytes).1 ∧ reader.calls <+: calls es ∧
      reader.host = reader.calls.foldl (fun host r => (dispatch c r.1 r.2 host).2) host := by
  obtain ⟨chunks, hne, rfl, rfl⟩ := hr
  obtain ⟨hcalls, rest, hrest⟩ := drain_stream hbytes
  have hfeeds : feeds readRecord (.more (RuntimeReader.start host).buf) chunks = drain readRecord chunks.flatten :=
    feeds_eq_drain RuntimeReader.readRecord_framed readRecord_nil chunks
  have hloop := RuntimeReader.readLoop_eq c (s := RuntimeReader.start host) hne (by rw [hfeeds]; exact hrest)
  rw [hfeeds] at hloop
  rw [hloop]
  exact ⟨List.nil_append _, by simpa [RuntimeReader.start] using hcalls, by simp [RuntimeReader.start]⟩

/-! ## The invariant -/

structure Inv (cfg : WriterConfig) (c : Client σ) (host : σ) (s : State π σ) (h : History Sendable) : Prop where
  writer : Writer.Inv cfg s.writer h
  /-- the writer's thread has come back from the sink -/
  idle : s.writer.thread = .waiting → s.sink = []
  wire : ∃ received, Received c host s.reader received ∧
    -- nothing has been given up, or nothing is sent any more
    (received ++ s.wire ++ s.sink.flatten = stream (givenOut s h) ∨
      received ++ s.wire <+: stream (givenOut s h) ∧ (s.broken = true ∨ s.expired = true ∧ s.armed = false))

/-- A step of the writer by which the sink comes to nothing new. -/
theorem writerStep_eq_some {a : Writer.Act π Sendable} (hs : writerStep cfg s a = some s') :
    ∃ w, Writer.step cfg s.writer a = some w ∧
      (a = .pop ∧ s' = { s with writer := w, sink := w.thread.held.map (·.bytes.bytes) } ∨
        a = .deliver ∧ s.sink = [] ∧ s' = { s with writer := w } ∨
        a = .stop ∧ s.sink = [] ∧ s' = { s with writer := w, sink := s.writer.q.map (·.bytes.bytes) } ∨
        (a ≠ .pop ∧ a ≠ .deliver ∧ a ≠ .stop) ∧ s' = { s with writer := w }) := by
  obtain ⟨w, hw, hs⟩ := Option.bind_eq_some_iff.mp hs
  refine ⟨w, hw, ?_⟩
  cases a with
  | pop =>
    cases hs
    exact .inl ⟨rfl, rfl⟩
  | deliver =>
    obtain ⟨hsink, hs⟩ := Option.ite_none_right_eq_some.mp hs
    cases hs
    exact .inr (.inl ⟨rfl, hsink, rfl⟩)
  | stop =>
    obtain ⟨hsink, hs⟩ := Option.ite_none_right_eq_some.mp hs
    cases hs
    exact .inr (.inr (.inl ⟨rfl, hsink, rfl⟩))
  | start | requestStop | pushFrame | pushEvent | wake | leave =>
    cases hs
    exact .inr (.inr (.inr ⟨by simp, rfl⟩))

omit [DecidableEq π] in
theorem dropOldest_thread {ρ : Type} {n : Nat} {w : Writer.State π ρ} : (Writer.dropOldest cfg n w).2.thread = w.thread := by
  induction n generalizing w with
  | zero => rfl
  | succ n ih =>
    rw [Writer.dropOldest]
    split
    · split
      · rfl
      · exact ih
    · rfl

/-- What else the writer does leaves the records that the sink has been given
as they are. -/
theorem givenOut_same {a : Writer.Act π Sendable} {w : Writer.State π Sendable} (hw : Writer.step cfg s.writer a = some w)
    (hstarted : s.writer.thread ≠ .notStarted) (hpop : a ≠ .pop) (hdeliver : a ≠ .deliver) (hstop : a ≠ .stop) :
    givenOut { s with writer := w } (Writer.record cfg s.writer a h) = givenOut s h ∧
      (w.thread = .waiting → s.writer.thread = .waiting) := by
  cases a with
  | start =>
    rw [Writer.step] at hw
    split at hw
    next hthread => exact absurd hthread hstarted
    · cases hw
  | requestStop =>
    cases hw
    exact ⟨rfl, id⟩
  | pushFrame p r =>
    rw [Writer.step] at hw
    split at hw
    · cases hw
    · cases hw
      have hthread : (Writer.pushFrame cfg r s.writer).2.thread = s.writer.thread := by
        rw [Writer.pushFrame]
        split
        · exact dropOldest_thread
        · rfl
      exact ⟨congrArg (h.delivered ++ ·.held) hthread, fun hw => hthread ▸ hw⟩
  | pushEvent p r =>
    rw [Writer.step] at hw
    split at hw
    · cases hw
    · cases hw
      have hthread : (Writer.pushEvent cfg p r s.writer).2.thread = s.writer.thread := by
        rw [Writer.pushEvent]
        split
        · rfl
        · split
          · rfl
          · rfl
      exact ⟨congrArg (h.delivered ++ ·.held) hthread, fun hw => hthread ▸ hw⟩
  | wake p =>
    obtain ⟨⟨o, r, w'⟩, hwake, rfl⟩ := Option.map_eq_some_iff.mp hw
    have hthread : w'.thread = s.writer.thread := by
      obtain ⟨x, -, -, ⟨-, -, rfl⟩ | ⟨-, -, -, rfl⟩⟩ := Writer.wake_eq_some hwake
      · rfl
      · rfl
    refine ⟨?_, fun hw => hthread ▸ hw⟩
    rw [Writer.record, hwake]
    exact congrArg (h.delivered ++ ·.held) hthread
  | leave =>
    obtain ⟨hthread, -, -, rfl⟩ := Writer.leave_eq_some hw
    refine ⟨?_, fun hw => by cases hw⟩
    show h.delivered ++ [] = h.delivered ++ s.writer.thread.held
    rw [hthread]
    rfl
  | pop => exact absurd rfl hpop
  | deliver => exact absurd rfl hdeliver
  | stop => exact absurd rfl hstop

omit [DecidableEq π] in
/-- The sink is given records when it has none left. -/
theorem stream_given (hsink : s.sink = []) {received : Bytes} (given : List (Entry Sendable))
    (hwire : received ++ s.wire ++ s.sink.flatten = stream (givenOut s h) ∨
      received ++ s.wire <+: stream (givenOut s h) ∧ (s.broken = true ∨ s.expired = true ∧ s.armed = false)) :
    received ++ s.wire ++ (given.map (·.bytes.bytes)).flatten = stream (givenOut s h ++ given) ∨
      received ++ s.wire <+: stream (givenOut s h ++ given) ∧ (s.broken = true ∨ s.expired = true ∧ s.armed = false) := by
  obtain hwhole | ⟨hinit, hover⟩ := hwire
  · rw [hsink, List.flatten_nil, List.append_nil] at hwhole
    exact .inl (by rw [hwhole, stream_append, stream_eq_flatten given])
  · refine .inr ⟨?_, hover⟩
    rw [stream_append]
    exact hinit.trans (List.prefix_append _ _)

theorem Inv.writerStep (hpos : 1 ≤ cfg.frameQueue) {a : Writer.Act π Sendable} (hi : Inv cfg c host s h)
    (hs : writerStep cfg s a = some s') : Inv cfg c host s' (Writer.record cfg s.writer a h) := by
  obtain ⟨w, hw, hcases⟩ := writerStep_eq_some hs
  have hwriter := hi.writer.step hpos hw
  obtain ⟨received, hreceived, hwire⟩ := hi.wire
  obtain ⟨rfl, rfl⟩ | ⟨rfl, hsink, rfl⟩ | ⟨rfl, hsink, rfl⟩ | ⟨⟨hpop, hdeliver, hstop⟩, rfl⟩ := hcases
  · -- the thread comes to the sink with a record
    obtain ⟨hthread, e, q, hq, rfl⟩ := Writer.pop_eq_some hw
    refine ⟨hwriter, fun hw => (by cases hw), received, hreceived, ?_⟩
    have hgiven : givenOut s h = h.delivered := by rw [givenOut, hthread]; exact List.append_nil _
    have hnext := stream_given (hi.idle hthread) [e] hwire
    rw [hgiven] at hnext
    exact hnext
  · obtain ⟨e, hthread, rfl⟩ := Writer.deliver_eq_some hw
    refine ⟨hwriter, fun _ => hsink, received, hreceived, ?_⟩
    have hgiven : givenOut s h = h.delivered ++ [e] := by rw [givenOut, hthread]; rfl
    rw [Writer.record, hthread]
    rw [hgiven] at hwire
    simpa [givenOut, Writer.Thread.held] using hwire
  · -- the caller of `stop` gives the sink what is left in the queue
    obtain ⟨hthread, -, rfl⟩ := Writer.stop_eq_some hw
    have hheld : s.writer.thread.held = [] := by
      obtain hthread | hthread := hthread
      · rw [hthread]; rfl
      · rw [hthread]; rfl
    have hgiven : givenOut s h = h.delivered := by rw [givenOut, hheld, List.append_nil]
    have hnext := stream_given hsink s.writer.q hwire
    refine ⟨hwriter, fun hwaiting => ?_, received, hreceived, ?_⟩
    · have hwaiting : s.writer.thread = .waiting := hwaiting
      rw [hwaiting] at hthread
      cases hthread with
      | inl h => cases h
      | inr h => cases h
    · rw [hgiven] at hnext
      have hall : givenOut { s with writer := { s.writer with q := [], running := false }, sink := s.writer.q.map (·.bytes.bytes) }
          (Writer.record cfg s.writer .stop h) = h.delivered ++ s.writer.q := by
        show h.delivered ++ s.writer.q ++ s.writer.thread.held = _
        rw [hheld, List.append_nil]
      rw [hall]
      exact hnext
  · obtain ⟨hsame, hwaiting⟩ := givenOut_same (h := h) hw hi.writer.started hpop hdeliver hstop
    refine ⟨hwriter, fun hw => hi.idle (hwaiting hw), received, hreceived, ?_⟩
    rw [hsame]
    exact hwire

/-- **A step keeps the invariant.** -/
theorem Inv.step (hpos : 1 ≤ cfg.frameQueue) (hi : Inv cfg c host s h) (hs : step cfg c s a = some s') :
    Inv cfg c host s' (record cfg s a h) := by
  cases a with
  | writer a => exact hi.writerStep hpos hs
  | expire =>
    obtain ⟨-, hs⟩ := Option.ite_none_right_eq_some.mp hs
    cases hs
    obtain ⟨received, hreceived, hwire⟩ := hi.wire
    refine ⟨hi.writer, hi.idle, received, hreceived, hwire.imp id fun ⟨hinit, hover⟩ => ⟨hinit, ?_⟩⟩
    exact hover.imp id fun ⟨_, harmed⟩ => ⟨rfl, harmed⟩
  | check =>
    rw [HostLink.step] at hs
    split at hs
    next b data rest hsink =>
      split at hs
      · cases hs
      next harmed =>
        have hwaiting : s.writer.thread ≠ .waiting := fun hw => by rw [hi.idle hw] at hsink; cases hsink
        obtain ⟨received, hreceived, hwire⟩ := hi.wire
        split at hs
        next hexpired =>
          cases hs
          -- the record is given up, and every one that comes after it
          refine ⟨hi.writer, fun hw => absurd hw hwaiting, received, hreceived, .inr ⟨?_, .inr ⟨hexpired, by simpa using harmed⟩⟩⟩
          obtain hwhole | ⟨hinit, -⟩ := hwire
          · exact ⟨_, hwhole⟩
          · exact hinit
        next hexpired =>
          cases hs
          refine ⟨hi.writer, hi.idle, received, hreceived, hwire.imp id fun ⟨hinit, hover⟩ => ⟨hinit, ?_⟩⟩
          exact hover.imp id fun ⟨h, _⟩ => absurd h hexpired
    · cases hs
  | send n =>
    rw [HostLink.step] at hs
    split at hs
    next data rest hsink =>
      obtain ⟨⟨harmed, hbroken, -, hn⟩, hs⟩ := Option.ite_none_right_eq_some.mp hs
      cases hs
      have hwaiting : s.writer.thread ≠ .waiting := fun hw => by rw [hi.idle hw] at hsink; cases hsink
      obtain ⟨received, hreceived, hwire⟩ := hi.wire
      refine ⟨hi.writer, fun hw => absurd hw hwaiting, received, hreceived, ?_⟩
      obtain hwhole | ⟨-, hover⟩ := hwire
      · refine .inl ?_
        rw [hsink, List.flatten_cons] at hwhole
        show received ++ (s.wire ++ data.take n) ++ (data.drop n :: rest).flatten = _
        refine Eq.trans ?_ hwhole
        rw [List.flatten_cons, ← List.append_assoc received, List.append_assoc _ (data.take n), ← List.append_assoc (data.take n),
          List.take_append_drop]
      · obtain hover | ⟨-, hover⟩ := hover
        · rw [hbroken] at hover; cases hover
        · rw [harmed] at hover; cases hover
    · cases hs
  | retry =>
    obtain ⟨-, hs⟩ := Option.ite_none_right_eq_some.mp hs
    cases hs
    obtain ⟨received, hreceived, hwire⟩ := hi.wire
    refine ⟨hi.writer, hi.idle, received, hreceived, hwire.imp id fun ⟨hinit, hover⟩ => ⟨hinit, ?_⟩⟩
    exact hover.imp id fun ⟨hexpired, _⟩ => ⟨hexpired, rfl⟩
  | fail =>
    obtain ⟨-, hs⟩ := Option.ite_none_right_eq_some.mp hs
    cases hs
    obtain ⟨received, hreceived, hwire⟩ := hi.wire
    refine ⟨hi.writer, fun hw => ?_, received, hreceived, .inr ⟨?_, .inl rfl⟩⟩
    · show s.sink.tail = []
      rw [hi.idle hw, List.tail_nil]
    · obtain hwhole | ⟨hinit, -⟩ := hwire
      · exact ⟨_, hwhole⟩
      · exact hinit
  | written =>
    rw [HostLink.step] at hs
    split at hs
    next rest hsink =>
      cases hs
      have hwaiting : s.writer.thread ≠ .waiting := fun hw => by rw [hi.idle hw] at hsink; cases hsink
      obtain ⟨received, hreceived, hwire⟩ := hi.wire
      refine ⟨hi.writer, fun hw => absurd hw hwaiting, received, hreceived, hwire.imp (fun hwhole => ?_) id⟩
      rw [hsink, List.flatten_cons, List.nil_append] at hwhole
      exact hwhole
    · cases hs
  | receive n =>
    obtain ⟨⟨hpos, hn⟩, hs⟩ := Option.ite_none_right_eq_some.mp hs
    cases hs
    obtain ⟨received, hreceived, hwire⟩ := hi.wire
    have hchunk : s.wire.take n ≠ [] := by
      intro hnil
      have hlength := congrArg List.length hnil
      rw [List.length_take, List.length_nil] at hlength
      omega
    refine ⟨hi.writer, hi.idle, received ++ s.wire.take n, hreceived.chunk hchunk, ?_⟩
    rw [List.append_assoc received, List.take_append_drop]
    exact hwire

omit [DecidableEq π] in
theorem Inv.init : Inv cfg c host (start π host) (History.empty Sendable) :=
  ⟨Writer.Inv.init, fun _ => rfl, [], Received.nil, .inl rfl⟩

/-! ## Runs -/

/-- What the host has dispatched, at any moment. -/
structure Dispatched (c : Client σ) (host : σ) (s : State π σ) (h : History Sendable) : Prop where
  /-- the first of the records that the sink has been given, each whole, once and in order -/
  first : ∃ got, got <+: givenOut s h ∧ s.reader.calls = calls got ∧ events got <+: h.entered ∧ (frames got).Sublist h.pushed
  host : s.reader.host = s.reader.calls.foldl (fun host r => (dispatch c r.1 r.2 host).2) host
  /-- where nothing has been given up and all has arrived, all of them -/
  all : s.expired = false → s.broken = false → s.sink = [] → s.wire = [] → s.reader.calls = calls (givenOut s h)
  /-- when `stop` has returned, these are all the events that have come to stand in the queue -/
  stopped : s.writer.running = false → events (givenOut s h) = h.entered

omit [DecidableEq π] in
theorem Inv.dispatched (hi : Inv cfg c host s h) : Dispatched c host s h := by
  obtain ⟨received, hreceived, hwire⟩ := hi.wire
  have hinit : received <+: stream (givenOut s h) := by
    obtain hwhole | ⟨hinit, -⟩ := hwire
    · exact ⟨s.wire ++ s.sink.flatten, by rw [← List.append_assoc]; exact hwhole⟩
    · exact (List.prefix_append _ _).trans hinit
  obtain ⟨hcalls, hfirst, hhost⟩ := hreceived.calls hinit
  have hgiven : givenOut s h <+: Writer.given s.writer h := by
    rw [Writer.given, ← List.append_assoc]
    exact List.prefix_append _ _
  refine ⟨?_, hhost, fun hexpired hbroken hsink hnone => ?_, fun hrun => ?_⟩
  · obtain ⟨got, hgot, heq⟩ := List.prefix_filterMap_iff.mp hfirst
    refine ⟨got, hgot, heq, ?_, ?_⟩
    · rw [← hi.writer.entered]
      exact (hgot.trans hgiven).filterMap _
    · exact ((hgot.trans hgiven).sublist.filterMap _).trans hi.writer.order
  · obtain hwhole | ⟨-, hover⟩ := hwire
    · rw [hnone, hsink, List.flatten_nil, List.append_nil, List.append_nil] at hwhole
      rw [hcalls, hwhole, drain_whole]
    · simp [hexpired, hbroken] at hover
  · obtain ⟨hq, -⟩ := hi.writer.stopped hrun
    have hentered := hi.writer.entered
    rw [Writer.given, hq, List.append_nil] at hentered
    exact hentered

/-- **The host dispatches the first of the records that the writer has given
out**, whatever the producers, the socket and the stop do: the events in the
order in which they came to stand in the queue, and of the frames those that
have not been dropped. -/
theorem host_dispatches (hpos : 1 ≤ cfg.frameQueue) {as : List (Act π)}
    (hr : run (traced (step cfg c) (record cfg)) (start π host, History.empty Sendable) as = some (s, h)) :
    Dispatched c host s h := by
  have hi : Inv cfg c host s h := by
    refine run_traced_invariant (fun s h a s' _ hi hs => ?_) meets_true Inv.init hr
    exact hi.step hpos hs
  exact hi.dispatched

/-- An event and a control record, of which the second waits for room in the
queue; the first is sent in two parts, and received with the beginning of the
second. -/
def handover : List (Act Nat) :=
  let event : Sendable := ⟨.event (utf8 "\x7b\x7d"), by decide⟩
  let control : Sendable := ⟨.control (utf8 "\x7b\x7d"), by decide⟩
  [.writer (.pushEvent 0 event), .writer (.pushEvent 1 control), .writer .pop, .writer (.wake 1),
    .check, .send 3, .check, .retry, .check, .send 7, .written, .writer .deliver, .writer .pop,
    .check, .send 2, .receive 11, .check, .send 8, .written, .writer .deliver, .receive 9,
    .writer .requestStop, .writer .leave, .writer .stop]

theorem host_dispatches_handover : ∃ s h,
    run (traced (step ⟨1, 1⟩ RuntimeReader.counting) (record ⟨1, 1⟩)) (start Nat 0, History.empty Sendable) handover =
      some (s, h) ∧
    s.reader.calls = [(magicEvent, utf8 "\x7b\x7d"), (magicControl, utf8 "\x7b\x7d")] :=
  ⟨_, _, rfl, (@host_dispatches Nat Nat _ ⟨1, 1⟩ RuntimeReader.counting _ _ 0 (by decide) handover rfl).all rfl rfl rfl rfl⟩

end RetailVision.HostLink
