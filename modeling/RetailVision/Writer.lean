/-
The output queue of the native runtime: `vb/src/writer.cpp`. Contexts and
control threads push frame records, of which the oldest make room for new
ones, and event records, which wait for room; a thread of its own gives the
records to a sink, one after the other.

A step is a critical section of the writer's mutex, or a call of the sink.
A wait wakes up at any moment at which its predicate holds. Left out: the
deadline that a sink may ask for, and what the sink does.
-/
import RetailVision.Lib.Run

set_option linter.all false

namespace RetailVision.Writer

open Lib

/-- `WriterConfig`, but for the flush window. -/
structure WriterConfig where
  frameQueue : Nat := 256
  eventBackpressureLimit : Nat := 4096

structure Entry (ρ : Type) where
  isFrame : Bool
  bytes : ρ

/-- Where the writer's thread is. -/
inductive Thread (ρ : Type)
  | notStarted
  /-- in the wait of `run`, or about to be -/
  | waiting
  /-- in the sink -/
  | delivering (e : Entry ρ)
  | exited

/-- The members of a writer, its thread, and the producers that wait in
`push_event`, each with its record. -/
structure State (π ρ : Type) where
  q : List (Entry ρ)
  framesQueued : Nat
  eventsQueued : Nat
  framesDropped : Nat
  eventBackpressure : Nat
  running : Bool
  stopping : Bool
  thread : Thread ρ
  parked : List (π × ρ)

def initial (π ρ : Type) : State π ρ where
  q := []
  framesQueued := 0
  eventsQueued := 0
  framesDropped := 0
  eventBackpressure := 0
  running := false
  stopping := false
  thread := .notStarted
  parked := []

variable {π ρ : Type}

section

variable (cfg : WriterConfig)

def start (s : State π ρ) : State π ρ := { s with running := true, stopping := false, thread := .waiting }

def requestStop (s : State π ρ) : State π ρ := { s with stopping := true }

/-- The loop of `push_frame`, with the records it drops. A pass takes a record
out of the queue, so there are no more passes than records. -/
def dropOldest : Nat → State π ρ → List ρ × State π ρ
  | 0, s => ([], s)
  | n + 1, s =>
    if cfg.frameQueue ≤ s.framesQueued then
      match s.q.find? (·.isFrame) with
      | none => ([], s)
      | some e =>
        let x := dropOldest n { s with
          q := s.q.eraseP (·.isFrame)
          framesQueued := s.framesQueued - 1
          framesDropped := s.framesDropped + 1 }
        (e.bytes :: x.1, x.2)
    else ([], s)

def pushFrame (bytes : ρ) (s : State π ρ) : List ρ × State π ρ :=
  if s.running then
    let x := dropOldest cfg s.q.length s
    (x.1, { x.2 with framesQueued := x.2.framesQueued + 1, q := x.2.q ++ [⟨true, bytes⟩] })
  else ([], s)

/-- What a producer comes to in `push_event`: it returns without having queued
its record, it waits, or it returns. -/
inductive Outcome
  | ignored
  | parked
  | queued
  deriving DecidableEq

def queueEvent (bytes : ρ) (s : State π ρ) : State π ρ :=
  { s with eventsQueued := s.eventsQueued + 1, q := s.q ++ [⟨false, bytes⟩] }

def pushEvent (p : π) (bytes : ρ) (s : State π ρ) : Outcome × State π ρ :=
  if !s.running then (.ignored, s)
  else if cfg.eventBackpressureLimit ≤ s.eventsQueued then
    (.parked, { s with eventBackpressure := s.eventBackpressure + 1, parked := s.parked ++ [(p, bytes)] })
  else (.queued, queueEvent bytes s)

/-- The end of the wait of `push_event`, and what comes after it. -/
def wake [DecidableEq π] (p : π) (s : State π ρ) : Option (Outcome × ρ × State π ρ) :=
  match s.parked.find? (·.1 = p) with
  | none => none
  | some (_, bytes) =>
    if s.stopping || decide (s.eventsQueued < cfg.eventBackpressureLimit) then
      let s := { s with parked := s.parked.eraseP (·.1 = p) }
      if s.stopping then some (.ignored, bytes, s) else some (.queued, bytes, queueEvent bytes s)
    else none

/-- `run`, from the wait to the sink. -/
def pop (s : State π ρ) : Option (State π ρ) :=
  match s.thread, s.q with
  | .waiting, e :: q =>
    if e.isFrame then some { s with q := q, framesQueued := s.framesQueued - 1, thread := .delivering e }
    else some { s with q := q, eventsQueued := s.eventsQueued - 1, thread := .delivering e }
  | _, _ => none

/-- The sink returns. -/
def deliver (s : State π ρ) : Option (State π ρ) :=
  match s.thread with
  | .delivering _ => some { s with thread := .waiting }
  | _ => none

/-- The end of `run`. -/
def leave (s : State π ρ) : Option (State π ρ) :=
  match s.thread, s.q with
  | .waiting, [] => if s.stopping then some { s with thread := .exited } else none
  | _, _ => none

/-- `stop`, from the join on. -/
def stop (s : State π ρ) : Option (State π ρ) :=
  match s.thread with
  | .notStarted | .exited => if s.stopping then some { s with q := [], running := false } else none
  | _ => none

/-! ## Runs -/

inductive Act (π ρ : Type)
  | start
  | requestStop
  | pushFrame (p : π) (bytes : ρ)
  | pushEvent (p : π) (bytes : ρ)
  | wake (p : π)
  | pop
  | deliver
  | leave
  | stop

/-- A producer that waits does nothing else. -/
def step [DecidableEq π] (s : State π ρ) : Act π ρ → Option (State π ρ)
  | .start => match s.thread with
    | .notStarted => some (start s)
    | _ => none
  | .requestStop => some (requestStop s)
  | .pushFrame p bytes => if p ∈ s.parked.map (·.1) then none else some (pushFrame cfg bytes s).2
  | .pushEvent p bytes => if p ∈ s.parked.map (·.1) then none else some (pushEvent cfg p bytes s).2
  | .wake p => (wake cfg p s).map (·.2.2)
  | .pop => pop s
  | .deliver => deliver s
  | .leave => leave s
  | .stop => stop s

/-- What has happened to a writer. -/
structure History (ρ : Type) where
  /-- the records of `push_frame` -/
  pushed : List ρ
  dropped : List ρ
  /-- the records of `push_event`, as they came to stand in the queue -/
  entered : List ρ
  /-- those whose `push_event` had returned before the stop was requested -/
  returned : List ρ
  /-- what the sink has been given -/
  delivered : List (Entry ρ)

def History.empty (ρ : Type) : History ρ := ⟨[], [], [], [], []⟩

/-- A producer comes to `o` in `push_event`. -/
def History.comesTo (h : History ρ) (stopping : Bool) (o : Outcome) (bytes : ρ) : History ρ :=
  { h with
    entered := if o = .queued then h.entered ++ [bytes] else h.entered
    returned := if o ≠ .parked ∧ stopping = false then h.returned ++ [bytes] else h.returned }

def record [DecidableEq π] (s : State π ρ) (a : Act π ρ) (h : History ρ) : History ρ :=
  match a with
  | .pushFrame _ bytes =>
    { h with pushed := h.pushed ++ [bytes], dropped := h.dropped ++ (pushFrame cfg bytes s).1 }
  | .pushEvent p bytes => h.comesTo s.stopping (pushEvent cfg p bytes s).1 bytes
  | .wake p => match wake cfg p s with
    | none => h
    | some (o, bytes, _) => h.comesTo s.stopping o bytes
  | .deliver => match s.thread with
    | .delivering e => { h with delivered := h.delivered ++ [e] }
    | _ => h
  | .stop => { h with delivered := h.delivered ++ s.q }
  | _ => h

end

/-! ## The records of a kind -/

def Entry.frame (e : Entry ρ) : Option ρ := if e.isFrame then some e.bytes else none

def Entry.event (e : Entry ρ) : Option ρ := if e.isFrame then none else some e.bytes

def frames (q : List (Entry ρ)) : List ρ := q.filterMap Entry.frame

def events (q : List (Entry ρ)) : List ρ := q.filterMap Entry.event

@[simp] theorem frames_nil : frames ([] : List (Entry ρ)) = [] := rfl
@[simp] theorem events_nil : events ([] : List (Entry ρ)) = [] := rfl

variable {q l r : List (Entry ρ)} {e : Entry ρ} {bytes : ρ}

@[simp] theorem frames_append : frames (l ++ r) = frames l ++ frames r := List.filterMap_append

@[simp] theorem events_append : events (l ++ r) = events l ++ events r := List.filterMap_append

@[simp] theorem frames_frame : frames (⟨true, bytes⟩ :: q) = bytes :: frames q := rfl
@[simp] theorem frames_event : frames (⟨false, bytes⟩ :: q) = frames q := rfl
@[simp] theorem events_frame : events (⟨true, bytes⟩ :: q) = events q := rfl
@[simp] theorem events_event : events (⟨false, bytes⟩ :: q) = bytes :: events q := rfl

/-- The record that the thread is giving to the sink. -/
def Thread.held : Thread ρ → List (Entry ρ)
  | .delivering e => [e]
  | _ => []

end RetailVision.Writer
