/-
The threads of a native runtime (`vb/src/runtime.cpp`, `pool.cpp`) around its
streams: the control thread with `op_add`, `op_remove` and `Runtime::stop`,
one source thread for each stream, and the context threads of the pool, as
many as there are. A step is what a thread does between two places where
another can come in; `removing` is an atomic every thread may look at.

A `StreamState` is shared by the threads that hold it, so streams live on a
heap and the stream map lists references, by ascending index. Frames are
numbers. Left out: what a frame's processing computes, and the records
written.
-/
import RetailVision.Lib.Run
import Mathlib.Logic.Function.Basic

set_option linter.all false

namespace RetailVision.NativeRuntime

open Lib

/-- A stream's source thread. -/
inductive Source
  /-- at the top of its loop -/
  | looping
  | reading
  /-- the source is lost and closed: to look at `removing`, then to open it again -/
  | reconnecting
  | opening
  /-- it has left its loop because it saw `removing` -/
  | left
  /-- it has left its loop because the runtime stops -/
  | stopped
  deriving DecidableEq

/-- `StreamState`, with its source thread. -/
structure Stream where
  index : Nat
  removing : Bool
  busy : Bool
  /-- the context thread that holds `holder_mu` for a frame -/
  holder : Option Nat
  /-- the slot of `latest` -/
  latest : Option Nat
  dropped : Nat
  gotFirstFrame : Bool
  source : Source
  deriving DecidableEq

/-- A context thread. A batch is what it has claimed: streams, with a frame
each until it is processed. -/
inductive Context
  | idle
  /-- claims, with the rest of its snapshot in cursor order -/
  | claiming (todo : List Nat) (batch : List (Nat × Nat))
  /-- the frames still to process -/
  | batch (todo : List (Nat × Nat)) (claimed : List Nat)
  /-- has seen the stream not removing, and is to lock `holder_mu` -/
  | entering (h frame : Nat) (todo : List (Nat × Nat)) (claimed : List Nat)
  | inFrame (h : Nat) (todo : List (Nat × Nat)) (claimed : List Nat)
  | releasing (claimed : List Nat)
  deriving DecidableEq

/-- The control thread. -/
inductive Control
  | idle
  /-- `op_remove` has found the stream -/
  | found (h : Nat)
  /-- `removing` is set; to try the lock -/
  | waiting (h : Nat)
  /-- the lock was taken or the stream busy; to look at the clock -/
  | checked (h : Nat)
  /-- the deadline has passed; to take `removing` back -/
  | timedOut (h : Nat)
  /-- to reply the failure -/
  | failing (h : Nat)
  /-- the stream is not busy; to detach it -/
  | released (h : Nat)
  /-- detached; joins the source thread, under `streams_mu_` -/
  | joining (h : Nat)
  /-- to reply the success -/
  | removed (h : Nat)
  deriving DecidableEq

inductive Reply
  | added (index : Nat)
  | inUse (index : Nat)
  | noStream (index : Nat)
  | removeTimeout (index : Nat)
  | removed (index : Nat)
  deriving DecidableEq

structure State where
  heap : Nat → Stream
  /-- the first reference not in use -/
  next : Nat
  /-- the values of `streams_` -/
  streams : List Nat
  cursor : Nat
  stopping : Bool
  contexts : Nat → Context
  control : Control
  replies : List Reply
  /-- the number of frames read -/
  frames : Nat

def newStream (index : Nat) : Stream where
  index := index
  removing := false
  busy := false
  holder := none
  latest := none
  dropped := 0
  gotFirstFrame := false
  source := .looping

namespace State

def modify (s : State) (h : Nat) (f : Stream → Stream) : State :=
  { s with heap := Function.update s.heap h (f (s.heap h)) }

def setSource (s : State) (h : Nat) (src : Source) : State := s.modify h fun st => { st with source := src }

def setContext (s : State) (c : Nat) (ctx : Context) : State :=
  { s with contexts := Function.update s.contexts c ctx }

/-- `streams_[index] = s`, the map being ordered by index. -/
def insert (heap : Nat → Stream) (h : Nat) : List Nat → List Nat
  | [] => [h]
  | k :: ks => if (heap h).index < (heap k).index then h :: k :: ks else k :: insert heap h ks

/-- `streams_.find(index)` -/
def find (s : State) (index : Nat) : Option Nat := s.streams.find? fun h => (s.heap h).index = index

/-- `op_add` of an index not in use whose source opens. -/
def addStream (s : State) (index : Nat) : State :=
  let heap := Function.update s.heap s.next (newStream index)
  { s with
    heap := heap
    next := s.next + 1
    streams := insert heap s.next s.streams
    replies := s.replies ++ [.added index] }

/-- `Runtime::stop`: every stream is removing. -/
def stop (s : State) : State :=
  { s with
    stopping := true
    heap := fun h => if h ∈ s.streams then { s.heap h with removing := true } else s.heap h }

/-- `LatestFrame::put` of the next frame. -/
def putFrame (s : State) (h : Nat) : State :=
  { s.modify h fun st =>
      { st with
        latest := some s.frames
        dropped := if st.latest.isSome then st.dropped + 1 else st.dropped
        gotFirstFrame := true
        source := .looping } with
    frames := s.frames + 1 }

/-- The source thread looks at `stopping_` and `removing`, where it does. -/
def sample (s : State) (h : Nat) (next : Source) : State :=
  if s.stopping then s.setSource h .stopped
  else if (s.heap h).removing then s.setSource h .left
  else s.setSource h next

/-- The claim of one stream: its lock free, itself not busy nor removing, a
frame in its slot. -/
def claim (s : State) (c h : Nat) (got : Bool) (todo : List Nat) (batch : List (Nat × Nat)) : State :=
  let st := s.heap h
  match st.latest with
  | some f =>
    if got = true ∧ st.holder = none ∧ st.busy = false ∧ st.removing = false then
      { s.modify h fun st => { st with latest := none, busy := true } with
        contexts := Function.update s.contexts c (.claiming todo (batch ++ [(h, f)])) }
    else s.setContext c (.claiming todo batch)
  | none => s.setContext c (.claiming todo batch)

/-- The end of the claims: the cursor moves, and the batch is processed. -/
def endClaims (s : State) (c : Nat) (batch : List (Nat × Nat)) : State :=
  { s with
    cursor := s.cursor + batch.length + 1
    contexts := Function.update s.contexts c (if batch = [] then .idle else .batch batch (batch.map (·.1))) }

end State

inductive Action
  | add (index : Nat)
  | remove (index : Nat)
  | setRemoving
  /-- `got` is false where a context thread has the lock to look at the stream for a claim -/
  | tryLock (got : Bool)
  | clock (passed : Bool)
  | takeBack
  | replyTimeout
  | detach
  | join
  | replyRemoved
  | stop
  /-- a source thread -/
  | sample (h : Nat)
  | readFrame (h : Nat)
  | readNothing (h : Nat)
  | readFails (h : Nat)
  | reopen (h : Nat) (ok : Bool)
  /-- a context thread -/
  | snapshot (c : Nat)
  | claim (c : Nat) (got : Bool)
  | endClaims (c : Nat)
  | checkRemoving (c : Nat)
  | enterFrame (c : Nat)
  | endFrame (c : Nat)
  | release (c : Nat)
  deriving DecidableEq

/-- One step of the control thread. -/
def stepControl (s : State) : Action → Option State
  | .add i => if s.control = .idle ∧ s.stopping = false then
      match s.find i with
      | some _ => some { s with replies := s.replies ++ [.inUse i] }
      | none => some (s.addStream i)
    else none
  | .remove i => if s.control = .idle ∧ s.stopping = false then
      match s.find i with
      | some h => some { s with control := .found h }
      | none => some { s with replies := s.replies ++ [.noStream i] }
    else none
  | .setRemoving => match s.control with
    | .found h => some { s.modify h fun st => { st with removing := true } with control := .waiting h }
    | _ => none
  | .tryLock got => match s.control with
    | .waiting h =>
      if got = true ∧ (s.heap h).holder = none ∧ (s.heap h).busy = false then some { s with control := .released h }
      else some { s with control := .checked h }
    | _ => none
  | .clock passed => match s.control with
    | .checked h => some { s with control := if passed then .timedOut h else .waiting h }
    | _ => none
  -- "The reply says failed, so the stream must still be there and usable."
  | .takeBack => match s.control with
    | .timedOut h => some { s.modify h fun st => { st with removing := false } with control := .failing h }
    | _ => none
  | .replyTimeout => match s.control with
    | .failing h => some { s with control := .idle, replies := s.replies ++ [.removeTimeout (s.heap h).index] }
    | _ => none
  | .detach => match s.control with
    | .released h => some { s with control := .joining h, streams := s.streams.erase h }
    | _ => none
  | .join => match s.control with
    | .joining h =>
      if (s.heap h).source = .left ∨ (s.heap h).source = .stopped then some { s with control := .removed h } else none
    | _ => none
  | .replyRemoved => match s.control with
    | .removed h => some { s with control := .idle, replies := s.replies ++ [.removed (s.heap h).index] }
    | _ => none
  | .stop => if s.control = .idle ∧ s.stopping = false then some s.stop else none
  | _ => none

/-- One step of a source thread. -/
def stepSource (s : State) : Action → Option State
  | .sample h => match (s.heap h).source with
    | .looping => some (s.sample h .reading)
    | .reconnecting => some (s.sample h .opening)
    | _ => none
  | .readFrame h => match (s.heap h).source with
    | .reading => some (s.putFrame h)
    | _ => none
  | .readNothing h => match (s.heap h).source with
    | .reading => some (s.setSource h .looping)
    | _ => none
  | .readFails h => match (s.heap h).source with
    | .reading => some (s.modify h fun st => { st with source := .reconnecting, gotFirstFrame := false })
    | _ => none
  | .reopen h ok => match (s.heap h).source with
    | .opening => some (s.setSource h (if ok then .looping else .reconnecting))
    | _ => none
  | _ => none

/-- One step of a context thread. -/
def stepContext (maxBatch : Nat) (s : State) : Action → Option State
  -- The snapshot is taken under `streams_mu_`, which a join holds.
  | .snapshot c => match s.contexts c, s.control with
    | .idle, .joining _ => none
    | .idle, _ => some (s.setContext c (.claiming (s.streams.rotateLeft (s.cursor % s.streams.length)) []))
    | _, _ => none
  | .claim c got => match s.contexts c with
    | .claiming (h :: todo) batch => if batch.length < maxBatch then some (s.claim c h got todo batch) else none
    | _ => none
  | .endClaims c => match s.contexts c with
    | .claiming todo batch => if todo = [] ∨ maxBatch ≤ batch.length then some (s.endClaims c batch) else none
    | _ => none
  | .checkRemoving c => match s.contexts c with
    | .batch ((h, f) :: todo) claimed =>
      some (s.setContext c (if (s.heap h).removing then .batch todo claimed else .entering h f todo claimed))
    | .batch [] claimed => some (s.setContext c (.releasing claimed))
    | _ => none
  | .enterFrame c => match s.contexts c with
    | .entering h _ todo claimed => if (s.heap h).holder = none then
        some { s.modify h fun st => { st with holder := some c } with
          contexts := Function.update s.contexts c (.inFrame h todo claimed) }
      else none
    | _ => none
  | .endFrame c => match s.contexts c with
    | .inFrame h todo claimed =>
      some { s.modify h fun st => { st with holder := none } with
        contexts := Function.update s.contexts c (.batch todo claimed) }
    | _ => none
  | .release c => match s.contexts c with
    | .releasing (h :: claimed) => if (s.heap h).holder = none then
        some { s.modify h fun st => { st with busy := false } with
          contexts := Function.update s.contexts c (.releasing claimed) }
      else none
    | .releasing [] => some (s.setContext c .idle)
    | _ => none
  | _ => none

/-- **One step of a runtime's threads.** -/
def step (maxBatch : Nat) (s : State) (a : Action) : Option State :=
  match a with
  | .sample _ | .readFrame _ | .readNothing _ | .readFails _ | .reopen _ _ => stepSource s a
  | .snapshot _ | .claim _ _ | .endClaims _ | .checkRemoving _ | .enterFrame _ | .endFrame _ | .release _ =>
    stepContext maxBatch s a
  | _ => stepControl s a

/-- A runtime that has started, with no streams: no source thread runs. -/
def start : State where
  heap _ := { newStream 0 with source := .left }
  next := 0
  streams := []
  cursor := 0
  stopping := false
  contexts _ := .idle
  control := .idle
  replies := []
  frames := 0

end RetailVision.NativeRuntime
