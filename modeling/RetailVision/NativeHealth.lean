/-
The state that a stream's metrics report (`StreamMetrics::record_state`), which
every stats record tells. It is written by the source thread, by the context
that processes a frame of the stream, and by the control thread. What they do
else is as in the runtime; here the steps come in between in which they look at
a frame's outcome and write the state.

`read` gives a frame (`frameRead`) some steps before the frame is in the slot
(`readFrame`), and a frame is inferred and encoded between the entering of the
stream and the leaving of it. Of the metrics, the state and the error are here.
-/
import RetailVision.NativeRemoveFinal

set_option linter.all false

namespace RetailVision.NativeHealth

open Lib
open NativeRuntime (Context newStream)

inductive StreamState
  | starting
  | running
  | reconnecting
  | error
  | stopped
  deriving DecidableEq

/-- `state_` and `error_` -/
structure Metrics where
  state : StreamState
  error : String
  deriving DecidableEq

/-- What a source thread has in hand. -/
inductive Hand
  | nothing
  /-- the first frame since the source was opened; to record "running" -/
  | firstFrame
  /-- a frame; to put it in the slot -/
  | frame
  /-- a failed read; to record "reconnecting" -/
  | failure
  deriving DecidableEq

/-- Where a context is in `process`. -/
inductive Work
  | inferring
  | inferFailed (err : String)
  | encoding
  | encodeFailed (err : String)
  /-- to return -/
  | ended (ok : Bool)
  deriving DecidableEq

structure State where
  rt : NativeRuntime.State
  metrics : Nat → Metrics
  hand : Nat → Hand
  work : Nat → Work
  /-- the control thread has recorded "stopped" -/
  stopRecorded : Bool

def start : State where
  rt := NativeRuntime.start
  metrics _ := ⟨.starting, ""⟩
  hand _ := .nothing
  work _ := .ended true
  stopRecorded := false

namespace State

variable (s : State)

/-- `record_state` -/
def recordState (h : Nat) (state : StreamState) (error : String) : State :=
  { s with metrics := Function.update s.metrics h ⟨state, error⟩ }

def setHand (h : Nat) (hand : Hand) : State := { s with hand := Function.update s.hand h hand }

def setWork (c : Nat) (work : Work) : State := { s with work := Function.update s.work c work }

/-- The stream a context processes a frame of. -/
def processes (c : Nat) : Option Nat := (s.rt.contexts c).processes

end State

inductive Action
  /-- a step of the runtime, as it is there -/
  | rt (a : NativeRuntime.Action)
  /-- a source thread -/
  | frameRead (h : Nat)
  | recordRunning (h : Nat)
  | recordReconnecting (h : Nat)
  /-- a context -/
  | infer (c : Nat) (err : Option String)
  | recordInferError (c : Nat)
  | encode (c : Nat) (err : Option String)
  | recordEncodeError (c : Nat)
  /-- the control thread -/
  | recordStopped
  deriving DecidableEq

/-- Where a step of the runtime has to wait for the thread's own writes. -/
def ready (s : State) : NativeRuntime.Action → Bool
  | .readFrame h => s.hand h = .frame
  | .readNothing h | .readFails h | .sample h => s.hand h = .nothing
  | .endFrame c => match s.work c with
    | .ended _ => true
    | _ => false
  | .replyRemoved => s.stopRecorded
  | _ => true

/-- What goes with a step of the runtime. -/
def follow (s : State) (a : NativeRuntime.Action) (rt : NativeRuntime.State) : State :=
  let s' := { s with rt := rt }
  match a with
  | .add i => match s.rt.find i with
    | some _ => s'
    | none => (s'.recordState s.rt.next .starting "").setHand s.rt.next .nothing
  | .readFrame h => s'.setHand h .nothing
  | .readFails h => s'.setHand h .failure
  | .enterFrame c => s'.setWork c .inferring
  | .replyRemoved => { s' with stopRecorded := false }
  | _ => s'

/-- One step of a runtime's threads, with what they write. -/
def step (maxBatch : Nat) (s : State) : Action → Option State
  | .rt a => if ready s a then (NativeRuntime.step maxBatch s.rt a).map (follow s a) else none
  -- `got_first_frame.exchange(true)`
  | .frameRead h =>
    if (s.rt.heap h).source = .reading ∧ s.hand h = .nothing then
      some (s.setHand h (if (s.rt.heap h).gotFirstFrame then .frame else .firstFrame))
    else none
  | .recordRunning h =>
    if s.hand h = .firstFrame then some ((s.recordState h .running "").setHand h .frame) else none
  | .recordReconnecting h =>
    if s.hand h = .failure then some ((s.recordState h .reconnecting "read failed").setHand h .nothing) else none
  | .infer c err => match s.processes c, s.work c with
    | some _, .inferring => match err with
      | some err => some (s.setWork c (.inferFailed err))
      | none => some (s.setWork c .encoding)
    | _, _ => none
  | .recordInferError c => match s.processes c, s.work c with
    | some h, .inferFailed err => some ((s.recordState h .error err).setWork c (.ended false))
    | _, _ => none
  | .encode c err => match s.processes c, s.work c with
    | some _, .encoding => match err with
      | some err => some (s.setWork c (.encodeFailed err))
      | none => some (s.setWork c (.ended true))
    | _, _ => none
  | .recordEncodeError c => match s.processes c, s.work c with
    | some h, .encodeFailed err => some ((s.recordState h .error err).setWork c (.ended false))
    | _, _ => none
  | .recordStopped => match s.rt.control with
    | .removed h =>
      if s.stopRecorded then none else some { s.recordState h .stopped "" with stopRecorded := true }
    | _ => none

/-! ## What there is to report -/

/-- What has happened to a stream. -/
structure Seen where
  /-- a frame since the source was last opened -/
  delivered : Bool
  /-- the last read failed -/
  readFailed : Bool
  /-- how the last frame that was processed ended -/
  lastFrame : Option Bool
  /-- an error was recorded since "running" was -/
  errorSince : Bool
  deriving DecidableEq

def Seen.nothing : Seen := ⟨false, false, none, false⟩

def see (g : Nat → Seen) (h : Nat) (f : Seen → Seen) : Nat → Seen := Function.update g h (f (g h))

/-- The record of a run. -/
def note (s : State) (a : Action) (g : Nat → Seen) : Nat → Seen :=
  match a with
  | .rt (.add i) => match s.rt.find i with
    | some _ => g
    | none => see g s.rt.next fun _ => .nothing
  | .rt (.readFrame h) => see g h fun x => { x with delivered := true }
  | .rt (.readNothing h) | .frameRead h => see g h fun x => { x with readFailed := false }
  | .rt (.readFails h) => see g h fun x => { x with readFailed := true }
  | .rt (.reopen h true) => see g h fun x => { x with delivered := false }
  | .rt (.endFrame c) => match s.processes c, s.work c with
    | some h, .ended ok => see g h fun x => { x with lastFrame := some ok }
    | _, _ => g
  | .recordRunning h => see g h fun x => { x with errorSince := false }
  | .recordInferError c | .recordEncodeError c => match s.processes c with
    | some h => see g h fun x => { x with errorSince := true }
    | none => g
  | _ => g

/-- The source thread has recorded "running", and no failed read since. -/
def Delivering (s : State) (h : Nat) : Prop := (s.rt.heap h).gotFirstFrame = true ∨ s.hand h = .frame

/-- A registered stream whose source delivers, and whose last frame was good. -/
structure Runs (s : State) (g : Nat → Seen) (h : Nat) : Prop where
  registered : h ∈ s.rt.streams
  notRemoving : (s.rt.heap h).removing = false
  noFailure : (g h).readFailed = false
  delivered : (g h).delivered = true
  good : (g h).lastFrame = some true
  noFrame : ∀ c, s.processes c ≠ some h

instance (s : State) (h : Nat) : Decidable (Delivering s h) := inferInstanceAs (Decidable (_ ∨ _))

/-- A good frame ends, after another frame's error that was recorded since "running" was. -/
def recovers (x : State × (Nat → Seen)) : Action → Bool
  | .rt (.endFrame c) => match x.1.processes c with
    | some h => x.1.work c = .ended true ∧ Delivering x.1 h ∧ (x.2 h).errorSince = true
    | none => false
  | _ => false

end RetailVision.NativeHealth
