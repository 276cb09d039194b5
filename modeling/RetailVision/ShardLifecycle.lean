/-
The life of a shard's `vb-runtime` children (`vision_base/shard.py`): start
attempts under `_start_lock`, the restart timers, each client's reader
thread reporting its child's exit (`_on_exit`), `add_stream` while no client
is installed, and `stop`. A step is a block under `_mu`, a spawn, a kill, or
what a child does by itself; a thread's place between two of its blocks is
part of the state.

`kill` and `stop` of a client have returned where the model says so, and then
its child is dead; a reader reports an exit only of a child that has exited.
-/
import RetailVision.Lib.Run
import Mathlib.Logic.Function.Basic

set_option linter.all false

namespace RetailVision.ShardLifecycle

open Lib

/-- A client's reader thread. -/
inductive Reader
  /-- not started: the child is to be spawned -/
  | idle
  | reading
  /-- `_on_exit` between its two blocks -/
  | noted (hadHello : Bool)
  /-- `_on_exit`, about to call `_schedule_restart` -/
  | scheduling
  | done
  deriving DecidableEq

/-- `RuntimeClient`, as its shard sees it. -/
structure Client where
  /-- the child process runs -/
  alive : Bool
  /-- `self.hello is not None` -/
  hello : Bool
  reader : Reader
  deriving DecidableEq

/-- The thread inside `_start_runtime` that holds `_start_lock`. -/
inductive Attempt
  | free
  /-- holds the lock, `_stopping` not looked at -/
  | entered
  /-- `_starting` is set, `client.start` to spawn the child -/
  | created (c : Nat)
  | waitingHello (c : Nat)
  /-- `client.start` raised, its child killed -/
  | raised (c : Nat)
  /-- `_handle_start_failure`: to count, to decide, to schedule -/
  | failed
  | counted
  | scheduling
  /-- `client.start` returned the hello -/
  | started (c : Nat)
  /-- `stop` ran meanwhile: the client is not installed -/
  | refused (c : Nat)
  | installed (c : Nat)
  /-- the streams are added again -/
  | replaying
  deriving DecidableEq

/-- The thread in `Shard.stop`: the clients it has still to stop. -/
inductive Stopper
  | idle
  | stopping (clients : List Nat)
  | done

structure State where
  clients : Nat → Client
  next : Nat
  /-- `self._client` -/
  client : Option Nat
  /-- `self._starting` -/
  starting : Option Nat
  /-- `self.hello is not None` -/
  hello : Bool
  stopping : Bool
  startFailures : Nat
  restartScheduled : Bool
  runtimeRestarts : Nat
  runtimeFailed : Bool
  /-- restart threads in their backoff -/
  timers : Nat
  /-- threads in `_start_runtime`, waiting for `_start_lock` -/
  waiters : Nat
  attempt : Attempt
  /-- `add_stream` has seen no client and is to call `_schedule_restart` -/
  addScheduling : Bool
  stopper : Stopper

def newClient : Client := { alive := false, hello := false, reader := .idle }

namespace State

def modify (s : State) (c : Nat) (f : Client → Client) : State :=
  { s with clients := Function.update s.clients c (f (s.clients c)) }

/-- The child of a client is dead. -/
def kill (s : State) (c : Nat) : State := s.modify c fun cl => { cl with alive := false }

def setReader (s : State) (c : Nat) (r : Reader) : State := s.modify c fun cl => { cl with reader := r }

/-- `_schedule_restart` -/
def scheduleRestart (s : State) : State :=
  if s.stopping || s.restartScheduled then s
  else { s with restartScheduled := true, timers := s.timers + 1 }

/-- `_schedule_error_all` -/
def scheduleErrorAll (s : State) : State := { s with runtimeFailed := true }

/-- `_starting` is cleared, if it is still this client. -/
def clearStarting (s : State) (c : Nat) : State :=
  { s with starting := if s.starting = some c then none else s.starting }

/-- The client is created unless the shard stops. -/
def check (s : State) : State :=
  if s.stopping then { s with attempt := .free }
  else { s with
    clients := Function.update s.clients s.next newClient
    next := s.next + 1
    starting := some s.next
    attempt := .created s.next }

/-- The first block of `_handle_start_failure`. -/
def countFailure (s : State) : State :=
  if s.stopping then { s with attempt := .free }
  else { s with startFailures := s.startFailures + 1, attempt := .counted }

/-- Its second block: three failures, and restarting is given up. -/
def decideFailure (s : State) (maxStartFailures : Nat) : State :=
  if maxStartFailures ≤ s.startFailures then { s.scheduleErrorAll with attempt := .free }
  else { s with attempt := .scheduling }

/-- A started client is installed unless the shard stops. -/
def install (s : State) (c : Nat) : State :=
  let t := s.clearStarting c
  if s.stopping then { t with attempt := .refused c }
  else { t with client := some c, startFailures := 0, attempt := .installed c }

/-- The first block of `_on_exit`, whose client clears whatever is
installed. -/
def onExit (s : State) (c : Nat) : State :=
  if s.stopping then s.setReader c .done
  else { s.setReader c (.noted s.hello) with
    client := none
    runtimeRestarts := s.runtimeRestarts + 1
    startFailures := if s.hello then s.startFailures else s.startFailures + 1 }

/-- Its second block. -/
def decideExit (s : State) (c : Nat) (hadHello : Bool) (maxStartFailures : Nat) : State :=
  if !hadHello && decide (maxStartFailures ≤ s.startFailures) then s.scheduleErrorAll.setReader c .done
  else s.setReader c .scheduling

/-- A restart thread at the end of its backoff. -/
def timerFires (s : State) : State :=
  if s.stopping then { s with timers := s.timers - 1 }
  else { s with timers := s.timers - 1, restartScheduled := false, waiters := s.waiters + 1 }

/-- `stop`, up to the first client it stops. -/
def beginStop (s : State) : State :=
  { s with stopping := true, stopper := .stopping (s.starting.toList ++ s.client.toList) }

end State

inductive Action
  | acquire
  | check
  | spawn
  /-- `socketpair` or `Popen` raises, and out of `_start_runtime` -/
  | spawnFails
  /-- `client.start` raises `TimeoutError` or `RuntimeGone` -/
  | startRaises
  /-- the hello's version does not fit: raises, and out of `_start_runtime` -/
  | versionMismatch
  | startReturns
  | handleRaise
  | countFailure
  | decideFailure
  | scheduleFailure
  | install
  | stopRefused
  | beginReplay
  | endReplay
  | timerFires
  | childHello (c : Nat)
  | childExits (c : Nat)
  /-- the reader of `c` at the end of the connection: `_on_exit` if there was a hello -/
  | readerEnds (c : Nat)
  | decideExit (c : Nat)
  | scheduleExit (c : Nat)
  /-- `add_stream` reads `_client` -/
  | addStream
  | scheduleAdd
  | beginStop
  | stopClient
  | endStop
  deriving DecidableEq

/-- One step of the thread that starts a runtime. -/
def stepAttempt (maxStartFailures : Nat) (s : State) : Action → Option State
  | .acquire => if s.attempt = .free ∧ 0 < s.waiters then
      some { s with waiters := s.waiters - 1, attempt := .entered } else none
  | .check => if s.attempt = .entered then some s.check else none
  | .spawn => match s.attempt with
    | .created c =>
      some { s.modify c fun cl => { cl with alive := true, reader := .reading } with attempt := .waitingHello c }
    | _ => none
  | .spawnFails => match s.attempt with
    | .created _ => some { s with attempt := .free }
    | _ => none
  | .startRaises => match s.attempt with
    | .waitingHello c => if (s.clients c).hello then none else some { s.kill c with attempt := .raised c }
    | _ => none
  | .versionMismatch => match s.attempt with
    | .waitingHello c => if (s.clients c).hello then some { s.kill c with attempt := .free } else none
    | _ => none
  | .startReturns => match s.attempt with
    | .waitingHello c => if (s.clients c).hello then some { s with attempt := .started c } else none
    | _ => none
  | .handleRaise => match s.attempt with
    | .raised c => some { (s.kill c).clearStarting c with attempt := .failed }
    | _ => none
  | .countFailure => if s.attempt = .failed then some s.countFailure else none
  | .decideFailure => if s.attempt = .counted then some (s.decideFailure maxStartFailures) else none
  | .scheduleFailure => if s.attempt = .scheduling then some { s.scheduleRestart with attempt := .free } else none
  | .install => match s.attempt with
    | .started c => some (s.install c)
    | _ => none
  | .stopRefused => match s.attempt with
    | .refused c => some { s.kill c with attempt := .free }
    | _ => none
  | .beginReplay => match s.attempt with
    | .installed _ => some { s with hello := true, runtimeFailed := false, attempt := .replaying }
    | _ => none
  | .endReplay => if s.attempt = .replaying then some { s with attempt := .free } else none
  | _ => none

/-- One step of a child or of its client's reader. -/
def stepClient (maxStartFailures : Nat) (s : State) : Action → Option State
  | .childHello c =>
    if (s.clients c).reader = .reading then some (s.modify c fun cl => { cl with hello := true }) else none
  | .childExits c => some (s.kill c)
  | .readerEnds c =>
    if (s.clients c).alive = false ∧ (s.clients c).reader = .reading then
      some (if (s.clients c).hello then s.onExit c else s.setReader c .done)
    else none
  | .decideExit c => match (s.clients c).reader with
    | .noted hadHello => some (s.decideExit c hadHello maxStartFailures)
    | _ => none
  | .scheduleExit c =>
    if (s.clients c).reader = .scheduling then some (s.scheduleRestart.setReader c .done) else none
  | _ => none

/-- One step of a restart timer, of the control thread or of `stop`. -/
def stepOther (s : State) : Action → Option State
  | .timerFires => if 0 < s.timers then some s.timerFires else none
  | .addStream => if s.addScheduling then none else some { s with addScheduling := s.client.isNone }
  | .scheduleAdd => if s.addScheduling then some { s.scheduleRestart with addScheduling := false } else none
  | .beginStop => match s.stopper with
    | .idle => some s.beginStop
    | _ => none
  | .stopClient => match s.stopper with
    | .stopping (c :: cs) => some { s.kill c with stopper := .stopping cs }
    | _ => none
  | .endStop => match s.stopper with
    | .stopping [] => some { s with client := none, stopper := .done }
    | _ => none
  | _ => none

/-- **One step of a shard's threads and children.** -/
def step (maxStartFailures : Nat) (s : State) (a : Action) : Option State :=
  match a with
  | .timerFires | .addStream | .scheduleAdd | .beginStop | .stopClient | .endStop => stepOther s a
  | .childHello _ | .childExits _ | .readerEnds _ | .decideExit _ | .scheduleExit _ =>
    stepClient maxStartFailures s a
  | _ => stepAttempt maxStartFailures s a

/-- `Shard.start`: the first call of `_start_runtime`. -/
def start : State where
  clients _ := newClient
  next := 0
  client := none
  starting := none
  hello := false
  stopping := false
  startFailures := 0
  restartScheduled := false
  runtimeRestarts := 0
  runtimeFailed := false
  timers := 0
  waiters := 1
  attempt := .free
  addScheduling := false
  stopper := .idle

/-! ## The cases of a step -/

variable {n : Nat} {s s' : State} {a : Action} {c : Nat}

/-- Every step there is, with its guard and its result. -/
inductive StepView (n : Nat) (s : State) : Action → State → Prop
  | acquire (ha : s.attempt = .free) (hw : 0 < s.waiters) :
      StepView n s .acquire { s with waiters := s.waiters - 1, attempt := .entered }
  | check (ha : s.attempt = .entered) : StepView n s .check s.check
  | spawn (c : Nat) (ha : s.attempt = .created c) : StepView n s .spawn
      { s.modify c fun cl => { cl with alive := true, reader := .reading } with attempt := .waitingHello c }
  | spawnFails (c : Nat) (ha : s.attempt = .created c) : StepView n s .spawnFails { s with attempt := .free }
  | startRaises (c : Nat) (ha : s.attempt = .waitingHello c) (hh : (s.clients c).hello = false) :
      StepView n s .startRaises { s.kill c with attempt := .raised c }
  | versionMismatch (c : Nat) (ha : s.attempt = .waitingHello c) (hh : (s.clients c).hello = true) :
      StepView n s .versionMismatch { s.kill c with attempt := .free }
  | startReturns (c : Nat) (ha : s.attempt = .waitingHello c) (hh : (s.clients c).hello = true) :
      StepView n s .startReturns { s with attempt := .started c }
  | handleRaise (c : Nat) (ha : s.attempt = .raised c) :
      StepView n s .handleRaise { (s.kill c).clearStarting c with attempt := .failed }
  | countFailure (ha : s.attempt = .failed) : StepView n s .countFailure s.countFailure
  | decideFailure (ha : s.attempt = .counted) : StepView n s .decideFailure (s.decideFailure n)
  | scheduleFailure (ha : s.attempt = .scheduling) :
      StepView n s .scheduleFailure { s.scheduleRestart with attempt := .free }
  | install (c : Nat) (ha : s.attempt = .started c) : StepView n s .install (s.install c)
  | stopRefused (c : Nat) (ha : s.attempt = .refused c) : StepView n s .stopRefused { s.kill c with attempt := .free }
  | beginReplay (c : Nat) (ha : s.attempt = .installed c) :
      StepView n s .beginReplay { s with hello := true, runtimeFailed := false, attempt := .replaying }
  | endReplay (ha : s.attempt = .replaying) : StepView n s .endReplay { s with attempt := .free }
  | timerFires (ht : 0 < s.timers) : StepView n s .timerFires s.timerFires
  | childHello (c : Nat) (hr : (s.clients c).reader = .reading) :
      StepView n s (.childHello c) (s.modify c fun cl => { cl with hello := true })
  | childExits (c : Nat) : StepView n s (.childExits c) (s.kill c)
  | exited (c : Nat) (hd : (s.clients c).alive = false) (hr : (s.clients c).reader = .reading)
      (hh : (s.clients c).hello = true) : StepView n s (.readerEnds c) (s.onExit c)
  | readerEnds (c : Nat) (hd : (s.clients c).alive = false) (hr : (s.clients c).reader = .reading)
      (hh : (s.clients c).hello = false) : StepView n s (.readerEnds c) (s.setReader c .done)
  | decideExit (c : Nat) (hadHello : Bool) (hr : (s.clients c).reader = .noted hadHello) :
      StepView n s (.decideExit c) (s.decideExit c hadHello n)
  | scheduleExit (c : Nat) (hr : (s.clients c).reader = .scheduling) :
      StepView n s (.scheduleExit c) (s.scheduleRestart.setReader c .done)
  | addStream (ha : s.addScheduling = false) : StepView n s .addStream { s with addScheduling := s.client.isNone }
  | scheduleAdd (ha : s.addScheduling = true) :
      StepView n s .scheduleAdd { s.scheduleRestart with addScheduling := false }
  | beginStop (hs : s.stopper = .idle) : StepView n s .beginStop s.beginStop
  | stopClient (c : Nat) (cs : List Nat) (hs : s.stopper = .stopping (c :: cs)) :
      StepView n s .stopClient { s.kill c with stopper := .stopping cs }
  | endStop (hs : s.stopper = .stopping []) : StepView n s .endStop { s with client := none, stopper := .done }

theorem step_view (hs : step n s a = some s') : StepView n s a s' := by
  cases a <;> simp only [step, stepAttempt, stepClient, stepOther] at hs
  case acquire =>
    split at hs <;> cases hs
    next h => exact .acquire h.1 h.2
  case readerEnds c =>
    split at hs <;> cases hs
    next h =>
      split
      next hh => exact .exited c h.1 h.2 hh
      next hh => exact .readerEnds c h.1 h.2 (by simpa using hh)
  case startRaises =>
    split at hs <;> try contradiction
    split at hs <;> cases hs
    next ha hh => exact .startRaises _ ha (by simpa using hh)
  case versionMismatch =>
    split at hs <;> try contradiction
    split at hs <;> cases hs
    next ha hh => exact .versionMismatch _ ha hh
  case startReturns =>
    split at hs <;> try contradiction
    split at hs <;> cases hs
    next ha hh => exact .startReturns _ ha hh
  case addStream =>
    split at hs <;> cases hs
    next ha => exact .addStream (by simpa using ha)
  case childExits => cases hs; exact .childExits _
  all_goals
    split at hs <;> cases hs
    first
    | exact .check ‹_› | exact .spawn _ ‹_› | exact .spawnFails _ ‹_› | exact .handleRaise _ ‹_›
    | exact .countFailure ‹_› | exact .decideFailure ‹_› | exact .scheduleFailure ‹_› | exact .install _ ‹_›
    | exact .stopRefused _ ‹_› | exact .beginReplay _ ‹_› | exact .endReplay ‹_› | exact .timerFires ‹_›
    | exact .childHello _ ‹_› | exact .decideExit _ _ ‹_› | exact .scheduleExit _ ‹_› | exact .scheduleAdd ‹_›
    | exact .beginStop ‹_› | exact .stopClient _ _ ‹_› | exact .endStop ‹_›

end RetailVision.ShardLifecycle
