/-
The MQTT client of the base (`vision_base/mqtt.py`) from the `connect` that
starts its IO thread: `publish`, `subscribe` and `close`, which other threads
call, and the sessions of the IO thread, one on each socket it opens. A step is
what a thread does between two places where another can come in: the connected
flag, `_sock` and the packet written under the send lock are looked at one
after the other.

Calls are numbered, a thread making one after the other; a waiter is that of
its call. What fails, when a wait ends and what the broker sends are choices of
the steps, and so is the packet id a call gets: `_next_pid` is also counted on
by subscribes, which do not hold the lock. A write that fails has written no
packet. Left out: the callbacks, the timers and the counters.
-/
import RetailVision.MqttPackets
import RetailVision.Lib.Run
import RetailVision.Lib.Dict
import Mathlib.Logic.Function.Basic

set_option linter.all false

namespace RetailVision.MqttClient

open Lib

/-- `MAX_PAYLOAD` -/
def maxPayload : Nat := 1024 * 1024

/-- What a thread calls. -/
inductive Request
  | publish (topic : Str) (payload : Bytes) (qos : Nat) (retain : Bool)
  | subscribe (topicFilter : Str) (qos : Int)
  | close
  deriving DecidableEq

inductive Outcome
  /-- what `publish` returns -/
  | returned (b : Bool)
  /-- `subscribe` or `close` is done -/
  | done
  | raised (e : Raised)
  deriving DecidableEq

/-- Where a call is. -/
inductive Call
  | idle
  /-- to look at `connected` -/
  | begun (r : Request)
  /-- has seen it set; to get its packet id -/
  | checked (r : Request)
  /-- to encode its packet -/
  | numbered (r : Request) (pid : Nat)
  /-- in `_send`, to read `_sock` -/
  | encoded (r : Request) (pid : Nat) (pkt : Bytes)
  /-- has read it; to write under the lock -/
  | writing (r : Request) (pid : Nat) (pkt : Bytes) (k : Nat)
  /-- the send has raised an `OSError` -/
  | failed (r : Request) (pid : Nat)
  /-- in `_handle_drop` -/
  | dropping (r : Request)
  /-- for the PUBACK or the SUBACK -/
  | waiting (r : Request) (pid : Nat)
  /-- its wait has ended without a PUBACK -/
  | unanswered (r : Request) (pid : Nat)
  /-- in `close`: to set `_stop`, and then to clear `_connected` -/
  | stopping
  | clearing
  | ended (r : Request) (o : Outcome)
  deriving DecidableEq

/-- `_SubEntry`, with the call it is from. -/
structure SubEntry where
  call : Nat
  topicFilter : Str
  qos : Int
  deriving DecidableEq

/-- `_Waiter` -/
structure Waiter where
  event : Bool
  result : Option Bool
  deriving DecidableEq

/-- Where the IO thread is; `k` is the socket of the session. -/
inductive Io
  /-- at the top of `_io_loop` -/
  | looping
  | connecting
  /-- `_sock` is set; to write the CONNECT -/
  | opened (k : Nat)
  | awaitingConnack (k : Nat)
  /-- CONNACK(0) is read; to set `_connected` -/
  | acknowledged (k : Nat)
  /-- to take the filters to subscribe again -/
  | connected (k : Nat)
  | resubscribing (k : Nat) (todo : List SubEntry)
  | awaitingSuback (k : Nat) (todo : List SubEntry)
  | traffic (k : Nat)
  /-- the session ends, by something not caught if `dies`; to close the socket -/
  | closing (k : Nat) (dies : Bool)
  /-- to clear `_sock` -/
  | closed (k : Nat) (dies : Bool)
  /-- `_run_session` has returned -/
  | returned
  /-- to clear `_connected` -/
  | disconnected
  /-- in `_fail_inflight` -/
  | failing
  | waiting
  | ended
  deriving DecidableEq

/-- What happens on a socket: a packet is written, a CONNACK is read. -/
inductive Event
  | wrote (pkt : Bytes)
  | connack (rc : UInt8)
  deriving DecidableEq

structure State where
  sock : Option Nat
  /-- the number of sockets opened so far -/
  sockets : Nat
  log : Nat → List Event
  closed : Nat → Bool
  connected : Bool
  stop : Bool
  subs : List SubEntry
  /-- by packet id, the call whose waiter it is -/
  inflight : Dict Nat Nat
  waiters : Nat → Waiter
  /-- the waiters the IO thread is to resolve, with their results -/
  toResolve : List (Nat × Bool)
  io : Io
  calls : Nat → Call

def start : State where
  sock := none
  sockets := 0
  log _ := []
  closed _ := false
  connected := false
  stop := false
  subs := []
  inflight := .empty
  waiters _ := ⟨false, none⟩
  toResolve := []
  io := .looping
  calls _ := .idle

namespace State

variable (s : State)

def setCall (t : Nat) (c : Call) : State := { s with calls := Function.update s.calls t c }

def setWaiter (t : Nat) (w : Waiter) : State := { s with waiters := Function.update s.waiters t w }

/-- What happens on a socket is kept. -/
def happens (k : Nat) (e : Event) : State := { s with log := Function.update s.log k (s.log k ++ [e]) }

def closeSocket (k : Nat) : State := { s with closed := Function.update s.closed k true }

end State

/-- What a call does. -/
inductive CallAction
  | begin (r : Request)
  | check
  /-- a slot is taken for a publish of QoS 1, or none has come free -/
  | register (pid : Nat)
  | giveUp
  /-- `_alloc_pid` of a subscribe -/
  | alloc (pid : Nat)
  | encode
  | readSock
  | write (ok : Bool)
  | handleError
  | handleDrop
  | wake
  | timeOut
  | pop
  | suback (rejected : Bool)
  | setStop
  | clear
  deriving DecidableEq

/-- What the IO thread does. -/
inductive IoAction
  | loop
  | connect (ok : Bool)
  | sendConnect (ok : Bool)
  | readConnack (body : Bytes)
  | setConnected
  | takeSubs
  | resubscribe (pid : Nat) (ok : Bool)
  | enterTraffic
  | readSuback (rc : UInt8)
  | ping (ok : Bool)
  | puback (pid : Nat)
  | replyPuback (pid : Nat) (ok : Bool)
  | sessionFails
  | closeSock
  | clearSock
  | sessionOver
  | clearConnected
  | failInflight
  | backOff
  deriving DecidableEq

inductive Action
  /-- a call of another thread -/
  | call (t : Nat) (a : CallAction)
  | unsubscribe (topicFilter : Str)
  | io (a : IoAction)
  /-- the IO thread sets the result of a waiter -/
  | resolve
  deriving DecidableEq

/-! ## The calls -/

namespace Request

/-- The call needs a packet id. -/
def needsPid : Request → Bool
  | .publish _ _ qos _ => qos = 1
  | .subscribe _ _ => true
  | .close => false

/-- What a call does where the client is not connected. -/
def notConnected (r : Request) : Call :=
  match r with
  | .publish _ _ _ _ => .ended r (.returned false)
  | .subscribe _ _ => .ended r .done
  | .close => .stopping

/-- The packet of a call. -/
def packet : Request → Nat → Except Raised Bytes
  | .publish topic payload qos retain, pid => encodePublish topic payload qos pid retain
  | .subscribe topicFilter qos, pid => encodeSubscribe pid topicFilter qos
  | .close, _ => .ok [0xE0, 0x00]

/-- What a call does when its packet is written. -/
def sent (r : Request) (pid : Nat) : Call :=
  match r with
  | .publish _ _ qos _ => if qos = 0 then .ended r (.returned true) else .waiting r pid
  | .subscribe _ _ => .waiting r pid
  | .close => .stopping

end Request

/-- The checks of a call's arguments, and what it does before it looks at `connected`. -/
def State.begin (s : State) (t : Nat) (r : Request) : State :=
  match r with
  | .publish _ payload qos _ =>
    if payload.length > maxPayload then s.setCall t (.ended r (.raised (.valueError "payload exceeds 1 MiB")))
    else if qos ≠ 0 ∧ qos ≠ 1 then s.setCall t (.ended r (.raised (.valueError "qos must be 0 or 1")))
    else s.setCall t (.begun r)
  | .subscribe topicFilter qos =>
    { s.setCall t (.begun r) with subs := (s.subs.filter fun e => e.topicFilter ≠ topicFilter) ++ [⟨t, topicFilter, qos⟩] }
  | .close => s.setCall t (.begun r)

/-- What a call does about an `OSError` of its send. -/
def State.handleError (s : State) (t : Nat) (r : Request) (pid : Nat) : State :=
  match r with
  | .publish _ _ qos _ =>
    if qos = 0 then s.setCall t (.dropping r)
    else { s.setCall t (.dropping r) with inflight := s.inflight.erase pid }
  | .subscribe _ _ => s.setCall t (.ended r .done)
  | .close => s.setCall t .stopping

/-- One step of a call. -/
def stepCall (c : Settings) (s : State) (t : Nat) : CallAction → Option State
  | .begin r => match s.calls t with
    | .idle => some (s.begin t r)
    | _ => none
  | .check => match s.calls t with
    | .begun r =>
      some (s.setCall t (if s.connected then (if r.needsPid then .checked r else .numbered r 0) else r.notConnected))
    | _ => none
  | .register pid => match s.calls t with
    | .checked (.publish topic payload qos retain) =>
      if h : s.inflight.get? pid = none then
        if s.inflight.entries.length < c.maxInflight ∧ 1 ≤ pid ∧ pid ≤ 65535 then some
          { (s.setCall t (.numbered (.publish topic payload qos retain) pid)).setWaiter t ⟨false, none⟩ with
            inflight := s.inflight.add pid t h }
        else none
      else none
    | _ => none
  -- The deadline has passed, or the client is no longer connected.
  | .giveUp => match s.calls t with
    | .checked (.publish topic payload qos retain) =>
      if c.maxInflight ≤ s.inflight.entries.length then
        some (s.setCall t (.ended (.publish topic payload qos retain) (.returned false)))
      else none
    | _ => none
  | .alloc pid => match s.calls t with
    | .checked (.subscribe topicFilter qos) =>
      if 1 ≤ pid ∧ pid ≤ 65535 then some (s.setCall t (.numbered (.subscribe topicFilter qos) pid)) else none
    | _ => none
  | .encode => match s.calls t with
    | .numbered r pid => match r.packet pid with
      | .error e => some (s.setCall t (.ended r (.raised e)))
      | .ok pkt => some (s.setCall t (.encoded r pid pkt))
    | _ => none
  | .readSock => match s.calls t with
    | .encoded r pid pkt => match s.sock with
      | none => some (s.setCall t (.failed r pid))
      | some k => some (s.setCall t (.writing r pid pkt k))
    | _ => none
  | .write ok => match s.calls t with
    | .writing r pid pkt k =>
      if ok then
        if s.closed k then none else some ((s.happens k (.wrote pkt)).setCall t (r.sent pid))
      else some (s.setCall t (.failed r pid))
    | _ => none
  | .handleError => match s.calls t with
    | .failed r pid => some (s.handleError t r pid)
    | _ => none
  | .handleDrop => match s.calls t with
    | .dropping r => match s.sock with
      | none => some (s.setCall t (.ended r (.returned false)))
      | some k => some ((s.closeSocket k).setCall t (.ended r (.returned false)))
    | _ => none
  | .wake => match s.calls t with
    | .waiting (.publish topic payload qos retain) pid =>
      if (s.waiters t).event then
        if (s.waiters t).result = some true then
          some (s.setCall t (.ended (.publish topic payload qos retain) (.returned true)))
        else some (s.setCall t (.unanswered (.publish topic payload qos retain) pid))
      else none
    | _ => none
  | .timeOut => match s.calls t with
    | .waiting (.publish topic payload qos retain) pid =>
      if (s.waiters t).event then none
      else some (s.setCall t (.unanswered (.publish topic payload qos retain) pid))
    | _ => none
  | .pop => match s.calls t with
    | .unanswered r pid => some
      { s.setCall t (.ended r (.returned ((s.waiters t).result = some true))) with inflight := s.inflight.erase pid }
    | _ => none
  | .suback rejected => match s.calls t with
    | .waiting (.subscribe topicFilter qos) _ =>
      if rejected then some
        { s.setCall t (.ended (.subscribe topicFilter qos) (.raised (.valueError "subscribe rejected"))) with
          subs := s.subs.filter fun e => e.call ≠ t }
      else some (s.setCall t (.ended (.subscribe topicFilter qos) .done))
    | _ => none
  | .setStop => match s.calls t with
    | .stopping => some { s.setCall t .clearing with stop := true }
    | _ => none
  | .clear => match s.calls t with
    | .clearing => some { s.setCall t (.ended .close .done) with connected := false }
    | _ => none

/-! ## The IO thread -/

/-- The socket the IO thread reads packets from. -/
def Io.reads : Io → Option Nat
  | .awaitingConnack k | .awaitingSuback k _ | .traffic k => some k
  | _ => none

/-- It acts on a PUBLISH and a PUBACK. -/
def Io.dispatches : Io → Option Nat
  | .awaitingSuback k _ | .traffic k => some k
  | _ => none

/-- The IO thread writes a packet, and the session ends where it cannot. -/
def State.writeIo (s : State) (k : Nat) (pkt : Bytes) (ok : Bool) (io : Io) : Option State :=
  if ok then
    if s.closed k then none else some { s.happens k (.wrote pkt) with io := io }
  else some { s with io := .closing k false }

/-- One step of the IO thread. -/
def stepIo (c : Settings) (s : State) : IoAction → Option State
  | .loop => match s.io with
    | .looping => some { s with io := if s.stop then .ended else .connecting }
    | _ => none
  | .connect ok => match s.io with
    | .connecting =>
      if ok then some { s with sock := some s.sockets, sockets := s.sockets + 1, io := .opened s.sockets }
      else some { s with io := .returned }
    | _ => none
  | .sendConnect ok => match s.io with
    | .opened k => match encodeConnect c with
      | .error _ => some { s with io := .closing k true }
      | .ok pkt => s.writeIo k pkt ok (.awaitingConnack k)
    | _ => none
  | .readConnack body => match s.io with
    | .awaitingConnack k =>
      let rc := body.getD 1 1
      some { s.happens k (.connack rc) with io := if rc = 0 then .acknowledged k else .closing k false }
    | _ => none
  | .setConnected => match s.io with
    | .acknowledged k => some { s with connected := true, io := .connected k }
    | _ => none
  | .takeSubs => match s.io with
    | .connected k => some { s with io := .resubscribing k s.subs }
    | _ => none
  | .resubscribe pid ok => match s.io with
    | .resubscribing k (e :: todo) =>
      if 1 ≤ pid ∧ pid ≤ 65535 then match encodeSubscribe pid e.topicFilter e.qos with
        | .error _ => some { s with io := .closing k true }
        | .ok pkt => s.writeIo k pkt ok (.awaitingSuback k todo)
      else none
    | _ => none
  | .enterTraffic => match s.io with
    | .resubscribing k [] => some { s with io := .traffic k }
    | _ => none
  | .readSuback rc => match s.io with
    | .awaitingSuback k todo => some { s with io := if rc = 0x80 then .closing k false else .resubscribing k todo }
    | _ => none
  | .ping ok => match s.io with
    | .traffic k => s.writeIo k [0xC0, 0x00] ok (.traffic k)
    | _ => none
  | .puback pid => match s.io.dispatches with
    | some _ => match s.inflight.get? pid with
      | some t => some { s with inflight := s.inflight.erase pid, toResolve := [(t, true)] }
      | none => some s
    | none => none
  -- `_on_publish` of QoS 1; it does not look at an `OSError`
  | .replyPuback pid ok => match s.io.dispatches, s.sock with
    | some _, some k =>
      if ok then
        if s.closed k then none else some (s.happens k (.wrote [0x40, 0x02, .ofNat (pid / 256), .ofNat (pid % 256)]))
      else some s
    | _, _ => none
  -- a timeout, a broken packet, a lost connection, or `_stop`
  | .sessionFails => match s.io.reads with
    | some k => some { s with io := .closing k false }
    | none => none
  | .closeSock => match s.io with
    | .closing k dies => some { s.closeSocket k with io := .closed k dies }
    | _ => none
  | .clearSock => match s.io with
    | .closed _ dies => some { s with sock := none, io := if dies then .ended else .returned }
    | _ => none
  | .sessionOver => match s.io with
    | .returned => some { s with io := if s.stop then .ended else .disconnected }
    | _ => none
  | .clearConnected => match s.io with
    | .disconnected => some { s with connected := false, io := .failing }
    | _ => none
  | .failInflight => match s.io with
    | .failing => some { s with
        inflight := .empty, toResolve := s.inflight.entries.map fun e => (e.2, false), io := .waiting }
    | _ => none
  | .backOff => match s.io with
    | .waiting => some { s with io := if s.stop then .ended else .looping }
    | _ => none

/-- `waiter.result` and `waiter.event.set()` -/
def State.resolve (s : State) : Option State :=
  match s.toResolve with
  | (t, b) :: rest => some { s.setWaiter t ⟨true, some b⟩ with toResolve := rest }
  | [] => none

/-- **One step of a client's threads.** -/
def step (c : Settings) (s : State) : Action → Option State
  | .call t a => stepCall c s t a
  | .unsubscribe topicFilter => some { s with subs := s.subs.filter fun e => e.topicFilter ≠ topicFilter }
  | .io a => if s.toResolve = [] then stepIo c s a else none
  | .resolve => s.resolve

variable {c : Settings} {s s' : State} {t : Nat} {a : CallAction}

/-! ## What a step changes -/

/-- What a step of a call leaves alone, and what it may change. -/
structure CallFrame (c : Settings) (s : State) (a : CallAction) (s' : State) : Prop where
  sock : s'.sock = s.sock
  sockets : s'.sockets = s.sockets
  io : s'.io = s.io
  log : s'.log = s.log ∨ ∃ t r pid pkt k, s.calls t = .writing r pid pkt k ∧ s'.log = (s.happens k (.wrote pkt)).log
  writing : ∀ t r pid pkt k, s'.calls t = .writing r pid pkt k → s.calls t = .writing r pid pkt k ∨ a = .readSock ∧ s.sock = some k
  checked : ∀ t r, s'.calls t = .checked r → s.calls t = .checked r ∨ s.connected = true
  connected : s'.connected = true → s.connected = true
  inflight : (∀ e ∈ s'.inflight.entries, e ∈ s.inflight.entries) ∨ 0 < c.maxInflight ∧ ∃ t r, s.calls t = .checked r

/-- A call is neither to write nor to get a packet id. -/
def Call.Quiet : Call → Prop
  | .writing _ _ _ _ | .checked _ => False
  | _ => True

/-- A call that is quiet goes on. -/
theorem CallFrame.move {call : Call} {log : Nat → List Event} {closed : Nat → Bool} {connected stop : Bool} {subs : List SubEntry}
    {inflight : Dict Nat Nat} (hcall : call.Quiet)
    (hlog : log = s.log ∨ ∃ t r pid pkt k, s.calls t = .writing r pid pkt k ∧ log = (s.happens k (.wrote pkt)).log)
    (hconnected : connected = true → s.connected = true) (hinflight : ∀ e ∈ inflight.entries, e ∈ s.inflight.entries) :
    CallFrame c s a { s.setCall t call with
      log := log, closed := closed, connected := connected, stop := stop, subs := subs, inflight := inflight } := by
  have hother : ∀ u, (s.setCall t call).calls u = s.calls u ∨ ((s.setCall t call).calls u).Quiet := by
    intro u
    by_cases hu : u = t
    · subst hu
      rw [show (s.setCall u call).calls u = call from Function.update_self ..]
      exact .inr hcall
    · exact .inl (Function.update_of_ne hu ..)
  refine ⟨rfl, rfl, rfl, hlog, fun u r pid pkt k hw => .inl ?_, fun u r hw => .inl ?_, hconnected, .inl hinflight⟩
  · obtain he | he := hother u
    · exact he ▸ hw
    · rw [show (s.setCall t call).calls u = .writing r pid pkt k from hw] at he
      exact he.elim
  · obtain he | he := hother u
    · exact he ▸ hw
    · rw [show (s.setCall t call).calls u = .checked r from hw] at he
      exact he.elim

/-- A call that is quiet goes on, and gives back no slot. -/
theorem CallFrame.set {call : Call} {closed : Nat → Bool} {stop : Bool} {subs : List SubEntry} (hcall : call.Quiet) :
    CallFrame c s a { s.setCall t call with closed := closed, stop := stop, subs := subs } :=
  .move hcall (.inl rfl) (fun h => h) fun _ h => h

/-- A call that is quiet gives back its slot. -/
theorem CallFrame.erase {call : Call} {pid : Nat} (hcall : call.Quiet) :
    CallFrame c s a { s.setCall t call with inflight := s.inflight.erase pid } :=
  .move hcall (.inl rfl) (fun h => h) fun e h => (Dict.mem_erase.mp (show (e.1, e.2) ∈ _ from h)).1

theorem notConnected_quiet (r : Request) : r.notConnected.Quiet := by
  cases r <;> trivial

theorem sent_quiet (r : Request) (pid : Nat) : (r.sent pid).Quiet := by
  cases r <;> simp only [Request.sent]
  · split <;> trivial
  · trivial
  · trivial

theorem begin_frame (t : Nat) (r : Request) : CallFrame c s a (s.begin t r) := by
  cases r <;> simp only [State.begin]
  · split
    · exact .set (by trivial)
    · split
      · exact .set (by trivial)
      · exact .set (by trivial)
  · exact .set (by trivial)
  · exact .set (by trivial)

theorem handleError_frame (t : Nat) (r : Request) (pid : Nat) : CallFrame c s a (s.handleError t r pid) := by
  cases r <;> simp only [State.handleError]
  · split
    · exact .set (by trivial)
    · exact .erase (by trivial)
  · exact .set (by trivial)
  · exact .set (by trivial)

theorem stepCall_frame (hs : stepCall c s t a = some s') : CallFrame c s a s' := by
  cases a <;> simp only [stepCall] at hs
  case begin r =>
    split at hs <;> cases hs
    exact begin_frame t r
  case check =>
    split at hs <;> cases hs
    split
    · next hc =>
      split
      · refine ⟨rfl, rfl, rfl, .inl rfl, fun u r' pid pkt k hw => ?_, fun _ _ _ => .inr hc, fun h => h, .inl fun _ h => h⟩
        by_cases hu : u = t
        · subst hu
          rw [show (s.setCall u _).calls u = _ from Function.update_self ..] at hw
          cases hw
        · rw [show (s.setCall t _).calls u = s.calls u from Function.update_of_ne hu ..] at hw
          exact .inl hw
      · exact .set (by trivial)
    · exact .set (notConnected_quiet _)
  case register pid =>
    split at hs
    · next topic payload qos retain hc =>
      split at hs
      · split at hs <;> cases hs
        next hg =>
        have hset := @CallFrame.set c s t (.register pid) (.numbered (.publish topic payload qos retain) pid) s.closed s.stop s.subs trivial
        refine ⟨rfl, rfl, rfl, .inl rfl, hset.writing, hset.checked, fun h => h, .inr ⟨Nat.lt_of_le_of_lt (Nat.zero_le _) hg.1, t, _, hc⟩⟩
      · cases hs
    · cases hs
  case giveUp =>
    split at hs
    · split at hs <;> cases hs
      exact .set (by trivial)
    · cases hs
  case alloc pid =>
    split at hs
    · split at hs <;> cases hs
      exact .set (by trivial)
    · cases hs
  case encode =>
    split at hs
    · split at hs <;> cases hs
      · exact .set (by trivial)
      · exact .set (by trivial)
    · cases hs
  case readSock =>
    split at hs
    · next r pid pkt _ =>
      split at hs <;> cases hs
      · exact .set (by trivial)
      · next k hk =>
        have hself : (s.setCall t (.writing r pid pkt k)).calls t = .writing r pid pkt k := Function.update_self ..
        have hne : ∀ {u}, u ≠ t → (s.setCall t (.writing r pid pkt k)).calls u = s.calls u := fun hu => Function.update_of_ne hu ..
        refine ⟨rfl, rfl, rfl, .inl rfl, fun u r' pid' pkt' k' hw => ?_, fun u r' hw => .inl ?_, fun h => h, .inl fun _ h => h⟩
        · by_cases hu : u = t
          · subst hu
            rw [hself] at hw
            cases hw
            exact .inr ⟨rfl, hk⟩
          · rw [hne hu] at hw
            exact .inl hw
        · by_cases hu : u = t
          · subst hu
            rw [hself] at hw
            cases hw
          · rw [hne hu] at hw
            exact hw
    · cases hs
  case write ok =>
    split at hs
    · next r pid pkt k hc =>
      split at hs
      · split at hs <;> cases hs
        exact .move (sent_quiet r pid) (.inr ⟨t, r, pid, pkt, k, hc, rfl⟩) (fun h => h) fun _ h => h
      · cases hs
        exact .set (by trivial)
    · cases hs
  case handleError =>
    split at hs <;> cases hs
    exact handleError_frame t _ _
  case handleDrop =>
    split at hs
    · split at hs <;> cases hs
      · exact .set (by trivial)
      · exact .set (by trivial)
    · cases hs
  case wake =>
    split at hs
    · split at hs
      · split at hs <;> cases hs
        · exact .set (by trivial)
        · exact .set (by trivial)
      · cases hs
    · cases hs
  case timeOut =>
    split at hs
    · split at hs <;> cases hs
      exact .set (by trivial)
    · cases hs
  case pop =>
    split at hs <;> cases hs
    exact .erase (by trivial)
  case suback rejected =>
    split at hs
    · split at hs <;> cases hs
      · exact .set (by trivial)
      · exact .set (by trivial)
    · cases hs
  case setStop =>
    split at hs <;> cases hs
    exact .set (by trivial)
  case clear =>
    split at hs <;> cases hs
    exact .move (by trivial) (.inl rfl) (fun h => by cases h) fun _ h => h

/-- What a step of the IO thread changes of the calls. -/
inductive IoMove (s s' : State) : Prop
  | same (calls : s'.calls = s.calls) (waiters : s'.waiters = s.waiters) (inflight : s'.inflight = s.inflight)
    (toResolve : s'.toResolve = s.toResolve)
  /-- a PUBACK -/
  | acknowledges (pid t : Nat) (get : s.inflight.get? pid = some t) (calls : s'.calls = s.calls) (waiters : s'.waiters = s.waiters)
    (inflight : s'.inflight = s.inflight.erase pid) (toResolve : s'.toResolve = [(t, true)])
  /-- the connection is lost -/
  | fails (calls : s'.calls = s.calls) (waiters : s'.waiters = s.waiters) (inflight : s'.inflight = .empty)
    (toResolve : s'.toResolve = s.inflight.entries.map fun e => (e.2, false))

theorem writeIo_same {k : Nat} {pkt : Bytes} {ok : Bool} {io : Io} (hs : s.writeIo k pkt ok io = some s') : IoMove s s' := by
  simp only [State.writeIo] at hs
  split at hs
  · split at hs <;> cases hs
    exact .same rfl rfl rfl rfl
  · cases hs
    exact .same rfl rfl rfl rfl

theorem stepIo_move {a : IoAction} (hs : stepIo c s a = some s') : IoMove s s' := by
  cases a <;> simp only [MqttClient.stepIo] at hs
  case puback pid =>
    split at hs
    · split at hs <;> cases hs
      · next t ht => exact .acknowledges pid t ht rfl rfl rfl rfl
      · exact .same rfl rfl rfl rfl
    · cases hs
  case failInflight =>
    split at hs <;> cases hs
    exact .fails rfl rfl rfl rfl
  case connect ok =>
    split at hs
    · split at hs <;> cases hs <;> exact .same rfl rfl rfl rfl
    · cases hs
  case sendConnect ok =>
    split at hs
    · split at hs
      · cases hs
        exact .same rfl rfl rfl rfl
      · exact writeIo_same hs
    · cases hs
  case resubscribe pid ok =>
    split at hs
    · split at hs
      · split at hs
        · cases hs
          exact .same rfl rfl rfl rfl
        · exact writeIo_same hs
      · cases hs
    · cases hs
  case ping ok =>
    split at hs
    · exact writeIo_same hs
    · cases hs
  case replyPuback pid ok =>
    split at hs
    · split at hs
      · split at hs <;> cases hs
        exact .same rfl rfl rfl rfl
      · cases hs
        exact .same rfl rfl rfl rfl
    · cases hs
  all_goals
    split at hs <;> cases hs
    exact .same rfl rfl rfl rfl

end RetailVision.MqttClient
