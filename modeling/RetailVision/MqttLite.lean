/-
The MQTT client of the native runtime (`vb/src/out/mqtt_lite.cpp`) up to
`stop`: `publish`, which any thread calls, and the IO thread with its connect,
its publish and read loop, and what it does when the connection is lost. A
step is what the IO thread does between two places where a publish can come
in; time is in nanoseconds of the steady clock.

Left out: what is on the wire, the keepalive and the socket itself. That a
send or the connection fails is a choice of the step, as is what the broker
acknowledges.
-/
import RetailVision.Lib.Run
import RetailVision.Lib.BoundedQueue
import Mathlib.Data.List.Sort

set_option linter.all false

namespace RetailVision.MqttLite

open Lib

def kQueueLimit : Nat := 1024
def kInflightLimit : Nat := 16
def kPubackTimeout : Nat := 5000000000
/-- `sleep_for(milliseconds(5))` -/
def kLoopSleep : Nat := 5000000

/-- `Msg`. Its `origin` is the number of the `publish` that it is from, and
`none` for the client's own status; nothing looks at it. -/
structure Msg where
  topic : String
  payload : String
  qos : Nat
  retain : Bool
  retried : Bool
  origin : Option Nat
  deriving DecidableEq

/-- What is known of a message that awaits its PUBACK. -/
structure Pending where
  pid : Nat
  msg : Msg
  sentAt : Nat
  deriving DecidableEq

/-- `inflight_`, in the order the messages were sent. A map has one entry a
packet id. -/
structure Inflight where
  entries : List Pending
  nodup : (entries.map (·.pid)).Nodup

namespace Inflight

def empty : Inflight := ⟨[], List.nodup_nil⟩

/-- `inflight_.erase(pid)` -/
def erase (f : Inflight) (pid : Nat) : Inflight where
  entries := f.entries.filter fun e => e.pid ≠ pid
  nodup := f.nodup.sublist (List.filter_sublist.map _)

/-- `inflight_[pid] = {m, now}` -/
def set (f : Inflight) (pid : Nat) (m : Msg) (now : Nat) : Inflight where
  entries := (f.erase pid).entries ++ [{ pid := pid, msg := m, sentAt := now }]
  nodup := by
    rw [List.map_append, List.nodup_append]
    refine ⟨(f.erase pid).nodup, by simp, ?_⟩
    intro k hk j hj he
    obtain ⟨e, hm, rfl⟩ := List.mem_map.mp hk
    have hne : e.pid ≠ pid := by simpa using (List.mem_filter.mp hm).2
    exact hne (he.trans (by simpa using hj))

/-- The entries as the map is walked: by packet id. -/
def byPid (f : Inflight) : List Pending := f.entries.insertionSort fun e e' => e.pid ≤ e'.pid

end Inflight

/-- The messages to send again: those not sent again before, marked. -/
def toRetry (es : List Pending) : List Msg :=
  (es.filter fun e => !e.msg.retried).map fun e => { e.msg with retried := true }

/-- Where the IO thread is. -/
inductive Place
  /-- in `mqtt_connect` -/
  | connecting
  /-- connected; to publish the status -/
  | announcing
  /-- at the top of its loop -/
  | looping
  /-- has taken a message out of the queue, in the loop that began at `now` -/
  | publishing (m : Msg) (now : Nat)
  /-- to check the PUBACK timeouts -/
  | draining (now : Nat)
  /-- none has passed; parses what has been read -/
  | reading (now : Nat)
  | sleeping (since : Nat)
  /-- the connection is lost; what is still to be put back into the queue, in
  the order it is pushed -/
  | requeueing (todo : List Msg)
  /-- the backoff before the next connect -/
  | waiting
  deriving DecidableEq

structure State where
  queue : BoundedQueue Msg kQueueLimit
  inflight : Inflight
  nextPid : Nat
  place : Place
  now : Nat
  /-- the number of messages `publish` has accepted -/
  accepted : Nat

/-- `next_pid_` after a message with it: 65535 is followed by 1. -/
def nextPidAfter (pid : Nat) : Nat := pid % 65535 + 1

/-- The retained status that is published first after every connect. -/
def onlineStatus (topicRoot : String) : Msg where
  topic := topicRoot ++ "/status"
  payload := "\x7b\"online\":true,\"schema\":\"vb.status/1\"\x7d"
  qos := 1
  retain := true
  retried := false
  origin := none

namespace State

/-- `publish_now`, whose send has succeeded or not. -/
def publishNow (s : State) (m : Msg) (sent : Bool) : State :=
  if m.qos = 0 then s
  else
    let t := { s with nextPid := nextPidAfter s.nextPid }
    if sent then { t with inflight := s.inflight.set s.nextPid m s.now } else t

/-- The IO thread finds the connection lost, and collects what it will push
back; `requeue` is walked from its end. -/
def lose (s : State) : State := { s with place := .requeueing (toRetry s.inflight.byPid).reverse }

/-- What is done about a lost connection in one go. -/
def requeue (s : State) : State :=
  { s with
    queue := s.queue.pushAllFront (toRetry s.inflight.byPid)
    inflight := .empty
    place := .waiting }

end State

inductive Action
  /-- some thread publishes a message -/
  | publish (topicSuffix payload : String) (qos : Nat) (retain : Bool)
  | tick (d : Nat)
  | connect (ok : Bool)
  | announce (sent : Bool)
  /-- `take_and_publish`, up to the send -/
  | take
  | send (sent : Bool)
  | checkTimeouts
  | puback (pid : Nat)
  | readEnds (ok : Bool)
  | wake
  | pushFront
  | clear
  | reconnect
  deriving DecidableEq

/-- **One step.** -/
def step (topicRoot : String) (s : State) : Action → Option State
  | .publish topicSuffix payload qos retain => some { s with
      queue := s.queue.pushBack ⟨topicRoot ++ "/" ++ topicSuffix, payload, qos, retain, false, some s.accepted⟩
      accepted := s.accepted + 1 }
  | .tick d => some { s with now := s.now + d }
  | .connect ok => match s.place with
    | .connecting => some (if ok then { s with place := .announcing } else s.lose)
    | _ => none
  | .announce sent => match s.place with
    | .announcing =>
      let t := s.publishNow (onlineStatus topicRoot) sent
      some (if sent then { t with place := .looping } else t.lose)
    | _ => none
  | .take => match s.place with
    | .looping =>
      if kInflightLimit ≤ s.inflight.entries.length then some { s with place := .draining s.now }
      else match s.queue.popFront with
        | none => some { s with place := .draining s.now }
        | some (m, q) => some { s with queue := q, place := .publishing m s.now }
    | _ => none
  | .send sent => match s.place with
    | .publishing m now =>
      let t := s.publishNow m sent
      some (if sent then { t with place := .draining now } else t.lose)
    | _ => none
  | .checkTimeouts => match s.place with
    | .draining now =>
      some (if s.inflight.entries.any fun e => kPubackTimeout ≤ now - e.sentAt then s.lose
        else { s with place := .reading now })
    | _ => none
  | .puback pid => match s.place with
    | .reading _ => some { s with inflight := s.inflight.erase pid }
    | _ => none
  | .readEnds ok => match s.place with
    | .reading _ => some (if ok then { s with place := .sleeping s.now } else s.lose)
    | _ => none
  | .wake => match s.place with
    | .sleeping since => if since + kLoopSleep ≤ s.now then some { s with place := .looping } else none
    | _ => none
  | .pushFront => match s.place with
    | .requeueing (m :: todo) => some { s with queue := s.queue.pushFront m, place := .requeueing todo }
    | _ => none
  | .clear => match s.place with
    | .requeueing [] => some { s with inflight := .empty, place := .waiting }
    | _ => none
  | .reconnect => match s.place with
    | .waiting => some { s with place := .connecting }
    | _ => none

/-- A client that has started. -/
def start : State where
  queue := .empty (by decide)
  inflight := .empty
  nextPid := 1
  place := .connecting
  now := 0
  accepted := 0

end RetailVision.MqttLite
