/-
Adding and removing streams between a shard and its live native runtime: on
one side `Shard.add_stream` and `remove_stream` over `RuntimeClient.request`,
on the other `op_add` and `op_remove` in the native control thread, between
them two directions of one socket. Messages, the native operations and the
client's timeouts take any time they like.

A request that could not be written in time may have left the front of its
line on the socket (`torn`); the next line then completes it to something
that is no JSON, so it is lost too. The children's exits and restarts are
the life of the client, not of this protocol.
-/
import RetailVision.Lib.Run
import Mathlib.Data.List.Nodup

set_option linter.all false

namespace RetailVision.ShardProtocol

open Lib

/-- What a control line asks of the native runtime. -/
inductive Body
  | add (index : Nat)
  | remove (index : Nat)
  deriving DecidableEq

/-- A line on its way to the native runtime. -/
inductive Line
  | request (req : Nat) (body : Body)
  /-- no JSON: the rest of a line and another one -/
  | garbled
  deriving DecidableEq

/-- A reply on its way back; the reply to no JSON has no `req`. -/
structure Reply where
  req : Option Nat
  ok : Bool
  deriving DecidableEq

/-- The native control thread: idle, or in an operation that takes time. -/
inductive Native
  | idle
  | adding (req index : Nat)
  | removing (req index : Nat)
  deriving DecidableEq

/-- A call of `Shard.add_stream` or `remove_stream`, with its stream's id and
index. -/
inductive Call
  | add (sid : String) (index : Nat)
  | remove (sid : String) (index : Nat)
  deriving DecidableEq

def Call.index : Call → Nat
  | .add _ i | .remove _ i => i

def Call.body : Call → Body
  | .add _ i => .add i
  | .remove _ i => .remove i

/-- The shard's control thread. `reply` is what the reader put into the
request's entry of `_pending`. -/
inductive Control
  | idle
  | sending (c : Call)
  | waiting (c : Call) (req : Nat) (reply : Option Bool)
  deriving DecidableEq

structure State where
  /-- `_next_index` -/
  nextIndex : Nat
  /-- `_by_stream_id` -/
  byStreamId : List (String × Nat)
  /-- `_active` -/
  active : List Nat
  control : Control
  /-- the last of the client's request ids -/
  reqIds : Nat
  torn : Bool
  toNative : List Line
  toShard : List Reply
  native : Native
  /-- the indices of `Runtime::streams_` -/
  streams : List Nat
  deriving DecidableEq

namespace State

/-- `add_stream`, up to its request: the stream is registered. -/
def register (s : State) (sid : String) : State :=
  { s with
    nextIndex := s.nextIndex + 1
    byStreamId := s.byStreamId ++ [(sid, s.nextIndex)]
    active := s.active ++ [s.nextIndex]
    control := .sending (.add sid s.nextIndex) }

/-- An entry of `_by_stream_id` is dropped if it still has this index, and
the index is no longer active. -/
def unregister (s : State) (sid : String) (index : Nat) : State :=
  { s with
    byStreamId := s.byStreamId.filter (· ≠ (sid, index))
    active := s.active.filter (· ≠ index) }

/-- The request failed: `_rollback_add`, or `remove_stream` raises. -/
def fail (s : State) : Call → State
  | .add sid i => { s.unregister sid i with control := .idle }
  | .remove _ _ => { s with control := .idle }

/-- The request succeeded. -/
def succeed (s : State) : Call → State
  | .add _ _ => { s with control := .idle }
  | .remove sid i => { s.unregister sid i with control := .idle }

/-- `_send_all` of a whole line. -/
def send (s : State) (c : Call) : State :=
  { s with
    control := .waiting c (s.reqIds + 1) none
    reqIds := s.reqIds + 1
    torn := false
    toNative := s.toNative ++ [if s.torn then .garbled else .request (s.reqIds + 1) c.body] }

def reply (s : State) (req : Option Nat) (ok : Bool) : State := { s with toShard := s.toShard ++ [⟨req, ok⟩] }

/-- `handle_line`, as far as it takes no time: an index in use, or not there,
is answered at once. -/
def handleLine (s : State) : Line → State
  | .garbled => s.reply none false
  | .request req (.add i) => if i ∈ s.streams then s.reply (some req) false else { s with native := .adding req i }
  | .request req (.remove i) => if i ∈ s.streams then { s with native := .removing req i } else s.reply (some req) false

/-- `_dispatch_control` of a reply: the waiting request's entry is filled in,
any other reply dropped. -/
def dispatch (s : State) (r : Reply) : State :=
  match s.control with
  | .waiting c req _ => if r.req = some req then { s with control := .waiting c req (some r.ok) } else s
  | _ => s

/-- Nothing is pending, nothing under way. -/
def Quiescent (s : State) : Prop := s.control = .idle ∧ s.toNative = [] ∧ s.toShard = [] ∧ s.native = .idle

end State

inductive Action
  | addStream (sid : String)
  | removeStream (sid : String)
  | send
  /-- the deadline passes before the line is written; part of it may be -/
  | sendTimeout (torn : Bool)
  | takeReply
  | timeout
  /-- the client's reader thread -/
  | recv
  /-- the native control thread takes the next line -/
  | handleLine
  /-- the operation in the native control thread ends -/
  | nativeDone (ok : Bool)
  deriving DecidableEq

/-- **One step of the shard, its client or the native runtime.** A call that
raises before its request (`duplicate stream_id`, `unknown stream`) changes
nothing. -/
def step (s : State) : Action → Option State
  | .addStream sid => match s.control with
    | .idle => some (if sid ∈ s.byStreamId.map (·.1) then s else s.register sid)
    | _ => none
  | .removeStream sid => match s.control with
    | .idle => match s.byStreamId.find? (·.1 = sid) with
      | some (_, i) => some { s with control := .sending (.remove sid i) }
      | none => some s
    | _ => none
  | .send => match s.control with
    | .sending c => some (s.send c)
    | _ => none
  | .sendTimeout torn => match s.control with
    | .sending c => some ({ s with reqIds := s.reqIds + 1, torn := s.torn || torn }.fail c)
    | _ => none
  | .takeReply => match s.control with
    | .waiting c _ (some ok) => some (if ok then s.succeed c else s.fail c)
    | _ => none
  | .timeout => match s.control with
    | .waiting c _ none => some (s.fail c)
    | _ => none
  | .recv => match s.toShard with
    | r :: rest => some ({ s with toShard := rest }.dispatch r)
    | [] => none
  | .handleLine => match s.native, s.toNative with
    | .idle, l :: rest => some ({ s with toNative := rest }.handleLine l)
    | _, _ => none
  | .nativeDone ok => match s.native with
    | .adding req i =>
      some ({ s with native := .idle, streams := if ok then s.streams ++ [i] else s.streams }.reply (some req) ok)
    | .removing req i =>
      some ({ s with native := .idle, streams := if ok then s.streams.filter (· ≠ i) else s.streams }.reply
        (some req) ok)
    | .idle => none

/-- A shard and a runtime with no streams. -/
def start : State where
  nextIndex := 0
  byStreamId := []
  active := []
  control := .idle
  reqIds := 0
  torn := false
  toNative := []
  toShard := []
  native := .idle
  streams := []

end RetailVision.ShardProtocol
