/-
The supervisor's control plane (`vision_base/supervisor.py`) with the shards
it runs, as a transition system: the command thread (`_cmd_loop`, one
operation at a time, a step for each place it can be overtaken), the shard
processes at the other end of the pipes, a reader thread for each of them,
the watchdog and its restarts.

A `_ShardHandle` is an object the command thread may hold on to while the
watchdog replaces it in `self.shards`, so handles live on a heap and
`shards` lists references. What a shard process makes of its messages is
`Shard.add_stream`, `Shard.remove_stream` and `Shard.set_threshold` on the
map `_by_stream_id`, given the answer of the native runtime below it, which
may be anything.

Left out: what no operation reads (publishing, status, heartbeat bodies, the
restart counters of `/healthz`). Time is left to the actions: a wait may end
in its timeout whenever it has not been satisfied.
-/
import RetailVision.Json
import RetailVision.Lib.Run
import RetailVision.Lib.Bins

set_option linter.all false

namespace RetailVision.Supervisor

/-- A stream dict: one of the configuration, or as `ops_add_stream` builds it
from a command. -/
structure Stream where
  dict : List (String × Json)

namespace Stream

def json (st : Stream) : Json := .obj st.dict

/-- `s["stream_id"]` -/
def streamId (st : Stream) : String :=
  match st.json.find "stream_id" with
  | some (.str sid) => sid
  | _ => ""

/-- `s.get("score_threshold")` -/
def scoreThreshold (st : Stream) : Json := (st.json.find "score_threshold").getD .null

/-- `s["score_threshold"] = v` -/
def setThreshold (st : Stream) (v : Json) : Stream := ⟨Json.setMember "score_threshold" v st.dict⟩

theorem find_setThreshold {st : Stream} {v : Json} {k : String} (hk : k ≠ "score_threshold") :
    (st.setThreshold v).json.find k = st.json.find k := Json.find_setMember_ne hk

@[simp] theorem streamId_setThreshold {st : Stream} {v : Json} : (st.setThreshold v).streamId = st.streamId := by
  unfold streamId
  rw [find_setThreshold (by decide)]

@[simp] theorem scoreThreshold_setThreshold {st : Stream} {v : Json} : (st.setThreshold v).scoreThreshold = v := by
  simp [scoreThreshold, setThreshold, json]

end Stream

/-- What the supervisor reads of its configuration. `workers` is `none` for
`"auto"`, `streamsFile` whether a file to persist to is named. -/
structure Config where
  workers : Option Nat
  maxStreamsPerWorker : Nat
  maxStreams : Nat
  streamsFile : Bool

/-- A command of the control plane, and the message it becomes. -/
inductive Request
  | addStream (s : Stream)
  | removeStream (sid : String)
  | setThreshold (sid : String) (value : Json)

structure Msg where
  req : Nat
  body : Request

/-- A reply of a shard; an `ok` reply has no error. -/
structure Reply where
  ok : Bool
  error : String
  deriving DecidableEq

/-! ## The shard process -/

/-- What the native runtime makes of a request: it does it, it is down (the
shard holds no client), or the request raises. -/
inductive Answer
  | ok
  | restarting
  | raises (error : String)
  deriving DecidableEq

/-- `Shard.add_stream` on the keys of `_by_stream_id`, with its result or
what it raises: the stream is registered unless its id is taken, and
unregistered again if the request raises. -/
def shardAddStream (byStreamId : List String) (sid : String) (ans : Answer) :
    List String × Except String Reply :=
  if sid ∈ byStreamId then (byStreamId, .error ("ValueError: duplicate stream_id '" ++ sid ++ "'"))
  else match ans with
    | .ok => (byStreamId ++ [sid], .ok ⟨true, ""⟩)
    | .restarting => (byStreamId ++ [sid], .ok ⟨false, "runtime restarting"⟩)
    | .raises e => (byStreamId, .error e)

/-- `Shard.remove_stream`: with no client the request is skipped. -/
def shardRemoveStream (byStreamId : List String) (sid : String) (ans : Answer) :
    List String × Except String Reply :=
  if sid ∈ byStreamId then
    match ans with
    | .ok | .restarting => (byStreamId.filter (· ≠ sid), .ok ⟨true, ""⟩)
    | .raises e => (byStreamId, .error e)
  else (byStreamId, .error ("KeyError: \"unknown stream '" ++ sid ++ "'\""))

/-- `Shard.set_threshold`. -/
def shardSetThreshold (byStreamId : List String) (sid : String) (ans : Answer) :
    List String × Except String Reply :=
  if sid ∈ byStreamId then
    match ans with
    | .ok => (byStreamId, .ok ⟨true, ""⟩)
    | .restarting => (byStreamId, .error "RuntimeGone: runtime not running")
    | .raises e => (byStreamId, .error e)
  else (byStreamId, .error ("KeyError: \"unknown stream '" ++ sid ++ "'\""))

/-- `ShardWorker.run` on one message: a raise becomes the reply's error. -/
def shardHandle (byStreamId : List String) (c : Request) (ans : Answer) : List String × Reply :=
  let (ids, r) := match c with
    | .addStream s => shardAddStream byStreamId s.streamId ans
    | .removeStream sid => shardRemoveStream byStreamId sid ans
    | .setThreshold sid _ => shardSetThreshold byStreamId sid ans
  match r with
  | .ok r => (ids, r)
  | .error e => (ids, ⟨false, e⟩)

/-- What a shard process sends its supervisor. A heartbeat carries the
runtime's hello, once there is one. -/
inductive Out
  | started
  | heartbeat (exclusiveDevice : Option Bool)
  | reply (req : Nat) (r : Reply)

inductive WorkerPhase
  /-- Adding the streams it was started with. -/
  | starting (todo : List Stream)
  | running
  | exited

/-- The process (or thread) at the other end of a handle's pipe: its streams,
the messages it has not received and those the reader has not. -/
structure Worker where
  phase : WorkerPhase
  byStreamId : List String
  inbox : List Msg
  outbox : List Out

/-! ## The supervisor -/

/-- `_ShardHandle`. `streams` is the supervisor's own list of what the shard
runs. -/
structure Handle where
  index : Nat
  streams : List Stream
  restarting : Bool
  started : Bool
  worker : Worker

/-- Where the command thread stands in an operation. `fresh` marks an add to
a shard spawned for it. -/
inductive Op
  | idle
  /-- `_spawn_shard` for a stream no shard takes -/
  | spawning (s : Stream)
  /-- `_await_shard_started` -/
  | awaiting (h : Nat) (s : Stream)
  /-- `_send_op`, before `conn.send` -/
  | sending (h : Nat) (fresh : Bool) (c : Request)
  /-- `_send_op`, waiting for the reply -/
  | waiting (h : Nat) (fresh : Bool) (c : Request) (req : Nat)
  /-- the reply said ok -/
  | committing (h : Nat) (c : Request)
  /-- `_discard_shard`, before its failure is raised -/
  | discarding (h : Nat) (c : Request) (error : String)
  /-- committed, `_persist_streams` to come -/
  | persisting (c : Request)

/-- An ack: the command and, where it failed, the error. -/
structure Ack where
  cmd : Request
  error : Option String

structure State where
  heap : Nat → Handle
  /-- the first reference not in use -/
  next : Nat
  /-- `self.shards` -/
  shards : List Nat
  /-- `self._pending` -/
  pending : List (Nat × Reply)
  reqCounter : Nat
  /-- `self.hello`: the backend's `exclusive_device`, once a heartbeat told -/
  hello : Option Bool
  op : Op
  acks : List Ack
  /-- what `_persist_streams` wrote last -/
  persisted : Option (List Stream)

namespace State

/-- `[s for h in self.shards for s in h.streams]` -/
def streams (s : State) : List Stream := s.shards.flatMap fun h => (s.heap h).streams

/-- The stream ids over all handles, in order. -/
def ids (s : State) : List String := s.streams.map (·.streamId)

/-- Change one handle. -/
def modify (s : State) (h : Nat) (f : Handle → Handle) : State :=
  { s with heap := Function.update s.heap h (f (s.heap h)) }

def ack (s : State) (cmd : Request) (error : Option String) : State :=
  { s with op := .idle, acks := s.acks ++ [⟨cmd, error⟩] }

end State

def Handle.withWorker (hd : Handle) (f : Worker → Worker) : Handle := { hd with worker := f hd.worker }

/-- A handle as `_spawn_shard` makes it, its process about to add `streams`. -/
def newHandle (index : Nat) (streams : List Stream) : Handle where
  index := index
  streams := streams
  restarting := false
  started := false
  worker := { phase := .starting streams, byStreamId := [], inbox := [], outbox := [] }

/-- The first of the handles with the fewest streams. -/
def leastLoaded (heap : Nat → Handle) : List Nat → Option Nat
  | [] => none
  | h :: hs =>
    match leastLoaded heap hs with
    | none => some h
    | some k => if (heap k).streams.length < (heap h).streams.length then some k else some h

/-- `_pick_shard_for_add` -/
def pickShardForAdd (cfg : Config) (s : State) : Option Nat :=
  let live := s.shards.filter fun h => !(s.heap h).restarting
  if cfg.maxStreamsPerWorker = 0 then live.head?
  else leastLoaded s.heap (live.filter fun h => (s.heap h).streams.length < cfg.maxStreamsPerWorker)

/-- The handle that lists a stream, for the operations on one. -/
def findHandle (s : State) (sid : String) : Option Nat :=
  s.shards.find? fun h => (s.heap h).streams.any (·.streamId == sid)

/-- The start of an operation, up to its first wait: `ops_add_stream`,
`ops_remove_stream` and `ops_set_threshold` choosing their handle, or
refusing the command. -/
def takeUp (cfg : Config) (s : State) (c : Request) : State :=
  match c with
  | .addStream st =>
    if cfg.maxStreams ≤ s.streams.length then
      s.ack c (some ("at most " ++ toString cfg.maxStreams ++ " streams"))
    else match pickShardForAdd cfg s with
      | some h => { s with op := .sending h false c }
      | none =>
        if s.hello = some true then s.ack c (some "exclusive device allows a single shard")
        else match cfg.workers with
          | some n =>
            if n ≤ s.shards.length then s.ack c (some ("workers limit " ++ toString n ++ " reached"))
            else { s with op := .spawning st }
          | none => { s with op := .spawning st }
  | .removeStream sid | .setThreshold sid _ =>
    match findHandle s sid with
    | some h => { s with op := .sending h false c }
    | none => s.ack c (some ("unknown stream " ++ sid))

/-- What a failed operation does next: a fresh shard is discarded first. -/
def State.fail (s : State) (h : Nat) (fresh : Bool) (c : Request) (error : String) : State :=
  if fresh then { s with op := .discarding h c error } else s.ack c (some error)

/-- `_spawn_shard` for an add, and its append to `self.shards`. -/
def State.spawnShard (s : State) (st : Stream) : State :=
  { s with
    heap := Function.update s.heap s.next (newHandle s.shards.length [])
    next := s.next + 1
    shards := s.shards ++ [s.next]
    op := .awaiting s.next st }

/-- `_send_op`: the message leaves under the next request id. -/
def State.sendOp (s : State) (h : Nat) (fresh : Bool) (c : Request) : State :=
  { s.modify h (·.withWorker fun w => { w with inbox := w.inbox ++ [⟨s.reqCounter + 1, c⟩] }) with
    op := .waiting h fresh c (s.reqCounter + 1)
    reqCounter := s.reqCounter + 1 }

/-- `self._pending.pop(req)` -/
def State.popReply (s : State) (req : Nat) : State := { s with pending := s.pending.filter (·.1 != req) }

/-- `_discard_shard`, and the failure it was for. -/
def State.discardShard (s : State) (h : Nat) (c : Request) (error : String) : State :=
  { s.modify h (·.withWorker fun w => { w with phase := .exited }) with
    shards := s.shards.erase h }.ack c (some error)

/-- The list a handle keeps after an operation its shard said ok to. -/
def commitStreams (streams : List Stream) : Request → List Stream
  | .addStream st => streams ++ [st]
  | .removeStream sid => streams.filter fun st => st.streamId ≠ sid
  | .setThreshold sid v =>
    streams.map fun st => if st.streamId = sid then st.setThreshold v else st

/-- The commit of an operation, in whatever handle it holds. -/
def State.commit (s : State) (h : Nat) (c : Request) : State :=
  let s := s.modify h fun hd => { hd with streams := commitStreams hd.streams c }
  match c with
  | .setThreshold _ _ => s.ack c none
  | _ => { s with op := .persisting c }

/-- `_persist_streams` -/
def State.persistStreams (s : State) (cfg : Config) : State :=
  if cfg.streamsFile then { s with persisted := some s.streams } else s

/-- `_reader_loop` on one message. -/
def State.receive (s : State) (h : Nat) (o : Out) (outbox : List Out) : State :=
  let read := fun hd : Handle => hd.withWorker fun w => { w with outbox := outbox }
  match o with
  | .started => s.modify h fun hd => { read hd with started := true }
  | .heartbeat excl => { s.modify h fun hd => { read hd with started := true } with hello := s.hello.or excl }
  | .reply req r => { s.modify h read with pending := (req, r) :: s.pending.filter (·.1 != req) }

/-- `_restart_shard`: the old process has been reclaimed; the streams are read
and the new handle put in place under one lock. -/
def State.restartShard (s : State) (h : Nat) : State :=
  let t := s.modify h (·.withWorker fun w => { w with phase := .exited })
  { t with
    heap := Function.update t.heap s.next (newHandle (s.heap h).index (s.heap h).streams)
    next := s.next + 1
    shards := s.shards.map fun k => if k = h then s.next else k }

inductive Action
  /-- the command thread takes up the next command -/
  | takeUp (c : Request)
  | spawn
  | spawnFails (error : String)
  | shardStarted
  | startTimeout
  | send
  | sendFails (error : String)
  | takeReply
  | replyTimeout
  | discard
  | commit
  | persist
  | persistFails (error : String)
  /-- a shard process adds the next stream it was started with -/
  | workerAdd (h : Nat) (ans : Answer)
  | workerStarted (h : Nat)
  | workerBeat (h : Nat) (exclusiveDevice : Option Bool)
  | workerRecv (h : Nat) (ans : Answer)
  | workerExit (h : Nat)
  /-- the reader thread of a handle receives one message -/
  | readerRecv (h : Nat)
  /-- the watchdog finds the shard dead or stalled -/
  | watchdog (h : Nat)
  /-- the restart thread puts a new shard in its place -/
  | restartShard (h : Nat)

/-- One step of the command thread. -/
def stepOp (cfg : Config) (s : State) : Action → Option State
  | .takeUp c => match s.op with
    | .idle => some (takeUp cfg s c)
    | _ => none
  | .spawn => match s.op with
    | .spawning st => some (s.spawnShard st)
    | _ => none
  | .spawnFails e => match s.op with
    | .spawning st => some (s.ack (.addStream st) (some e))
    | _ => none
  | .shardStarted => match s.op with
    | .awaiting h st => if (s.heap h).started then some { s with op := .sending h true (.addStream st) } else none
    | _ => none
  | .startTimeout => match s.op with
    | .awaiting h st => some (s.fail h true (.addStream st) "add failed: shard did not start")
    | _ => none
  | .send => match s.op with
    | .sending h fresh c => some (s.sendOp h fresh c)
    | _ => none
  | .sendFails e => match s.op with
    | .sending h fresh c =>
      some ({ s with reqCounter := s.reqCounter + 1 }.fail h fresh c ("shard unreachable: " ++ e))
    | _ => none
  | .takeReply => match s.op with
    | .waiting h fresh c req => match s.pending.find? (·.1 == req) with
      | some (_, r) =>
        if r.ok then some { s.popReply req with op := .committing h c }
        else some ((s.popReply req).fail h fresh c r.error)
      | none => none
    | _ => none
  | .replyTimeout => match s.op with
    | .waiting h fresh c req =>
      if s.pending.any (·.1 == req) then none else some (s.fail h fresh c "shard request timed out")
    | _ => none
  | .discard => match s.op with
    | .discarding h c e => some (s.discardShard h c e)
    | _ => none
  | .commit => match s.op with
    | .committing h c => some (s.commit h c)
    | _ => none
  | .persist => match s.op with
    | .persisting c => some ((s.persistStreams cfg).ack c none)
    | _ => none
  -- The file could not be written: the raise reaches the ack, the commit stays.
  | .persistFails e => match s.op with
    | .persisting c => if cfg.streamsFile then some (s.ack c (some e)) else none
    | _ => none
  | _ => none

/-- One step of a shard process. -/
def stepWorker (w : Worker) : Action → Option Worker
  | .workerAdd _ ans => match w.phase with
    | .starting (st :: todo) =>
      match shardAddStream w.byStreamId st.streamId ans with
      -- `run` looks at no result here; a raise ends the process.
      | (ids, .ok _) => some { w with phase := .starting todo, byStreamId := ids }
      | (_, .error _) => some { w with phase := .exited }
    | _ => none
  | .workerStarted _ => match w.phase with
    | .starting [] => some { w with phase := .running, outbox := w.outbox ++ [.started] }
    | _ => none
  | .workerBeat _ excl => match w.phase with
    | .running => some { w with outbox := w.outbox ++ [.heartbeat excl] }
    | _ => none
  | .workerRecv _ ans => match w.phase, w.inbox with
    | .running, m :: inbox =>
      let (ids, r) := shardHandle w.byStreamId m.body ans
      some { w with byStreamId := ids, inbox := inbox, outbox := w.outbox ++ [.reply m.req r] }
    | _, _ => none
  | .workerExit _ => some { w with phase := .exited }
  | _ => none

/-- One step of a reader thread, of the watchdog or of a restart. -/
def stepSupervision (s : State) : Action → Option State
  | .readerRecv h => match (s.heap h).worker.outbox with
    | [] => none
    | o :: outbox => some (s.receive h o outbox)
  | .watchdog h =>
    if h ∈ s.shards ∧ (s.heap h).restarting = false then
      some (s.modify h fun hd => { hd with restarting := true })
    else none
  | .restartShard h =>
    if h ∈ s.shards ∧ (s.heap h).restarting = true then some (s.restartShard h) else none
  | _ => none

/-- **One step of the supervisor and its shards.** -/
def step (cfg : Config) (s : State) (a : Action) : Option State :=
  match a with
  | .workerAdd h _ | .workerStarted h | .workerBeat h _ | .workerRecv h _ | .workerExit h =>
    (stepWorker (s.heap h).worker a).map fun w => s.modify h (·.withWorker fun _ => w)
  | .readerRecv _ | .watchdog _ | .restartShard _ => stepSupervision s a
  | _ => stepOp cfg s a

/-- `Supervisor.start`: a shard for each list of streams, none of them up yet. -/
def start (streamLists : List (List Stream)) : State where
  heap h := newHandle h (streamLists.getD h [])
  next := streamLists.length
  shards := List.range streamLists.length
  pending := []
  reqCounter := 0
  hello := none
  op := .idle
  acks := []
  persisted := none

end RetailVision.Supervisor
