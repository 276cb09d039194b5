/-
The hook thread of a shard and the threads that give it work
(`vision_base/shard.py`): the control thread, which adds and removes streams,
the start attempts of the runtime, each of which adds the streams again
(replay), and the reader of the runtime's records. A step is what a thread does
under a lock, or one read or write of what the threads share, so that a run is
an interleaving. The calls of the hooks are kept in order.

The records of the runtime, its answers and its exits are not determined here:
any record may come at any time. Left out: `stop`, the values the records
carry and what the hooks return, and the counters of the hook budget.
-/
import RetailVision.ShardStreams
import RetailVision.Lib.Run
import Mathlib.Data.List.Sort

set_option linter.all false

namespace RetailVision.HookThread

open ShardStreams

/-- A hook of the app: `on_stream_added`, `on_frame`, `on_event`, `on_tensors`,
`on_stream_state`, `on_stream_removed`. -/
inductive Call
  | added
  | frame
  | event
  | tensors
  | state
  | removed
  deriving DecidableEq

/-- What the shard reads of the app, and whether its runtime has `--dev`. -/
structure Hooks where
  wantsFrames : Bool
  /-- `max(1, frame_stride)` -/
  frameStride : Nat
  onTensors : Bool
  onStreamState : Bool
  dev : Bool

def Hooks.hasTensorsHook (h : Hooks) : Bool := h.dev && h.onTensors

/-- What comes from the runtime for a stream, apart from its state. -/
inductive Record
  | frame (idx : Nat)
  | event (idx : Nat)
  | tensors (idx : Nat)
  deriving DecidableEq

def Record.idx : Record → Nat
  | .frame idx | .event idx | .tensors idx => idx

/-- Where the control thread is. -/
inductive Control
  | idle
  /-- the stream is registered, its `add` not yet queued -/
  | adding (idx : Nat) (streamId : String)
  /-- between the two blocks of `_rollback_add` -/
  | rollingBack (idx : Nat)
  /-- `asked`: there is a client, and the reply to its `remove` is awaited -/
  | removing (idx : Nat) (streamId : String) (asked : Bool)
  /-- the context is read -/
  | unlisting (idx : Nat) (streamId : String) (ctx : Option StreamContext)
  | queueing (idx : Nat) (ctx : Option StreamContext)

/-- Where `_start_runtime` is, of which there is one at a time. -/
inductive Starter
  | idle
  /-- waiting for the hello -/
  | starting
  | installed
  | replaying (todo : List Nat)

/-- Where the hook thread is in its batch. -/
inductive Place
  | next
  /-- the context is read, and the hook about to be called -/
  | calling (idx : Nat) (call : Call)
  /-- before the first block of `_forget` -/
  | forgetting (idx : Nat)
  /-- between its two blocks -/
  | clearing (idx : Nat)

/-- The batch of the hook thread, as far as it is not done. -/
structure Batch where
  items : List Item
  frames : List Nat
  place : Place

/-- What the control thread has returned: the reply to an add, which is not ok
where the runtime was down, or to a remove. -/
inductive Reply
  | added (idx : Nat) (ok : Bool)
  | removed (idx : Nat)
  deriving DecidableEq

structure State where
  shard : Registry
  /-- there is a `_client` -/
  client : Bool
  control : Control
  starter : Starter
  /-- the records whose context a reader has found, not yet queued -/
  reading : List Record
  fifo : List Item
  frameSlots : List Nat
  frameSeen : List (Nat × Nat)
  hookFramesDropped : List (Nat × Nat)
  batch : Batch
  calls : List (Nat × Call)
  replies : List Reply

def State.init : State where
  shard := .empty
  client := false
  control := .idle
  starter := .idle
  reading := []
  fifo := []
  frameSlots := []
  frameSeen := []
  hookFramesDropped := []
  batch := { items := [], frames := [], place := .next }
  calls := []
  replies := []

/-- `d[key] = v` -/
def put (key v : Nat) (d : List (Nat × Nat)) : List (Nat × Nat) :=
  if (get d key).isSome then d.map fun kv => if kv.1 = key then (key, v) else kv else d ++ [(key, v)]

/-- `d[key] = d.get(key, 0) + 1` -/
def bump (key : Nat) (d : List (Nat × Nat)) : List (Nat × Nat) := put key ((get d key).getD 0 + 1) d

/-! ## The control thread -/

/-- The block of `add_stream` under `_mu`. -/
def addStream (s : State) (spec : StreamSpec) : Option State :=
  match s.control, s.shard.index spec.streamId with
  | .idle, none =>
    let idx := s.shard.nextIndex
    let s := { s with shard := s.shard.register spec }
    if s.client then some { s with control := .adding idx spec.streamId }
    else some { s with replies := s.replies ++ [.added idx false] }
  | _, _ => none

/-- `client.request("add", ...)` has returned, or raised. -/
def addReply (s : State) (ok : Bool) : Option State :=
  match s.control with
  | .adding idx streamId =>
    if ok then some { s with control := .idle, fifo := s.fifo ++ [.added idx], replies := s.replies ++ [.added idx true] }
    else some { s with control := .rollingBack idx, shard := s.shard.rollback streamId idx }
  | _ => none

def rollBack (s : State) : Option State :=
  match s.control with
  | .rollingBack idx => some { s with control := .idle, frameSlots := s.frameSlots.filter (· ≠ idx) }
  | _ => none

/-- `remove_stream`, up to its request. -/
def removeStream (s : State) (streamId : String) : Option State :=
  match s.control, s.shard.index streamId with
  | .idle, some idx => some { s with control := .removing idx streamId s.client }
  | _, _ => none

/-- `client.request("remove", ...)` has returned, or raised; without a client
there is nothing to raise. -/
def removeReply (s : State) (ok : Bool) : Option State :=
  match s.control with
  | .removing idx streamId asked =>
    if ok then some { s with control := .unlisting idx streamId (s.shard.context idx) }
    else if asked then some { s with control := .idle }
    else none
  | _ => none

def unlist (s : State) : Option State :=
  match s.control with
  | .unlisting idx streamId ctx => some { s with control := .queueing idx ctx, shard := s.shard.unlist streamId idx }
  | _ => none

def queueRemoved (s : State) : Option State :=
  match s.control with
  | .queueing idx ctx =>
    some { s with
      control := .idle
      fifo := s.fifo ++ [.state idx "stopped" "", .removed idx ctx]
      replies := s.replies ++ [.removed idx] }
  | _ => none

/-! ## Starting the runtime -/

def startRuntime (s : State) : Option State :=
  match s.starter with
  | .idle => some { s with starter := .starting }
  | _ => none

/-- `client.start` has returned the hello, or raised. -/
def hello (s : State) (ok : Bool) : Option State :=
  match s.starter with
  | .starting => if ok then some { s with client := true, starter := .installed } else some { s with starter := .idle }
  | _ => none

def replay (s : State) : Option State :=
  match s.starter with
  | .installed => some { s with starter := .replaying (s.shard.active.insertionSort (· ≤ ·)) }
  | _ => none

/-- The answer to an add of the replay. -/
inductive Answer
  | ok
  | rejected (text : String)
  /-- `RuntimeGone` -/
  | gone

def replayNext (s : State) (answer : Answer) : Option State :=
  match s.starter with
  | .replaying [] => some { s with starter := .idle }
  | .replaying (idx :: rest) =>
    match s.shard.context idx, answer with
    | none, _ | some _, .ok => some { s with starter := .replaying rest }
    | some _, .rejected text =>
      some { s with starter := .replaying rest, fifo := s.fifo ++ [.state idx "error" ("replay failed: " ++ text)] }
    | some _, .gone => some { s with starter := .idle }
  | _ => none

/-! ## The records of the runtime -/

/-- `_on_frame`, `_on_event` and `_on_tensors` up to their look at the context. -/
def onRecord (h : Hooks) (s : State) (r : Record) : Option State :=
  match r with
  | .tensors idx =>
    if h.hasTensorsHook then
      if (s.shard.context idx).isSome then some { s with reading := .tensors idx :: s.reading } else some s
    else none
  | r => if (s.shard.context r.idx).isSome then some { s with reading := r :: s.reading } else some s

/-- The rest of them. -/
def queueRecord (s : State) (r : Record) : Option State :=
  if r ∈ s.reading then
    let s := { s with reading := s.reading.erase r }
    match r with
    | .frame idx =>
      if idx ∈ s.frameSlots then some { s with hookFramesDropped := bump idx s.hookFramesDropped }
      else some { s with frameSlots := s.frameSlots ++ [idx] }
    | .event idx => some { s with fifo := s.fifo ++ [.event idx] }
    | .tensors idx => some { s with fifo := s.fifo ++ [.tensors idx] }
  else none

/-- `_on_state`; and one state of those that `_on_exit`, `_handle_start_failure`
and `_deliver_error_all` queue for the active streams. -/
def onState (s : State) (idx : Nat) (state error : String) : State :=
  { s with fifo := s.fifo ++ [.state idx state error] }

/-! ## The hook thread -/

/-- `_hook_loop` takes what there is. -/
def takeBatch (s : State) : Option State :=
  match s.batch with
  | { items := [], frames := [], place := .next } =>
    if s.fifo = [] ∧ s.frameSlots = [] then none
    else some { s with
      fifo := []
      frameSlots := []
      batch := { items := s.fifo, frames := s.frameSlots.insertionSort (· ≤ ·), place := .next } }
  | _ => none

def State.goTo (s : State) (place : Place) : State := { s with batch := { s.batch with place := place } }

/-- The context an item is run with. -/
def State.itemContext (s : State) : Item → Option StreamContext
  | .removed _ ctx => ctx
  | .added idx | .state idx _ _ | .event idx | .tensors idx => s.shard.context idx

/-- `_run_hook_item`, up to the call. -/
def runHookItem (h : Hooks) (s : State) (item : Item) : State :=
  match s.itemContext item with
  | none => s
  | some ctx =>
    match item with
    | .state idx state _ =>
      if ctx.lastState = some state then s
      else
        let s := { s with shard := s.shard.setState idx state }
        if h.onStreamState then s.goTo (.calling idx .state) else s
    | .added idx => s.goTo (.calling idx .added)
    | .removed idx _ => s.goTo (.calling idx .removed)
    | .event idx => s.goTo (.calling idx .event)
    | .tensors idx => if h.onTensors then s.goTo (.calling idx .tensors) else s

/-- The frame of a stream, if it is one of those the app wants. -/
def runFrame (h : Hooks) (s : State) (idx : Nat) : State :=
  let s := { s with frameSeen := bump idx s.frameSeen }
  let seen := (get s.frameSeen idx).getD 0
  if (seen - 1) % max 1 h.frameStride = 0 then
    match s.shard.context idx with
    | none => s
    | some _ => s.goTo (.calling idx .frame)
  else s

/-- What is next in the batch: its items, then its frames. -/
def runNext (h : Hooks) (s : State) : Option State :=
  match s.batch with
  | { items := item :: items, frames := frames, place := .next } =>
    some (runHookItem h { s with batch := { items := items, frames := frames, place := .next } } item)
  | { items := [], frames := idx :: frames, place := .next } =>
    if h.wantsFrames then
      some (runFrame h { s with batch := { items := [], frames := frames, place := .next } } idx)
    else some { s with batch := { items := [], frames := [], place := .next } }
  | _ => none

/-- The hook is called; `_forget` follows the last of a stream. -/
def call (s : State) : Option State :=
  match s.batch.place with
  | .calling idx c =>
    let s := { s with calls := s.calls ++ [(idx, c)] }
    some (if c = .removed then s.goTo (.forgetting idx) else s.goTo .next)
  | _ => none

/-- `_forget` -/
def forget (s : State) : Option State :=
  match s.batch.place with
  | .forgetting idx => some ({ s with shard := s.shard.forget idx }.goTo (.clearing idx))
  | .clearing idx =>
    some ({ s with
      frameSlots := s.frameSlots.filter (· ≠ idx)
      frameSeen := pop idx s.frameSeen
      hookFramesDropped := pop idx s.hookFramesDropped }.goTo .next)
  | _ => none

inductive Action
  | addStream (spec : StreamSpec)
  | addReply (ok : Bool)
  | rollBack
  | removeStream (streamId : String)
  | removeReply (ok : Bool)
  | unlist
  | queueRemoved
  | startRuntime
  | hello (ok : Bool)
  | replay
  | replayNext (answer : Answer)
  | onRecord (r : Record)
  | queueRecord (r : Record)
  | onState (idx : Nat) (state error : String)
  /-- `_on_exit`, whose states are `onState` -/
  | onExit
  | takeBatch
  | runNext
  | call
  | forget

def step (h : Hooks) (s : State) : Action → Option State
  | .addStream spec => addStream s spec
  | .addReply ok => addReply s ok
  | .rollBack => rollBack s
  | .removeStream streamId => removeStream s streamId
  | .removeReply ok => removeReply s ok
  | .unlist => unlist s
  | .queueRemoved => queueRemoved s
  | .startRuntime => startRuntime s
  | .hello ok => hello s ok
  | .replay => replay s
  | .replayNext answer => replayNext s answer
  | .onRecord r => onRecord h s r
  | .queueRecord r => queueRecord s r
  | .onState idx state error => some (onState s idx state error)
  | .onExit => some { s with client := false }
  | .takeBatch => takeBatch s
  | .runNext => runNext h s
  | .call => call s
  | .forget => forget s

/-! ## What a step does -/

variable {h : Hooks} {s s' : State} {a : Action} {idx : Nat}

/-- A start attempt, a reader's look at a context, or an exit of the runtime. -/
def Action.Aside : Action → Prop
  | .startRuntime | .hello _ | .replay | .onRecord _ | .onExit => True
  | _ => False

/-- Of what the hook thread is given, these leave everything as it is. -/
theorem step_aside (hs : step h s a = some s') (ha : a.Aside) : ∃ client starter reading,
    s' = { s with client := client, starter := starter, reading := reading } ∧
      ∀ r ∈ reading, r ∈ s.reading ∨ (s.shard.context r.idx).isSome := by
  have hread : ∀ {r : Record}, (s.shard.context r.idx).isSome →
      ∀ x ∈ r :: s.reading, x ∈ s.reading ∨ (s.shard.context x.idx).isSome := by
    intro r hp x hx
    obtain rfl | hx := List.mem_cons.mp hx
    · exact .inr hp
    · exact .inl hx
  cases a with
  | startRuntime | replay =>
    simp only [step, startRuntime, replay] at hs
    split at hs <;> cases hs
    exact ⟨_, _, _, rfl, fun r hr => .inl hr⟩
  | hello ok =>
    simp only [step, hello] at hs
    split at hs
    · split at hs <;> cases hs <;> exact ⟨_, _, _, rfl, fun r hr => .inl hr⟩
    · cases hs
  | onRecord r =>
    simp only [step, onRecord] at hs
    split at hs
    · split at hs
      · split at hs
        next hp => cases hs; exact ⟨_, _, _, rfl, hread hp⟩
        next => cases hs; exact ⟨_, _, _, rfl, fun r hr => .inl hr⟩
      · cases hs
    · split at hs
      next hp => cases hs; exact ⟨_, _, _, rfl, hread hp⟩
      next => cases hs; exact ⟨_, _, _, rfl, fun r hr => .inl hr⟩
  | onExit => cases hs; exact ⟨_, _, _, rfl, fun r hr => .inl hr⟩
  | addStream | addReply | rollBack | removeStream | removeReply | unlist | queueRemoved | replayNext | queueRecord
  | onState | takeBatch | runNext | call | forget => cases ha

theorem replayNext_cases {answer : Answer} (hs : replayNext s answer = some s') : ∃ starter,
    s' = { s with starter := starter } ∨ ∃ idx text, s' = onState { s with starter := starter } idx "error" text := by
  unfold replayNext at hs
  split at hs
  · cases hs; exact ⟨_, .inl rfl⟩
  next idx rest _ =>
    split at hs
    · cases hs; exact ⟨_, .inl rfl⟩
    · cases hs; exact ⟨_, .inl rfl⟩
    next text _ => cases hs; exact ⟨.replaying rest, .inr ⟨idx, "replay failed: " ++ text, rfl⟩⟩
    · cases hs; exact ⟨_, .inl rfl⟩
  · cases hs

/-- A frame takes the slot of its stream, an event or tensors are queued. -/
theorem queueRecord_cases {r : Record} (hs : queueRecord s r = some s') : r ∈ s.reading ∧
    ((∃ slots dropped, (∀ i ∈ slots, i ∈ s.frameSlots ∨ i = r.idx) ∧ s' = { s with
        reading := s.reading.erase r, frameSlots := slots, hookFramesDropped := dropped }) ∨
      (∃ it, (r = .event r.idx ∧ it = .event r.idx ∨ r = .tensors r.idx ∧ it = .tensors r.idx) ∧
        s' = { s with reading := s.reading.erase r, fifo := s.fifo ++ [it] })) := by
  unfold queueRecord at hs
  split at hs
  next hm =>
    refine ⟨hm, ?_⟩
    cases r with
    | frame idx =>
      dsimp only at hs
      split at hs
      · cases hs; exact .inl ⟨_, _, fun i hi => .inl hi, rfl⟩
      · cases hs; exact .inl ⟨_, _, fun i hi => by simpa [Record.idx] using hi, rfl⟩
    | event idx => cases hs; exact .inr ⟨_, .inl ⟨rfl, rfl⟩, rfl⟩
    | tensors idx => cases hs; exact .inr ⟨_, .inr ⟨rfl, rfl⟩, rfl⟩
  next => cases hs

theorem runFrame_cases (h : Hooks) (s : State) (idx : Nat) : runFrame h s idx = { s with frameSeen := bump idx s.frameSeen } ∨
    (s.shard.context idx).isSome ∧
      runFrame h s idx = { s with frameSeen := bump idx s.frameSeen }.goTo (.calling idx .frame) := by
  unfold runFrame
  dsimp only
  split
  · split
    next => exact .inl rfl
    next hctx => exact .inr ⟨by simp [hctx], rfl⟩
  · exact .inl rfl

theorem call_cases (hs : call s = some s') : ∃ idx c, s.batch.place = .calling idx c ∧
    s' = { s with
      calls := s.calls ++ [(idx, c)]
      batch := { s.batch with place := if c = .removed then .forgetting idx else .next } } := by
  unfold call at hs
  split at hs
  next idx c hplace =>
    dsimp only at hs
    rw [← apply_ite, Option.some.injEq] at hs
    exact ⟨idx, c, hplace, hs.symm⟩
  next => cases hs

end RetailVision.HookThread
