/-
The controls of a native runtime's streams (`vb/src/runtime.cpp`, `pool.cpp`):
the control thread with `op_add`, `op_set_threshold` and
`op_configure_analyzer`, and the context threads, as many as there are, which
apply what is pending before a frame. A step is what a thread does between two
places where another can come in; what is done under `ctl_mu` is one step, and
so is the direct configure under `holder_mu`.

A control line is numbered, and what is done for it carries the number: the
writes of a threshold, the calls of `configure`, the replies. Left out: what
makes `op_remove` wait (`NativeRuntime`), `op_snapshot`, `op_stop`, dev mode.
-/
import RetailVision.NativeAnalyzers
import RetailVision.Lib.Run
import Mathlib.Logic.Function.Basic

set_option linter.all false

namespace RetailVision.NativeControls

open Lib Analyzers NativeAnalyzers

/-- What the threads use of analyzers, of which `A` are instances. -/
structure Analysis (F A : Type) where
  /-- `static_cast<float>` of a number, as a double and as a float -/
  ar : Arith F
  configure : A → Bytes → Configured A
  /-- the chain of an add -/
  build : List Json → Checked Bytes (List (String × A))
  /-- `json_dump` -/
  dump : Json → Bytes

/-- The analyzers of a runtime. -/
def analysis {F T L P : Type} (nat : Native F P) : Analysis F (StreamAnalyzer F T L P) where
  ar := nat.ar
  configure := NativeAnalyzers.configure nat
  build := buildChain nat
  dump := nat.dump

/-- A configuration in `pending_cfg`, with the line it is from. -/
structure Pending where
  line : Nat
  name : String
  json : Bytes
  done : Bool
  ok : Bool
  err : Bytes
  deriving DecidableEq

/-- `StreamState` -/
structure Stream (F A : Type) where
  index : Nat
  scoreThreshold : F
  /-- `analyzer_names` and `analyzers` -/
  analyzers : List (String × A)
  /-- `pending_score`, with the line it is from -/
  pendingScore : Option (Nat × F)
  pendingCfg : Option Pending
  /-- the context thread that holds `holder_mu` for a frame -/
  holder : Option Nat

/-- What a reply says has been applied. -/
inductive Applied (F : Type)
  | stream (index : Nat)
  | threshold (index : Nat) (value : F)
  | configured (index : Nat) (name : String)

inductive Reply (F : Type)
  | ok (applied : Applied F)
  | failed (error : Bytes)

/-- The control thread. -/
inductive Control (F : Type)
  | idle
  /-- `op_set_threshold` waits on `ctl_cv` -/
  | scoreWait (h line : Nat) (req : String)
  /-- `op_configure_analyzer` waits for the configuration in flight -/
  | inFlightWait (h line : Nat) (req name : String) (json : Bytes)
  /-- and for its own -/
  | cfgWait (h line : Nat) (req name : String) (json : Bytes)
  /-- it has given up the wait; to lock `holder_mu` -/
  | direct (h line : Nat) (req name : String) (json : Bytes)
  /-- it has applied the configuration; to lock `ctl_mu` -/
  | closing (h line : Nat) (req name : String) (ok : Bool) (err : Bytes)
  | replying (line : Nat) (req : String) (reply : Reply F)

inductive Context
  | idle
  /-- has locked `holder_mu` -/
  | entered (h : Nat)
  /-- has applied what was pending -/
  | applied (h : Nat)
  deriving DecidableEq

/-- A write of a stream's threshold. -/
structure Score (F : Type) where
  line : Nat
  stream : Nat
  value : F

/-- What a call of `configure` came to. -/
inductive Outcome
  | returned (ok : Bool) (err : Bytes)
  | threw (what : String)
  deriving DecidableEq

/-- A call of `configure` for a line. -/
structure Call where
  line : Nat
  stream : Nat
  name : String
  json : Bytes
  outcome : Outcome

structure State (F A : Type) where
  heap : Nat → Stream F A
  /-- the first reference not in use -/
  next : Nat
  /-- the values of `streams_` -/
  streams : List Nat
  stopping : Bool
  /-- an exception has left a context thread -/
  terminated : Bool
  control : Control F
  contexts : Nat → Context
  /-- the control lines so far -/
  lines : List Json
  replies : List (Nat × String × Reply F)
  scores : List (Score F)
  calls : List Call

/-! ## Required fields -/

/-- `json_get_str` -/
def getStr (j : Json) (key : String) : String :=
  match j.find key with
  | some (.str s) => s
  | _ => ""

def missing (key : String) : Bytes := utf8 ("missing or invalid field: " ++ key)

def needObject (j : Json) (key : String) : Except Bytes Json :=
  match j.find key with
  | some (.obj kvs) => .ok (.obj kvs)
  | _ => .error (missing key)

def needU32 (j : Json) (key : String) : Except Bytes Nat :=
  match j.find key with
  | some (.int v) =>
    if toInt64 v < 0 ∨ toInt64 v > 4294967295 then .error (utf8 ("out of range field: " ++ key))
    else .ok (toInt64 v).toNat
  | _ => .error (missing key)

variable {F A : Type}

/-- Of a number, the double, and its float. -/
def needNumber (ar : Arith F) (j : Json) (key : String) : Except Bytes F64 :=
  match (j.find key).bind (·.number ar) with
  | some n => .ok n.1
  | none => .error (missing key)

def needString (j : Json) (key : String) : Except Bytes String :=
  match j.find key with
  | some (.str s) => .ok s
  | _ => .error (missing key)

/-! ## Steps -/

def outcome {S : Type} : Configured S → Outcome
  | .returned ok err _ => .returned ok err
  | .threw what => .threw what

/-- The chain after a call. -/
def after {S : Type} (s : S) : Configured S → S
  | .returned _ _ s' => s'
  | .threw _ => s

namespace State

/-- A control line is counted. -/
def taken (s : State F A) (line : Json) : State F A := { s with lines := s.lines ++ [line] }

def modify (s : State F A) (h : Nat) (f : Stream F A → Stream F A) : State F A :=
  { s with heap := Function.update s.heap h (f (s.heap h)) }

/-- `stream(index)` -/
def find (s : State F A) (index : Nat) : Option Nat := s.streams.find? fun h => (s.heap h).index = index

/-- The control thread is to push a reply. -/
def answer (s : State F A) (line : Nat) (req : String) (r : Reply F) : State F A :=
  { s with control := .replying line req r }

def refuse (s : State F A) (line : Nat) (req : String) (err : Bytes) : State F A := s.answer line req (.failed err)

/-- `add_stream_locked` of a chain: the stream is there. -/
def addStream (s : State F A) (line index : Nat) (score : F) (chain : List (String × A)) : State F A :=
  { s with
    heap := Function.update s.heap s.next
      { index := index, scoreThreshold := score, analyzers := chain, pendingScore := none, pendingCfg := none,
        holder := none }
    next := s.next + 1
    streams := s.streams ++ [s.next]
    scores := s.scores ++ [⟨line, s.next, score⟩] }

/-- `configure` of the analyzer of a name, for a line. -/
def call (s : State F A) (an : Analysis F A) (h line : Nat) (name : String) (json : Bytes) :
    Option (Outcome × State F A) :=
  (configureNamed (an.configure · json) name (s.heap h).analyzers).map fun r =>
    (outcome r, { s.modify h fun st => { st with analyzers := after st.analyzers r } with
      calls := s.calls ++ [⟨line, h, name, json, outcome r⟩] })

/-- The pending configuration of a line, in place of what is there. -/
def post (s : State F A) (h line : Nat) (req name : String) (json : Bytes) : State F A :=
  { s.modify h fun st =>
      { st with pendingCfg := some { line := line, name := name, json := json, done := false, ok := false, err := [] } } with
    control := .cfgWait h line req name json }

end State

def noAnalyzer (name : String) (index : Nat) : Bytes :=
  utf8 ("no analyzer " ++ name ++ " on stream " ++ toString index)

/-- How the source of an add comes to be. -/
inductive Opened
  | opened
  | notCreated (err : Bytes)
  | notOpened (err : Bytes)

def require (b : Bool) (err : Bytes) : Except Bytes Unit := if b then .ok () else .error err

/-- `create_source` -/
def Opened.create : Opened → Except Bytes Unit
  | .notCreated err => .error err
  | _ => .ok ()

/-- The loop that opens the source. -/
def Opened.open_ : Opened → Except Bytes Unit
  | .notOpened err => .error err
  | _ => .ok ()

/-- `score_threshold` of an add. -/
def scoreOf (an : Analysis F A) (stream : Json) : Except Bytes F :=
  match stream.find "score_threshold" with
  | none | some .null => .ok (an.ar.lit (35 / 100))
  | some v => match v.number an.ar with
    | some n => .ok n.2
    | none => .error (utf8 "invalid field: score_threshold")

/-- The analyzers of an add; none counts as an empty array. -/
def entriesOf (line : Json) : Except Bytes (List Json) :=
  match line.find "analyzers" with
  | none => .ok []
  | some (.arr entries) => .ok entries
  | some _ => .error (utf8 "invalid field: analyzers")

/-- The chain of an add; an exception comes to the backstop of `handle_line`. -/
def chainOf (an : Analysis F A) (entries : List Json) : Except Bytes (List (String × A)) :=
  match an.build entries with
  | .ok chain => .ok chain
  | .refused err => .error err
  | .threw what => .error (utf8 ("bad add: " ++ what))

/-- The stream an add comes to: its index, its threshold and its chain. -/
def readAdd (an : Analysis F A) (s : State F A) (line : Json) (source : Opened) :
    Except Bytes (Nat × F × List (String × A)) := do
  let stream ← needObject line "stream"
  let index ← needU32 stream "index"
  let _url ← needString stream "url"
  let score ← scoreOf an stream
  let entries ← entriesOf line
  require ((s.find index).isNone) (utf8 ("stream index already in use: " ++ toString index))
  source.create
  let chain ← chainOf an entries
  source.open_
  require (!s.stopping) (utf8 "runtime stopping")
  .ok (index, score, chain)

def opAdd (an : Analysis F A) (s : State F A) (n : Nat) (line : Json) (source : Opened) : State F A :=
  match readAdd an s line source with
  | .error err => s.refuse n (getStr line "req") err
  | .ok (index, score, chain) =>
    (s.addStream n index score chain).answer n (getStr line "req") (.ok (.stream index))

def findOr (s : State F A) (index : Nat) : Except Bytes Nat :=
  match s.find index with
  | some h => .ok h
  | none => .error (utf8 ("no stream " ++ toString index))

/-- `op_remove`, where it finds the stream free or gives up. -/
def opRemove (s : State F A) (n : Nat) (line : Json) (released : Bool) : State F A :=
  match (needU32 line "stream_index").bind fun index => (findOr s index).map fun h => (index, h) with
  | .error err => s.refuse n (getStr line "req") err
  | .ok (index, h) =>
    if released = true ∧ (s.heap h).holder = none then
      { s with streams := s.streams.erase h }.answer n (getStr line "req") (.ok (.stream index))
    else s.refuse n (getStr line "req") (utf8 ("remove timeout: stream " ++ toString index ++ " still busy"))

/-- The stream and the value of `set_threshold`. -/
def readSetThreshold (an : Analysis F A) (s : State F A) (line : Json) : Except Bytes (Nat × F64) := do
  let index ← needU32 line "stream_index"
  let value ← needNumber an.ar line "value"
  let h ← findOr s index
  .ok (h, value)

def opSetThreshold (an : Analysis F A) (s : State F A) (n : Nat) (line : Json) : State F A :=
  match readSetThreshold an s line with
  | .error err => s.refuse n (getStr line "req") err
  | .ok (h, value) =>
    { s.modify h fun st => { st with pendingScore := some (n, an.ar.toFloat value) } with
      control := .scoreWait h n (getStr line "req") }

/-- The text of a configuration: none and null count as an empty one. -/
def configOf (an : Analysis F A) (line : Json) : Except Bytes Bytes :=
  match line.find "config" with
  | none | some .null => .ok (utf8 "\x7b\x7d")
  | some (.obj kvs) => .ok (an.dump (.obj kvs))
  | some _ => .error (utf8 "invalid field: config")

/-- The stream, the analyzer's name and the configuration of `configure_analyzer`. -/
def readConfigure (an : Analysis F A) (s : State F A) (line : Json) : Except Bytes (Nat × String × Bytes) := do
  let index ← needU32 line "stream_index"
  let name ← needString line "name"
  let h ← findOr s index
  let json ← configOf an line
  .ok (h, name, json)

/-- A configuration is in flight: pending, and not done. -/
def State.inFlight (s : State F A) (h : Nat) : Bool :=
  match (s.heap h).pendingCfg with
  | some p => !p.done
  | none => false

def opConfigureAnalyzer (an : Analysis F A) (s : State F A) (n : Nat) (line : Json) : State F A :=
  match readConfigure an s line with
  | .error err => s.refuse n (getStr line "req") err
  | .ok (h, name, json) =>
    if s.inFlight h then { s with control := .inFlightWait h n (getStr line "req") name json }
    else s.post h n (getStr line "req") name json

/-- `handle_line`, as far as the handlers wait for nothing. -/
def handleLine (an : Analysis F A) (s : State F A) (line : Json) (source : Opened) (released : Bool) :
    Option (State F A) :=
  let n := s.lines.length
  let s := s.taken line
  let op := getStr line "op"
  if op = "add" then some (opAdd an s n line source)
  else if op = "remove" then some (opRemove s n line released)
  else if op = "set_threshold" then some (opSetThreshold an s n line)
  else if op = "configure_analyzer" then some (opConfigureAnalyzer an s n line)
  else if op = "snapshot" ∨ op = "stop" then none
  else some (s.refuse n (getStr line "req") (utf8 ("unknown op: " ++ if op = "" then "?" else op)))

/-- The control thread comes back from a wait, woken or timed out. -/
def wake (s : State F A) (timeout : Bool) : Option (State F A) :=
  match s.control with
  | .scoreWait h n req =>
    match (s.heap h).pendingScore with
    | none => some (s.answer n req (.ok (.threshold (s.heap h).index (s.heap h).scoreThreshold)))
    | some _ =>
      -- "drop the pending value so the failed reply matches the real state"
      if timeout then
        some ((s.modify h fun st => { st with pendingScore := none }).refuse n req
          (utf8 "stream has no frames; threshold not applied"))
      else none
  | .inFlightWait h n req name json =>
    if s.inFlight h ∧ ¬ timeout then none else some (s.post h n req name json)
  | .cfgWait h n req name json =>
    match (s.heap h).pendingCfg with
    | some p =>
      if p.done then
        some { s.modify h fun st => { st with pendingCfg := none } with
          control := .idle
          replies := s.replies ++
            [(n, req, if p.ok then .ok (.configured (s.heap h).index name) else .failed p.err)] }
      -- the pending configuration stays
      else if timeout ∨ s.stopping then some { s with control := .direct h n req name json }
      else none
    | none => none
  | _ => none

/-- "apply directly under the busy-set protection" -/
def applyDirect (an : Analysis F A) (s : State F A) : Option (State F A) :=
  match s.control with
  | .direct h n req name json =>
    if (s.heap h).holder = none then
      match s.call an h n name json with
      | none => some { s with control := .closing h n req name false (noAnalyzer name (s.heap h).index) }
      | some (.returned ok err, t) => some { t with control := .closing h n req name ok err }
      -- the backstop of `handle_line`
      | some (.threw what, t) => some (t.refuse n req (utf8 ("bad configure_analyzer: " ++ what)))
    else none
  | _ => none

/-- `pending_cfg.reset()` and the reply. -/
def close (s : State F A) : Option (State F A) :=
  match s.control with
  | .closing h n req name ok err =>
    some { s.modify h fun st => { st with pendingCfg := none } with
      control := .idle
      replies := s.replies ++ [(n, req, if ok then .ok (.configured (s.heap h).index name) else .failed err)] }
  | _ => none

def pushReply (s : State F A) : Option (State F A) :=
  match s.control with
  | .replying n req r => some { s with control := .idle, replies := s.replies ++ [(n, req, r)] }
  | _ => none

/-- The pending threshold is the stream's. -/
def applyScore (s : State F A) (h : Nat) : State F A :=
  match (s.heap h).pendingScore with
  | some (n, v) =>
    { s.modify h fun st => { st with scoreThreshold := v, pendingScore := none } with
      scores := s.scores ++ [⟨n, h, v⟩] }
  | none => s

/-- The pending configuration is applied, and done. -/
def applyCfg (an : Analysis F A) (s : State F A) (h : Nat) : State F A :=
  match (s.heap h).pendingCfg with
  | some p =>
    if p.done then s
    else match s.call an h p.line p.name p.json with
      | none => s.modify h fun st =>
        { st with pendingCfg := some { p with done := true, ok := false, err := noAnalyzer p.name st.index } }
      | some (.returned ok err, t) => t.modify h fun st =>
        { st with pendingCfg := some { p with done := true, ok := ok, err := err } }
      | some (.threw _, t) => { t with terminated := true }
  | none => s

inductive Action
  | line (j : Json) (source : Opened) (released : Bool)
  | wake (timeout : Bool)
  | applyDirect
  | close
  | pushReply
  /-- `Runtime::stop`, by another thread -/
  | stop
  | enterFrame (c h : Nat)
  /-- `apply_pending_controls` -/
  | applyPending (c : Nat)
  | endFrame (c : Nat)

/-- A context thread locks `holder_mu` of a stream it has claimed. -/
def enterFrame (s : State F A) (c h : Nat) : Option (State F A) :=
  if s.contexts c = .idle ∧ h ∈ s.streams ∧ (s.heap h).holder = none then
    some { s.modify h fun st => { st with holder := some c } with
      contexts := Function.update s.contexts c (.entered h) }
  else none

def applyPending (an : Analysis F A) (s : State F A) (c : Nat) : Option (State F A) :=
  match s.contexts c with
  | .entered h => some { applyCfg an (applyScore s h) h with contexts := Function.update s.contexts c (.applied h) }
  | _ => none

def endFrame (s : State F A) (c : Nat) : Option (State F A) :=
  match s.contexts c with
  | .applied h => some { s.modify h fun st => { st with holder := none } with
      contexts := Function.update s.contexts c .idle }
  | _ => none

/-- **One step of the control thread or of a context thread.** -/
def step (an : Analysis F A) (s : State F A) (a : Action) : Option (State F A) :=
  if s.terminated then none
  else match a with
  | .line j source released => match s.control with
    | .idle => handleLine an s j source released
    | _ => none
  | .wake timeout => wake s timeout
  | .applyDirect => applyDirect an s
  | .close => close s
  | .pushReply => pushReply s
  | .stop => some { s with stopping := true }
  | .enterFrame c h => enterFrame s c h
  | .applyPending c => applyPending an s c
  | .endFrame c => endFrame s c

/-- A runtime that has started, with no streams. -/
def start (an : Analysis F A) : State F A where
  heap _ := {
    index := 0
    scoreThreshold := an.ar.lit 0
    analyzers := []
    pendingScore := none
    pendingCfg := none
    holder := none }
  next := 0
  streams := []
  stopping := false
  terminated := false
  control := .idle
  contexts _ := .idle
  lines := []
  replies := []
  scores := []
  calls := []

/-! ## What a step does -/

variable {an : Analysis F A} {s t : State F A} {j line : Json} {source : Opened} {released : Bool} {h n : Nat}

theorem find_some {index : Nat} (hf : s.find index = some h) : h ∈ s.streams ∧ (s.heap h).index = index :=
  ⟨List.mem_of_find?_eq_some hf, by simpa using List.find?_some hf⟩

theorem bind_eq_ok {α β : Type} {x : Except Bytes α} {f : α → Except Bytes β} {b : β} :
    (x >>= f) = .ok b ↔ ∃ a, x = .ok a ∧ f a = .ok b := by
  cases x with
  | error err => simp [bind, Except.bind]
  | ok a => simp [bind, Except.bind]

theorem findOr_ok {index : Nat} : findOr s index = .ok h ↔ s.find index = some h := by
  unfold findOr
  cases s.find index <;> simp

theorem readSetThreshold_ok {value : F64} : readSetThreshold an s line = .ok (h, value) ↔
    ∃ index, needU32 line "stream_index" = .ok index ∧ needNumber an.ar line "value" = .ok value ∧
      s.find index = some h := by
  simp only [readSetThreshold, bind_eq_ok, findOr_ok, Except.ok.injEq, Prod.mk.injEq]
  constructor
  · intro ⟨index, hindex, v, hv, k, hk, he, hvalue⟩
    exact ⟨index, hindex, hvalue ▸ hv, he ▸ hk⟩
  · intro ⟨index, hindex, hv, hk⟩
    exact ⟨index, hindex, value, hv, h, hk, rfl, rfl⟩

/-- What a control line asks of an analyzer. -/
def AsksFor (an : Analysis F A) (line : Json) (index : Nat) (name : String) (json : Bytes) : Prop :=
  needU32 line "stream_index" = .ok index ∧ needString line "name" = .ok name ∧ configOf an line = .ok json

theorem readConfigure_ok {name : String} {json : Bytes} : readConfigure an s line = .ok (h, name, json) ↔
    ∃ index, AsksFor an line index name json ∧ s.find index = some h := by
  simp only [readConfigure, AsksFor, bind_eq_ok, findOr_ok, Except.ok.injEq, Prod.mk.injEq]
  constructor
  · intro ⟨index, hindex, m, hm, k, hk, js, hjs, he, hname, hjson⟩
    exact ⟨index, ⟨hindex, hname ▸ hm, hjson ▸ hjs⟩, he ▸ hk⟩
  · intro ⟨index, ⟨hindex, hname, hjson⟩, hk⟩
    exact ⟨index, hindex, name, hname, h, hk, json, hjson, rfl, rfl, rfl⟩

/-- What `handle_line` comes to: a refusal, or one of the operations. -/
inductive Handled (an : Analysis F A) (s : State F A) (line : Json) : State F A → Prop
  | refused (err : Bytes) : Handled an s line ((s.taken line).refuse s.lines.length (getStr line "req") err)
  | added (index : Nat) (score : F) (chain : List (String × A)) (entries : List Json)
      (hop : getStr line "op" = "add") (hbuild : an.build entries = .ok chain) :
      Handled an s line (((s.taken line).addStream s.lines.length index score chain).answer s.lines.length
        (getStr line "req") (.ok (.stream index)))
  | removed (index h : Nat) (hop : getStr line "op" = "remove") (hfree : (s.heap h).holder = none) :
      Handled an s line (State.answer { s.taken line with streams := s.streams.erase h } s.lines.length
        (getStr line "req") (.ok (.stream index)))
  | threshold (index h : Nat) (value : F64) (hop : getStr line "op" = "set_threshold")
      (hindex : needU32 line "stream_index" = .ok index) (hvalue : needNumber an.ar line "value" = .ok value)
      (hfind : s.find index = some h) :
      Handled an s line { (s.taken line).modify h fun st =>
          { st with pendingScore := some (s.lines.length, an.ar.toFloat value) } with
        control := .scoreWait h s.lines.length (getStr line "req") }
  | inFlight (index h : Nat) (name : String) (json : Bytes) (hop : getStr line "op" = "configure_analyzer")
      (hasks : AsksFor an line index name json) (hfind : s.find index = some h) :
      Handled an s line { s.taken line with
        control := .inFlightWait h s.lines.length (getStr line "req") name json }
  | posted (index h : Nat) (name : String) (json : Bytes) (hop : getStr line "op" = "configure_analyzer")
      (hasks : AsksFor an line index name json) (hfind : s.find index = some h) :
      Handled an s line ((s.taken line).post h s.lines.length (getStr line "req") name json)

theorem readAdd_ok {index : Nat} {score : F} {chain : List (String × A)}
    (hr : readAdd an s line source = .ok (index, score, chain)) : ∃ entries, an.build entries = .ok chain := by
  simp only [readAdd, bind_eq_ok] at hr
  obtain ⟨_, -, _, -, _, -, _, -, entries, -, _, -, _, -, c, hchain, _, -, _, -, hr⟩ := hr
  cases hr
  refine ⟨entries, ?_⟩
  unfold chainOf at hchain
  cases hb : an.build entries with
  | ok c =>
    rw [hb] at hchain
    cases hchain
    rfl
  | refused err =>
    rw [hb] at hchain
    cases hchain
  | threw what =>
    rw [hb] at hchain
    cases hchain

theorem handleLine_cases (hs : handleLine an s line source released = some t) : Handled an s line t := by
  unfold handleLine at hs
  dsimp only at hs
  have hfind : ∀ index, (s.taken line).find index = s.find index := fun _ => rfl
  by_cases hadd : getStr line "op" = "add"
  · rw [if_pos hadd] at hs
    cases hs
    unfold opAdd
    cases hr : readAdd an (s.taken line) line source with
    | error err => exact .refused err
    | ok r =>
      obtain ⟨index, score, chain⟩ := r
      obtain ⟨entries, hbuild⟩ := readAdd_ok hr
      exact .added index score chain entries hadd hbuild
  · rw [if_neg hadd] at hs
    by_cases hremove : getStr line "op" = "remove"
    · rw [if_pos hremove] at hs
      cases hs
      unfold opRemove
      split
      next err _ => exact .refused err
      next index h _ =>
        by_cases hfree : released = true ∧ (s.heap h).holder = none
        · exact (if_pos (c := released = true ∧ ((s.taken line).heap h).holder = none) hfree) ▸
            .removed index h hremove hfree.2
        · exact (if_neg (c := released = true ∧ ((s.taken line).heap h).holder = none) hfree) ▸ .refused _
    · rw [if_neg hremove] at hs
      by_cases hset : getStr line "op" = "set_threshold"
      · rw [if_pos hset] at hs
        cases hs
        unfold opSetThreshold
        cases hr : readSetThreshold an (s.taken line) line with
        | error err => exact .refused err
        | ok r =>
          obtain ⟨h, value⟩ := r
          obtain ⟨index, hindex, hvalue, hf⟩ := readSetThreshold_ok.mp hr
          exact .threshold index h value hset hindex hvalue hf
      · rw [if_neg hset] at hs
        by_cases hcfg : getStr line "op" = "configure_analyzer"
        · rw [if_pos hcfg] at hs
          cases hs
          unfold opConfigureAnalyzer
          cases hr : readConfigure an (s.taken line) line with
          | error err => exact .refused err
          | ok r =>
            obtain ⟨h, name, json⟩ := r
            obtain ⟨index, hasks, hf⟩ := readConfigure_ok.mp hr
            dsimp only
            by_cases hin : (s.taken line).inFlight h = true
            · exact (if_pos hin) ▸ .inFlight index h name json hcfg hasks hf
            · exact (if_neg hin) ▸ .posted index h name json hcfg hasks hf
        · rw [if_neg hcfg] at hs
          split at hs
          · cases hs
          · cases hs
            exact .refused _

/-- What a step comes to. -/
inductive Stepped (an : Analysis F A) (s : State F A) : Action → State F A → Prop
  | handled {line : Json} {source : Opened} {released : Bool} {t : State F A} (hc : s.control = .idle)
      (hl : Handled an s line t) : Stepped an s (.line line source released) t
  | scoreApplied {timeout : Bool} {h n : Nat} {req : String} (hc : s.control = .scoreWait h n req)
      (hp : (s.heap h).pendingScore = none) : Stepped an s (.wake timeout)
      (s.answer n req (.ok (.threshold (s.heap h).index (s.heap h).scoreThreshold)))
  | scoreGivenUp {timeout : Bool} {h n : Nat} {req : String} (err : Bytes) (hc : s.control = .scoreWait h n req)
      (hp : (s.heap h).pendingScore ≠ none) : Stepped an s (.wake timeout)
      ((s.modify h fun st => { st with pendingScore := none }).refuse n req err)
  | slotTaken {timeout : Bool} {h n : Nat} {req name : String} {json : Bytes}
      (hc : s.control = .inFlightWait h n req name json) : Stepped an s (.wake timeout) (s.post h n req name json)
  | cfgDone {timeout : Bool} {h n : Nat} {req name : String} {json : Bytes} {p : Pending}
      (hc : s.control = .cfgWait h n req name json) (hp : (s.heap h).pendingCfg = some p) (hd : p.done = true) :
      Stepped an s (.wake timeout) { s.modify h fun st => { st with pendingCfg := none } with
        control := .idle
        replies := s.replies ++
          [(n, req, if p.ok then .ok (.configured (s.heap h).index name) else .failed p.err)] }
  | cfgGivenUp {timeout : Bool} {h n : Nat} {req name : String} {json : Bytes} {p : Pending}
      (hc : s.control = .cfgWait h n req name json) (hp : (s.heap h).pendingCfg = some p) (hd : p.done = false) :
      Stepped an s (.wake timeout) { s with control := .direct h n req name json }
  | noAnalyzer {h n : Nat} {req name : String} {json : Bytes} (hc : s.control = .direct h n req name json)
      (hcall : s.call an h n name json = none) : Stepped an s .applyDirect
      { s with control := .closing h n req name false (noAnalyzer name (s.heap h).index) }
  | returned {h n : Nat} {req name : String} {json : Bytes} {ok : Bool} {err : Bytes} {t : State F A}
      (hc : s.control = .direct h n req name json) (hcall : s.call an h n name json = some (.returned ok err, t)) :
      Stepped an s .applyDirect { t with control := .closing h n req name ok err }
  | threw {h n : Nat} {req name : String} {json : Bytes} {what : String} {t : State F A}
      (hc : s.control = .direct h n req name json) (hcall : s.call an h n name json = some (.threw what, t)) :
      Stepped an s .applyDirect (t.refuse n req (utf8 ("bad configure_analyzer: " ++ what)))
  | closed {h n : Nat} {req name : String} {ok : Bool} {err : Bytes} (hc : s.control = .closing h n req name ok err) :
      Stepped an s .close { s.modify h fun st => { st with pendingCfg := none } with
        control := .idle
        replies := s.replies ++ [(n, req, if ok then .ok (.configured (s.heap h).index name) else .failed err)] }
  | replied {n : Nat} {req : String} {r : Reply F} (hc : s.control = .replying n req r) :
      Stepped an s .pushReply { s with control := .idle, replies := s.replies ++ [(n, req, r)] }
  | stopped : Stepped an s .stop { s with stopping := true }
  | entered {c h : Nat} (hin : h ∈ s.streams) : Stepped an s (.enterFrame c h)
      { s.modify h fun st => { st with holder := some c } with contexts := Function.update s.contexts c (.entered h) }
  | applied {c h : Nat} (hx : s.contexts c = .entered h) : Stepped an s (.applyPending c)
      { applyCfg an (applyScore s h) h with contexts := Function.update s.contexts c (.applied h) }
  | ended {c h : Nat} (hx : s.contexts c = .applied h) : Stepped an s (.endFrame c)
      { s.modify h fun st => { st with holder := none } with contexts := Function.update s.contexts c .idle }

theorem wake_cases {timeout : Bool} (hs : wake s timeout = some t) : Stepped an s (.wake timeout) t := by
  unfold wake at hs
  split at hs
  next h n req hc =>
    cases hp : (s.heap h).pendingScore with
    | none =>
      rw [hp] at hs
      cases hs
      exact .scoreApplied hc hp
    | some v =>
      rw [hp] at hs
      dsimp only at hs
      split at hs
      · cases hs
        exact .scoreGivenUp _ hc (by rw [hp]; nofun)
      · cases hs
  next h n req name json hc =>
    split at hs
    · cases hs
    · cases hs
      exact .slotTaken hc
  next h n req name json hc =>
    cases hp : (s.heap h).pendingCfg with
    | none =>
      rw [hp] at hs
      cases hs
    | some p =>
      rw [hp] at hs
      dsimp only at hs
      by_cases hd : p.done = true
      · rw [if_pos hd] at hs
        cases hs
        exact .cfgDone hc hp hd
      · rw [if_neg hd] at hs
        split at hs
        · cases hs
          exact .cfgGivenUp hc hp (by simpa using hd)
        · cases hs
  · cases hs

theorem applyDirect_cases (hs : applyDirect an s = some t) : Stepped an s .applyDirect t := by
  unfold applyDirect at hs
  split at hs
  next h n req name json hc =>
    split at hs
    · split at hs
      next hcall =>
        cases hs
        exact .noAnalyzer hc hcall
      next ok err u hcall =>
        cases hs
        exact .returned hc hcall
      next what u hcall =>
        cases hs
        exact .threw hc hcall
    · cases hs
  · cases hs

/-- **Whatever a step does, it is one of these.** -/
theorem step_cases {a : Action} (hs : step an s a = some t) : Stepped an s a t := by
  unfold step at hs
  split at hs
  · cases hs
  · cases a with
    | line j source released =>
      dsimp only at hs
      split at hs
      next hc => exact .handled hc (handleLine_cases hs)
      next => cases hs
    | wake timeout => exact wake_cases hs
    | applyDirect => exact applyDirect_cases hs
    | close =>
      dsimp only [close] at hs
      split at hs
      next hc =>
        cases hs
        exact .closed hc
      next => cases hs
    | pushReply =>
      dsimp only [pushReply] at hs
      split at hs
      next hc =>
        cases hs
        exact .replied hc
      next => cases hs
    | stop =>
      cases hs
      exact .stopped
    | enterFrame c h =>
      dsimp only [enterFrame] at hs
      split at hs
      next hin =>
        cases hs
        exact .entered hin.2.1
      next => cases hs
    | applyPending c =>
      dsimp only [applyPending] at hs
      split at hs
      next hx =>
        cases hs
        exact .applied hx
      next => cases hs
    | endFrame c =>
      dsimp only [endFrame] at hs
      split at hs
      next hx =>
        cases hs
        exact .ended hx
      next => cases hs

/-- A call is of an analyzer that has the name. -/
theorem call_eq_some {name : String} {json : Bytes} {o : Outcome} (hcall : s.call an h n name json = some (o, t)) :
    ∃ chain, t = { s.modify h fun st => { st with analyzers := chain } with
      calls := s.calls ++ [⟨n, h, name, json, o⟩] } := by
  simp only [State.call, Option.map_eq_some_iff, Prod.mk.injEq] at hcall
  obtain ⟨r, -, rfl, rfl⟩ := hcall
  exact ⟨_, rfl⟩

theorem call_eq_none {name : String} {json : Bytes} :
    s.call an h n name json = none ↔ ∀ x ∈ (s.heap h).analyzers, x.1 ≠ name := by
  rw [State.call, Option.map_eq_none_iff, configureNamed_none]

/-- A pool's configure is nothing to the control thread. -/
theorem applyCfg_same : (applyCfg an s h).control = s.control ∧ (applyCfg an s h).replies = s.replies := by
  unfold applyCfg
  split
  · split
    · exact ⟨rfl, rfl⟩
    · split
      next => exact ⟨rfl, rfl⟩
      next hcall =>
        obtain ⟨chain, rfl⟩ := call_eq_some hcall
        exact ⟨rfl, rfl⟩
      next hcall =>
        obtain ⟨chain, rfl⟩ := call_eq_some hcall
        exact ⟨rfl, rfl⟩
  · exact ⟨rfl, rfl⟩

/-- A pool's threshold is nothing to the control thread, nor to the analyzers. -/
theorem applyScore_same : (applyScore s h).control = s.control ∧ (applyScore s h).replies = s.replies ∧
    (applyScore s h).terminated = s.terminated ∧ (applyScore s h).calls = s.calls ∧
    ((applyScore s h).next = s.next ∧ (applyScore s h).lines = s.lines ∧ (applyScore s h).streams = s.streams) ∧
    ∀ k, ((applyScore s h).heap k).index = (s.heap k).index ∧
      ((applyScore s h).heap k).analyzers = (s.heap k).analyzers ∧
      ((applyScore s h).heap k).pendingCfg = (s.heap k).pendingCfg := by
  unfold applyScore
  split
  · refine ⟨rfl, rfl, rfl, rfl, ⟨rfl, rfl, rfl⟩, fun k => ?_⟩
    by_cases hk : k = h <;> simp [State.modify, hk]
  · exact ⟨rfl, rfl, rfl, rfl, ⟨rfl, rfl, rfl⟩, fun _ => ⟨rfl, rfl, rfl⟩⟩

end RetailVision.NativeControls
