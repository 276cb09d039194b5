/-
The control socket of a native runtime (`vb/src/runtime.cpp`): `serve_fd`
over the reads it makes of the control fd, `handle_line` and the operations,
as far as what they push to the writer goes.

What the rest of the runtime answers while a line is handled is its `World`.
-/
import RetailVision.Nlohmann
import RetailVision.Lib.Lines
import Mathlib.Data.List.Forall2

set_option linter.all false

namespace RetailVision.ControlSocket

open Lib

def LF : UInt8 := 10
def CR : UInt8 := 13

structure Snapshot where
  jpeg : Bytes
  w : Int
  h : Int
  seq : Nat

/-- What the rest of the runtime answers while a line is handled. -/
structure World where
  /-- `add_stream_locked` gets as far as opening the source -/
  opening : Bool
  addStream : Except Bytes Unit
  /-- the runtime has a stream of the index -/
  found : Bool
  /-- the wait of `op_remove` ends before its deadline -/
  released : Bool
  /-- the stream is still the one of the index then -/
  sameStream : Bool
  /-- the threshold as applied, if a frame came -/
  threshold : Option F64
  configure : Except Bytes Unit
  snapshot : Except Bytes Snapshot

/-- A record pushed to the writer. -/
inductive Record
  /-- a `reply`: what was applied, or the error -/
  | reply (req : String) (result : Except Bytes Json)
  | streamState (index : Nat) (state : String)
  | snapshot (req : String) (body : Json) (jpeg : Bytes)

/-- What a call has pushed, and what it has thrown. -/
structure Effect where
  records : List Record
  thrown : Option String

def Effect.push (r : Record) (e : Effect) : Effect := { e with records := r :: e.records }

/-! ## The fields of a line -/

/-- `json_get_str` -/
def jsonGetStr (j : Json) (key dflt : String) : String :=
  match j.find key with
  | some (.str s) => s
  | _ => dflt

def missing (key : String) : Bytes := utf8 ("missing or invalid field: " ++ key)

def needObject (j : Json) (key : String) : Except Bytes Json :=
  match j.find key with
  | some (.obj kvs) => .ok (.obj kvs)
  | _ => .error (missing key)

def needU32 (j : Json) (key : String) : Except Bytes Nat :=
  match j.find key with
  | some (.int v) =>
    if toInt64 v < 0 ∨ 2 ^ 32 - 1 < toInt64 v then .error (utf8 ("out of range field: " ++ key))
    else .ok (toInt64 v).toNat
  | _ => .error (missing key)

def needU64 (j : Json) (key : String) : Except Bytes Nat :=
  match j.find key with
  | some (.int v) => if toInt64 v < 0 then .error (utf8 ("out of range field: " ++ key)) else .ok (toInt64 v).toNat
  | _ => .error (missing key)

def needInt (j : Json) (key : String) : Except Bytes Int :=
  match j.find key with
  | some (.int v) => .ok (toInt32 v)
  | _ => .error (missing key)

def needNumber (j : Json) (key : String) : Except Bytes Json :=
  match j.find key with
  | some (.int v) => .ok (.int v)
  | some (.float x) => .ok (.float x)
  | _ => .error (missing key)

def needString (j : Json) (key : String) : Except Bytes String :=
  match j.find key with
  | some (.str s) => .ok s
  | _ => .error (missing key)

def needBool (j : Json) (key : String) : Except Bytes Bool :=
  match j.find key with
  | some (.bool b) => .ok b
  | _ => .error (missing key)

/-- An optional field: absent or null it has its default, else it is `need`ed. -/
def opt {α : Type} (need : Json → String → Except Bytes α) (j : Json) (key : String) (dflt : α) : Except Bytes α :=
  match j.find key with
  | none | some .null => .ok dflt
  | some _ => need j key

/-! ## The operations -/

section

variable (lib : Nlohmann) (w : World)

/-- `Runtime::reply`: `json_dump` throws where the error is not UTF-8. -/
def reply (req : String) (result : Except Bytes Json) : Effect :=
  match result with
  | .ok applied => { records := [.reply req (.ok applied)], thrown := none }
  | .error err =>
    if Utf8 err then { records := [.reply req (.error err)], thrown := none }
    else { records := [], thrown := some (lib.dumpError err) }

def noStream (idx : Nat) : Bytes := utf8 ("no stream " ++ toString idx)

/-- `op_add`, before it adds the stream: the index. -/
def addSpec (line : Json) : Except Bytes Nat := do
  let sj ← needObject line "stream"
  let index ← needU32 sj "index"
  let _url ← needString sj "url"
  match sj.find "score_threshold" with
  | none | some .null | some (.int _) | some (.float _) => pure ()
  | some _ => throw (utf8 "invalid field: score_threshold")
  match line.find "analyzers" with
  | none | some (.arr _) => pure index
  | some _ => throw (utf8 "invalid field: analyzers")

def opAdd (line : Json) : Effect :=
  let req := jsonGetStr line "req" ""
  match addSpec line with
  | .error err => reply lib req (.error err)
  | .ok index =>
    let done := match w.addStream with
      | .ok () => reply lib req (.ok (.obj [("stream_index", .int index)]))
      | .error err => reply lib req (.error err)
    if w.opening then done.push (.streamState index "starting") else done

def opRemove (line : Json) : Effect :=
  let req := jsonGetStr line "req" ""
  match needU32 line "stream_index" with
  | .error err => reply lib req (.error err)
  | .ok idx =>
    if w.found = false then reply lib req (.error (noStream idx))
    else if w.released = false then
      reply lib req (.error (utf8 ("remove timeout: stream " ++ toString idx ++ " still busy")))
    else if w.sameStream = false then reply lib req (.error (noStream idx))
    else (reply lib req (.ok (.obj [("stream_index", .int idx)]))).push (.streamState idx "stopped")

def opSetThreshold (line : Json) : Effect :=
  let req := jsonGetStr line "req" ""
  match (do let idx ← needU32 line "stream_index"; let _ ← needNumber line "value"; pure idx : Except Bytes Nat) with
  | .error err => reply lib req (.error err)
  | .ok idx =>
    if w.found = false then reply lib req (.error (noStream idx))
    else match w.threshold with
      | none => reply lib req (.error (utf8 "stream has no frames; threshold not applied"))
      | some value => reply lib req (.ok (.obj [("stream_index", .int idx), ("value", .float value)]))

def opConfigureAnalyzer (line : Json) : Effect :=
  let req := jsonGetStr line "req" ""
  match (do let idx ← needU32 line "stream_index"; let name ← needString line "name"; pure (idx, name) :
      Except Bytes (Nat × String)) with
  | .error err => reply lib req (.error err)
  | .ok (idx, name) =>
    if w.found = false then reply lib req (.error (noStream idx))
    else match line.find "config" with
      | none | some .null | some (.obj _) => match w.configure with
        | .ok () => reply lib req (.ok (.obj [("stream_index", .int idx), ("name", .str name)]))
        | .error err => reply lib req (.error err)
      | some _ => reply lib req (.error (utf8 "invalid field: config"))

/-- `op_snapshot`, before it looks for the stream. -/
def snapshotSpec (line : Json) : Except Bytes (Nat × Nat) := do
  let idx ← needU32 line "stream_index"
  let _seq ← opt needU64 line "seq" 0
  let trackId ← opt needU32 line "track_id" 0
  let _crop ← opt needBool line "crop" true
  let _maxSide ← opt needInt line "max_side" 640
  pure (idx, trackId)

def opSnapshot (line : Json) : Effect :=
  let req := jsonGetStr line "req" ""
  match snapshotSpec line with
  | .error err => reply lib req (.error err)
  | .ok (idx, trackId) =>
    if w.found = false then reply lib req (.error (noStream idx))
    else match w.snapshot with
      | .error err => reply lib req (.error (if err = [] then utf8 "snapshot unsupported" else err))
      | .ok snap =>
        let body := Json.obj [("req", .str req), ("stream_index", .int idx), ("seq", .int snap.seq),
          ("track_id", .int trackId), ("w", .int snap.w), ("h", .int snap.h), ("mime", .str "image/jpeg")]
        { records := [.snapshot req body snap.jpeg], thrown := none }

def opStop (line : Json) : Effect :=
  reply lib (jsonGetStr line "req" "") (.ok (.obj [("stopped", .bool true)]))

/-- The operation a line names. -/
def dispatch (line : Json) : Effect :=
  let op := jsonGetStr line "op" ""
  if op = "add" then opAdd lib w line
  else if op = "remove" then opRemove lib w line
  else if op = "set_threshold" then opSetThreshold lib w line
  else if op = "configure_analyzer" then opConfigureAnalyzer lib w line
  else if op = "snapshot" then opSnapshot lib w line
  else if op = "stop" then opStop lib line
  else reply lib (jsonGetStr line "req" "") (.error (utf8 ("unknown op: " ++ (if op = "" then "?" else op))))

/-- `handle_line`, and whether the line stops the runtime. -/
def handleLine (line : Json) : Effect × Bool :=
  let op := jsonGetStr line "op" ""
  let e := dispatch lib w line
  match e.thrown with
  | none => (e, op = "stop")
  -- B1: a malformed control line fails its request.
  | some what =>
    let r := reply lib (jsonGetStr line "req" "")
      (.error (utf8 ("bad " ++ (if op = "" then "command" else op) ++ ": " ++ what)))
    ({ r with records := e.records ++ r.records }, false)

end

/-! ## `serve_fd` -/

inductive Ending
  /-- the peer has closed, or `recv` fails -/
  | closed
  | stopped
  | overlong
  /-- an exception has left `serve_fd` -/
  | threw (what : String)
  deriving DecidableEq

/-- `kMaxLine`, the single-line cap. -/
def kMaxLine : Nat := 2 * 1024 * 1024

/-- A line without its trailing CR. -/
def stripCr (line : Bytes) : Bytes := if line.getLast? = some CR then line.dropLast else line

section

variable (lib : Nlohmann) (w : Nat → World)

/-- What a line is told that does not parse: `what()` as it is. -/
def badJson (what : Bytes) : Bytes := utf8 "bad json: json parse error: " ++ what

/-- One line that is not empty nor over-long: what is pushed, and how it ends
the service. -/
def serveLine (n : Nat) (line : Bytes) : List Record × Option Ending :=
  match lib.parse line with
  | .error what =>
    -- built outside the `try`
    let e := reply lib "" (.error (badJson what))
    (e.records, e.thrown.map .threw)
  | .ok j =>
    let (e, stop) := handleLine lib (w n) j
    match e.thrown with
    | some what => (e.records, some (.threw what))
    | none => (e.records, if stop then some .stopped else none)

/-- The lines of a buffer in order; `n` counts them, for their worlds. -/
def serveLines (n : Nat) : List Bytes → List Record × Option Ending
  | [] => ([], none)
  | raw :: rest =>
    let line := stripCr raw
    if line = [] then serveLines (n + 1) rest
    else if kMaxLine < line.length then ([], some .overlong)
    else match serveLine lib w n line with
      | (records, some ending) => (records, some ending)
      | (records, none) =>
        let (records', ending) := serveLines (n + 1) rest
        (records ++ records', ending)

/-- The reads of the fd, until it ends or the service does. -/
def serve (n : Nat) (buf : Bytes) : List Bytes → List Record × Ending
  | [] => ([], .closed)
  | chunk :: reads =>
    let (lines, rest) := splitLines LF (buf ++ chunk)
    match serveLines lib w n lines with
    | (records, some ending) => (records, ending)
    | (records, none) =>
      if kMaxLine < rest.length then (records, .overlong)
      else
        let (records', ending) := serve (n + lines.length) rest reads
        (records ++ records', ending)

def serveFd (reads : List Bytes) : List Record × Ending := serve lib w 0 [] reads

end

/-! ## What is owed -/

def isStop (lib : Nlohmann) (line : Bytes) : Bool :=
  match lib.parse line with
  | .ok j => jsonGetStr j "op" "" = "stop"
  | .error _ => false

/-- The lines owed a reply: those not empty, up to the first stop line or
over-long line. -/
def owed (lib : Nlohmann) : List Bytes → List Bytes
  | [] => []
  | raw :: rest =>
    let line := stripCr raw
    if line = [] then owed lib rest
    else if kMaxLine < line.length then []
    else line :: if isStop lib line then [] else owed lib rest

/-- There is a stop line or an over-long line. -/
def ended (lib : Nlohmann) : List Bytes → Bool
  | [] => false
  | raw :: rest =>
    let line := stripCr raw
    if line = [] then ended lib rest
    else if kMaxLine < line.length then true
    else isStop lib line || ended lib rest

/-- A reply, or the record of a snapshot. -/
def Record.isReply : Record → Bool
  | .reply .. | .snapshot .. => true
  | .streamState .. => false

def Record.req : Record → String
  | .reply req _ | .snapshot req _ _ => req
  | .streamState .. => ""

/-- The record is a reply to the line. -/
structure Answers (lib : Nlohmann) (line : Bytes) (r : Record) : Prop where
  req : ∀ j req, lib.parse line = .ok j → j.find "req" = some (.str req) → r.req = req
  snapshot : ∀ req body jpeg, r = .snapshot req body jpeg →
    ∃ j, lib.parse line = .ok j ∧ j.find "op" = some (.str "snapshot")

/-- **Each line owed a reply has exactly one, in line order, and no exception
leaves `serve_fd`.** -/
structure Answered (lib : Nlohmann) (w : Nat → World) (reads : List Bytes) : Prop where
  replies : List.Forall₂ (Answers lib) (owed lib (splitLines LF reads.flatten).1)
    ((serveFd lib w reads).1.filter (·.isReply))
  noThrow : ∀ what, (serveFd lib w reads).2 ≠ .threw what

/-- What the line is told if it does not parse is UTF-8. -/
def Reportable (lib : Nlohmann) (line : Bytes) : Prop := ∀ what, lib.parse line = .error what → Utf8 (badJson what)

/-- A read ends between the CR and the LF of a line of `kMaxLine` bytes. -/
structure CutAtCr (lib : Nlohmann) (buf : Bytes) (before after : List Bytes) : Prop where
  notEnded : ended lib (splitLines LF (buf ++ before.flatten)).1 = false
  length : (splitLines LF (buf ++ before.flatten)).2.length = kMaxLine + 1
  cr : (splitLines LF (buf ++ before.flatten)).2.getLast? = some CR
  lf : after.flatten.head? = some LF

end RetailVision.ControlSocket
