/-
The configuration loader of the supervisor (`vision_base/config.py`): the
defaults, the merge, the validation, and `load` with the persisted streams
laid over the base configuration.

Errors are `ConfigError` texts, field path first. Where Python would raise
something else on the way (a section that is no object, a float of an integer
out of range) the text names that; nothing catches it either. A `BaseConfig`
is the merged object it is made of.
-/
import RetailVision.Json
import Mathlib.Data.List.Basic

set_option linter.all false

namespace RetailVision.Config

/-- What is used of Python's floats, and of `repr`. -/
structure Py where
  /-- `float` of an integer; `none` where it overflows -/
  toFloat : Int → Option F64
  /-- `-` of floats -/
  sub : F64 → F64 → F64
  repr : Json → String

abbrev Check := Except String Unit

/-- `_err` -/
def err {α : Type} (path msg : String) : Except String α := .error (path ++ ": " ++ msg)

/-- Raises ensure the condition holds. -/
def ensure (p : Prop) [Decidable p] (path msg : String) : Check := if p then .ok () else err path msg

/-! ## Numbers -/

/-! The doubles nearest to the decimals `0.05`, `0.1`, `0.15`, `0.2`, `0.35` and `0.45`. -/

def d005 : Rat := 3602879701896397 / 72057594037927936
def d01 : Rat := 3602879701896397 / 36028797018963968
def d015 : Rat := 5404319552844595 / 36028797018963968
def d02 : Rat := 3602879701896397 / 18014398509481984
def d035 : Rat := 3152519739159347 / 9007199254740992
def d045 : Rat := 8106479329266893 / 18014398509481984

/-- An `int` or a `float`, no `bool`, as what it is compared by. -/
def number : Json → Option F64
  | .int i => some (.fin i)
  | .float x => some x
  | _ => none

def isInt : Json → Option Int
  | .int i => some i
  | _ => none

/-- `float(value)` of a number. -/
def Py.float (py : Py) : Json → Option F64
  | .int i => py.toFloat i
  | .float x => some x
  | _ => none

/-- `x - y` of numbers. -/
def Py.minus (py : Py) : Json → Json → Option F64
  | .int i, .int k => some (.fin (i - k : Int))
  | x, y => do
    let x ← py.float x
    let y ← py.float y
    pure (py.sub x y)

/-! ## Checks of one value -/

def require (container : Json) (key path : String) : Check :=
  ensure ((container.find key).isSome = true) path "required"

def checkStr (value : Json) (path : String) (nonempty : Bool) : Check :=
  match value with
  | .str s => if nonempty = true ∧ s = "" then err path "must not be empty" else .ok ()
  | _ => err path "must be a string"

def checkLo (x : F64) (path : String) : Option (Rat × String) → Check
  | some (lo, text) => ensure (x.lt (.fin lo) = false) path ("must be >= " ++ text)
  | none => .ok ()

def checkHi (x : F64) (path : String) : Option (Rat × String) → Check
  | some (hi, text) => ensure (F64.lt (.fin hi) x = false) path ("must be <= " ++ text)
  | none => .ok ()

/-- `_check_num`, with the bounds and their texts. -/
def checkNum (value : Json) (path : String) (lo hi : Option (Rat × String)) : Check :=
  match number value with
  | none => err path "must be a number"
  | some x => do
    checkLo x path lo
    checkHi x path hi

def checkInt (value : Json) (path : String) (minimum : Int) : Check :=
  match isInt value with
  | none => err path "must be an integer"
  | some i => ensure (minimum ≤ i) path ("must be >= " ++ toString minimum)

def checkThreshold (value : Json) (path : String) : Check :=
  checkNum value path (some (0, "0.0")) (some (1, "1.0"))

def checkBool (value : Json) (path : String) : Check :=
  match value with
  | .bool _ => .ok ()
  | _ => err path "must be a boolean"

def checkObject (value : Json) (path : String) : Check := ensure (value.isObject = true) path "must be an object"

def isAbs (s : String) : Bool := s.toList.head? = some '/'

def endsWithSo (s : String) : Bool := ".so".toList.isSuffixOf s.toList

def checkPluginPath (value : Json) (path : String) : Check := do
  checkStr value path true
  match value with
  | .str s => do
    ensure (isAbs s = true) path "must be an absolute path"
    ensure (endsWithSo s = true) path "must end with '.so'"
  | _ => pure ()

/-- A check of each element, under its index. -/
def checkEach (check : Json → String → Check) (path : String) (i : Nat) : List Json → Check
  | [] => .ok ()
  | x :: xs => do
    check x (path ++ "[" ++ toString i ++ "]")
    checkEach check path (i + 1) xs

/-- `.get(key, dflt)` -/
def getD (j : Json) (key : String) (dflt : Json) : Json := (j.find key).getD dflt

/-! ## Options of a stream -/

def builtinAnalyzers : List String :=
  ["line_cross", "zone", "dwell", "speed", "direction", "count_threshold", "pose_angle"]

def unimplementedAnalyzers : List String := ["slot_coverage", "stage2", "text_vote"]

def isPluginName (name : String) : Bool := "plugin:".toList.isPrefixOf name.toList

/-- One entry of `options.analyzers`. -/
def checkAnalyzer (py : Py) (a : Json) (p : String) : Check := do
  checkObject a p
  match a.find "name" with
  | some (.str name) => do
    ensure (name ≠ "") (p ++ ".name") "required"
    ensure (name ∉ unimplementedAnalyzers) (p ++ ".name")
      ("analyzer " ++ py.repr (.str name) ++ " is not implemented by this vb-runtime")
    ensure (name ∈ builtinAnalyzers ∨ isPluginName name = true) (p ++ ".name")
      ("unknown analyzer " ++ py.repr (.str name))
    match a.find "config" with
    | none => err (p ++ ".config") "required"
    | some c => checkObject c (p ++ ".config")
  | _ => err (p ++ ".name") "required"

/-- `0 <= x0 < x1 <= 1` -/
def within (x0 x1 : F64) : Bool := F64.le (.fin 0) x0 && x0.lt x1 && F64.le x1 (.fin 1)

def checkRoiCrop (py : Py) (roi : Json) (path : String) : Check :=
  match roi with
  | .null => .ok ()
  | .arr [x0, y0, x1, y1] =>
    match number x0, number y0, number x1, number y1 with
    | some a0, some b0, some a1, some b1 =>
      match py.float x0, py.float y0, py.float x1, py.float y1 with
      | some f0, some g0, some f1, some g1 => do
        ensure ((f0.isFinite && g0.isFinite && f1.isFinite && g1.isFinite) = true) path "coordinates must be finite"
        ensure ((within a0 a1 && within b0 b1) = true) path "requires 0 <= x0 < x1 <= 1 and 0 <= y0 < y1 <= 1"
        match py.minus x1 x0, py.minus y1 y0 with
        | some w, some h =>
          ensure (w.lt (.fin d005) = false ∧ h.lt (.fin d005) = false) path "crop sides must be >= 0.05"
        | _, _ => .error "OverflowError: int too large to convert to float"
      | _, _, _, _ => .error "OverflowError: int too large to convert to float"
    | _, _, _, _ => err path "must be null or [x0, y0, x1, y1] numbers"
  | _ => err path "must be null or [x0, y0, x1, y1] numbers"

def checkMaxFps (py : Py) (path : String) : Option Json → Check
  | none => .ok ()
  | some v => do
    checkNum v path (some (0, "0.0")) none
    match py.float v with
    | some x => ensure (x.isFinite = true) path "must be finite"
    | none => .error "OverflowError: int too large to convert to float"

def checkAnalyzerList (py : Py) (path : String) : Option Json → Check
  | none => .ok ()
  | some (.arr an) => checkEach (checkAnalyzer py) path 0 an
  | some _ => err path "must be an array"

/-- `_check_options` -/
def checkOptions (py : Py) (options : Json) (path : String) : Check := do
  checkObject options path
  checkMaxFps py (path ++ ".max_fps") (options.find "max_fps")
  checkRoiCrop py (getD options "roi_crop" .null) (path ++ ".roi_crop")
  checkAnalyzerList py (path ++ ".analyzers") (options.find "analyzers")

/-! ## Streams -/

/-- A character of a stream id. -/
def idChar (c : Char) : Bool :=
  ('A' ≤ c ∧ c ≤ 'Z') || ('a' ≤ c ∧ c ≤ 'z') || ('0' ≤ c ∧ c ≤ '9') || c = '_' || c = '-'

/-- `^[A-Za-z0-9_-]{1,64}$`, where `$` also matches before a newline at the end. -/
def streamIdRe (s : String) : Bool :=
  let cs := s.toList
  let body := if cs.getLast? = some '\n' then cs.dropLast else cs
  body.all idChar && 1 ≤ body.length && body.length ≤ 64

def checkTransport (path : String) : Json → Check
  | .str t => ensure (t = "tcp" ∨ t = "udp") path "must be 'tcp' or 'udp'"
  | _ => err path "must be 'tcp' or 'udp'"

/-- A threshold that may be left out, or null. -/
def checkOptThreshold (path : String) : Option Json → Check
  | none | some .null => .ok ()
  | some v => checkThreshold v path

def idOf : Json → String
  | .str id => id
  | _ => ""

/-- One stream; `seen` are the ids of the ones before. -/
def checkStream (py : Py) (seen : List String) (s : Json) (p : String) : Except String String := do
  checkObject s p
  require s "stream_id" (p ++ ".stream_id")
  require s "url" (p ++ ".url")
  let sid := getD s "stream_id" .null
  checkStr sid (p ++ ".stream_id") true
  ensure (streamIdRe (idOf sid) = true) (p ++ ".stream_id") "must match ^[A-Za-z0-9_-]\x7b1,64\x7d$"
  ensure (idOf sid ∉ seen) (p ++ ".stream_id") ("duplicate stream_id " ++ py.repr sid)
  checkStr (getD s "url" .null) (p ++ ".url") true
  checkTransport (p ++ ".transport") (getD s "transport" (.str "tcp"))
  checkOptThreshold (p ++ ".score_threshold") (s.find "score_threshold")
  checkOptions py (getD s "options" (.obj [])) (p ++ ".options")
  pure (idOf sid)

def checkStreams (py : Py) (seen : List String) (i : Nat) : List Json → Check
  | [] => .ok ()
  | s :: ss => do
    let id ← checkStream py seen s ("streams[" ++ toString i ++ "]")
    checkStreams py (id :: seen) (i + 1) ss

/-! ## Defaults and merge -/

def num (q : Rat) : Json := .float (.fin q)

def backendDefaults : Json := .obj [
  ("input_size", .arr [.int 640, .int 640]), ("align", .str "center"), ("score_threshold", num d035),
  ("nms_threshold", num d045), ("options", .obj [])]

def runtimeDefaults : Json := .obj [
  ("workers", .str "auto"), ("max_streams_per_worker", .int 0), ("contexts_per_worker", .int 1),
  ("publishers_per_process", .int 1), ("publish_queue", .int 256), ("max_streams", .int 16),
  ("open_timeout_s", num 8), ("reconnect_delay_s", num 1), ("restart_backoff_s", num 5)]

def nativeDefaults : Json := .obj [
  ("binary", .str "/opt/vb/bin/vb-runtime"), ("hello_timeout_s", num 10), ("snapshot_ring", .int 2),
  ("jpeg_quality", .int 85)]

def trackerDefaults : Json := .obj [
  ("enabled", .bool true), ("iou_threshold", num d02), ("dist_threshold", num d015),
  ("max_misses", .int 15), ("max_lost_s", num 0), ("min_hits", .int 1), ("class_aware", .bool true),
  ("anchor", .str "center")]

def analyzersDefaults : Json := .obj [("plugins", .arr [])]

def mqttDefaults : Json := .obj [
  ("port", .int 1883), ("username", .str ""), ("password", .str ""), ("tls", .bool false), ("ca_file", .str ""),
  ("cert_file", .str ""), ("key_file", .str ""), ("keepalive_s", .int 30), ("status_interval_s", .int 10)]

def healthDefaults : Json := .obj [("host", .str "127.0.0.1"), ("port", .int 8099)]

def appDefaults : Json := .obj [
  ("name", .str "echo"), ("options", .obj [("publish_hz", num 1), ("frame_stride", .int 1)])]

def devDefaults : Json := .obj [("raw_tensors", .bool false), ("max_fps", num 1), ("max_streams", .int 1)]

/-- `DEFAULTS` -/
def defaults : Json := .obj [
  ("backend", backendDefaults), ("runtime", runtimeDefaults), ("native", nativeDefaults),
  ("state_dir", .str "/data/vb"), ("tracker", trackerDefaults), ("analyzers", analyzersDefaults),
  ("mqtt", mqttDefaults), ("health", healthDefaults), ("streams_file", .str ""), ("streams", .arr []),
  ("app", appDefaults), ("dev", devDefaults)]

mutual

/-- `_merge`: each default, with what overrides it, then what has no default.
Objects are merged, anything else is replaced. -/
def merge : Json → Json → Json
  | .obj ds, .obj vs => .obj (mergeMembers ds vs ++ vs.filter fun kv => ds.all fun d => d.1 != kv.1)
  | _, v => v

def mergeMembers : List (String × Json) → List (String × Json) → List (String × Json)
  | [], _ => []
  | (k, d) :: ds, vs =>
    (k, match (Json.obj vs).find k with
      | some v => merge d v
      | none => d) :: mergeMembers ds vs

end

/-- A section with its defaults; what is no object has no `items`. -/
def mergeSection (ds : Json) (data : Json) (key : String) : Except String Json :=
  match data.find key with
  | none => .ok ds
  | some (.obj vs) => .ok (merge ds (.obj vs))
  | some _ => .error "AttributeError: object has no attribute 'items'"

/-! ## The sections -/

def topLevelKeys : List String :=
  ["schema", "device_id", "backend", "runtime", "native", "state_dir", "tracker", "analyzers", "mqtt", "health",
    "streams_file", "streams", "app", "dev"]

def keys : Json → List String
  | .obj kvs => kvs.map (·.1)
  | _ => []

def checkKeys (data : Json) (allowed : List String) (path msg : String) : Check :=
  match (keys data).find? (· ∉ allowed) with
  | some k => err (path ++ k) msg
  | none => .ok ()

/-- The checks of `dev` with its defaults. -/
def checkDevValues (allowDev : Bool) (merged : Json) : Check := do
  match getD merged "raw_tensors" .null with
  | .bool raw => if raw && !allowDev then .error "dev.raw_tensors is not allowed in production configs" else pure ()
  | _ => err "dev.raw_tensors" "must be a boolean"
  checkNum (getD merged "max_fps" .null) "dev.max_fps" none none
  match number (getD merged "max_fps" .null) with
  | some x => ensure ((F64.lt (.fin 0) x && x.le (.fin 2)) = true) "dev.max_fps" "must be in (0, 2]"
  | none => pure ()
  checkInt (getD merged "max_streams" .null) "dev.max_streams" 1
  ensure (isInt (getD merged "max_streams" .null) = some 1) "dev.max_streams" "must be 1"

/-- `_check_dev` -/
def checkDev (allowDev : Bool) (data : Json) : Check :=
  match data.find "dev" with
  | none | some .null => .ok ()
  | some dev => do
    checkObject dev "dev"
    checkKeys dev ["raw_tensors", "max_fps", "max_streams"] "dev." "unknown dev key"
    checkDevValues allowDev (merge devDefaults dev)

def schemaId : String := "vb.config/1"

def checkHead (data : Json) : Check := do
  require data "schema" "schema"
  match data.find "schema" with
  | some (.str s) => ensure (s = schemaId) "schema" "must be 'vb.config/1'"
  | _ => err "schema" "must be 'vb.config/1'"
  require data "device_id" "device_id"
  checkStr (getD data "device_id" .null) "device_id" true

/-- Two positive integers. -/
def isSize : Json → Bool
  | .arr [.int w, .int h] => 0 < w && 0 < h
  | _ => false

def checkBackendValues (py : Py) (backend : Json) : Check := do
  require backend "name" "backend.name"
  checkStr (getD backend "name" .null) "backend.name" true
  require backend "model_path" "backend.model_path"
  checkStr (getD backend "model_path" .null) "backend.model_path" true
  ensure (isSize (getD backend "input_size" (.arr [.int 640, .int 640])) = true) "backend.input_size"
    "must be two positive integers [w, h]"
  match getD backend "align" (.str "center") with
  | .str "center" => pure ()
  | .str "top_left" => err "backend.align" "'top_left' is not supported by this vb-runtime (only 'center')"
  | _ => err "backend.align" "must be 'center' or 'top_left'"
  checkThreshold (getD backend "score_threshold" (num d035)) "backend.score_threshold"
  checkThreshold (getD backend "nms_threshold" (num d045)) "backend.nms_threshold"
  ensure (py.float (getD backend "nms_threshold" (num d045)) = some (.fin d045)) "backend.nms_threshold"
    (py.repr (getD backend "nms_threshold" (num d045)) ++ " is not supported by this vb-runtime (only 0.45)")
  checkObject (getD backend "options" (.obj [])) "backend.options"

def checkBackend (py : Py) (data : Json) : Check := do
  require data "backend" "backend"
  checkObject (getD data "backend" .null) "backend"
  checkBackendValues py (getD data "backend" .null)

def checkWorkers : Json → Check
  | .str "auto" => .ok ()
  | workers => checkInt workers "runtime.workers" 1

def checkRuntime (runtime : Json) : Check := do
  checkWorkers (getD runtime "workers" .null)
  checkInt (getD runtime "max_streams_per_worker" .null) "runtime.max_streams_per_worker" 0
  checkInt (getD runtime "contexts_per_worker" .null) "runtime.contexts_per_worker" 1
  checkInt (getD runtime "publishers_per_process" .null) "runtime.publishers_per_process" 1
  checkInt (getD runtime "publish_queue" .null) "runtime.publish_queue" 1
  checkInt (getD runtime "max_streams" .null) "runtime.max_streams" 1
  checkNum (getD runtime "open_timeout_s" .null) "runtime.open_timeout_s" (some (0, "0.0")) none
  checkNum (getD runtime "reconnect_delay_s" .null) "runtime.reconnect_delay_s" (some (0, "0.0")) none
  checkNum (getD runtime "restart_backoff_s" .null) "runtime.restart_backoff_s" (some (0, "0.0")) none

def checkNative (py : Py) (native : Json) : Check := do
  checkStr (getD native "binary" .null) "native.binary" true
  match getD native "binary" .null with
  | .str s => ensure (isAbs s = true) "native.binary" "must be an absolute path"
  | _ => pure ()
  checkNum (getD native "hello_timeout_s" .null) "native.hello_timeout_s" (some (0, "0.0")) none
  checkInt (getD native "snapshot_ring" .null) "native.snapshot_ring" 1
  let q := getD native "jpeg_quality" .null
  checkInt q "native.jpeg_quality" 1
  match isInt q with
  | some n => do
    ensure (n = 85 ∨ n < 1 ∨ 100 < n) "native.jpeg_quality" (py.repr q ++ " is not supported by this vb-runtime (only 85)")
    ensure (n ≤ 100) "native.jpeg_quality" "must be <= 100"
  | none => pure ()

def checkTracker (tracker : Json) : Check := do
  checkBool (getD tracker "enabled" .null) "tracker.enabled"
  checkThreshold (getD tracker "iou_threshold" .null) "tracker.iou_threshold"
  checkThreshold (getD tracker "dist_threshold" .null) "tracker.dist_threshold"
  checkInt (getD tracker "max_misses" .null) "tracker.max_misses" 0
  checkNum (getD tracker "max_lost_s" .null) "tracker.max_lost_s" (some (0, "0.0")) none
  checkInt (getD tracker "min_hits" .null) "tracker.min_hits" 1
  checkBool (getD tracker "class_aware" .null) "tracker.class_aware"
  match getD tracker "anchor" .null with
  | .str a => ensure (a = "center" ∨ a = "bottom_center") "tracker.anchor" "must be 'center' or 'bottom_center'"
  | _ => err "tracker.anchor" "must be 'center' or 'bottom_center'"

def decoderTypes : List String := ["yolox", "yolov8", "yolov8_dfl", "yolo_pose", "classify", "raw"]

def decoderKeys : List String := ["type", "num_classes", "reg_max", "strides", "keypoints", "top_k", "softmax"]

/-- A non-empty array of positive integers. -/
def isStrides : Json → Bool
  | .arr (x :: xs) => (x :: xs).all fun v => match v with
    | .int i => 1 ≤ i
    | _ => false
  | _ => false

/-- `(data.get("dev") or {}).get("raw_tensors")`, as a condition. -/
def devRaw (data : Json) : Bool :=
  match (getD data "dev" .null).find "raw_tensors" with
  | some (.bool raw) => raw
  | _ => false

/-- `_check_decoder`; `raw` is whether the raw tensors are asked for. -/
def checkDecoder (py : Py) (backend tracker : Json) (raw : Bool) : Check :=
  match backend.find "decoder" with
  | none | some .null => .ok ()
  | some dec => do
    checkObject dec "backend.decoder"
    checkKeys dec decoderKeys "backend.decoder." "unknown decoder key"
    match dec.find "type" with
    | some (.str t) => do
      ensure (t ≠ "") "backend.decoder.type" "required, must be a string"
      ensure (t ≠ "ctc") "backend.decoder" "ctc is only valid in stage2"
      ensure (t ∈ decoderTypes) "backend.decoder.type"
        ("must be one of ['classify', 'raw', 'yolo_pose', 'yolov8', 'yolov8_dfl', 'yolox'], got " ++ py.repr (.str t))
      ensure (t ≠ "raw" ∨ raw = true) "backend.decoder" "raw decoder requires dev.raw_tensors=true"
    | _ => err "backend.decoder.type" "required, must be a string"
    checkInt (getD dec "num_classes" (.int 80)) "backend.decoder.num_classes" 1
    checkInt (getD dec "reg_max" (.int 16)) "backend.decoder.reg_max" 1
    ensure (isStrides (getD dec "strides" (.arr [.int 8, .int 16, .int 32])) = true) "backend.decoder.strides"
      "must be a non-empty array of positive integers"
    checkInt (getD dec "keypoints" (.int 17)) "backend.decoder.keypoints" 0
    checkInt (getD dec "top_k" (.int 1)) "backend.decoder.top_k" 1
    checkBool (getD dec "softmax" (.bool true)) "backend.decoder.softmax"
    match dec.find "type", getD tracker "enabled" (.bool true) with
    | some (.str "classify"), .bool true => err "backend.decoder" "classify decoder requires tracker.enabled=false"
    | _, _ => pure ()

def checkAnalyzers (analyzers : Json) : Check :=
  match getD analyzers "plugins" .null with
  | .arr ps => checkEach checkPluginPath "analyzers.plugins" 0 ps
  | _ => err "analyzers.plugins" "must be an array"

def checkPort (value : Json) (path : String) : Check := do
  checkInt value path 1
  match isInt value with
  | some n => ensure (n ≤ 65535) path "must be <= 65535"
  | none => pure ()

def checkMqtt (partly : Bool) (mqtt : Json) : Check := do
  if partly then pure ()
  else do
    require mqtt "host" "mqtt.host"
    checkStr (getD mqtt "host" .null) "mqtt.host" true
    require mqtt "topic_root" "mqtt.topic_root"
    checkStr (getD mqtt "topic_root" .null) "mqtt.topic_root" true
  checkPort (getD mqtt "port" .null) "mqtt.port"
  checkStr (getD mqtt "client_id" (.str "")) "mqtt.client_id" false

/-- `_check_input` -/
def checkInput (py : Py) (backend : Json) : Check :=
  match backend.find "input" with
  | none | some .null => .ok ()
  | some inp => do
    checkObject inp "backend.input"
    let unknown := (keys inp).filter (· ∉ ["color_order", "divide"])
    ensure (unknown = []) "backend.input"
      ("unknown key(s): " ++ py.repr (.arr ((unknown.mergeSort (fun j k => decide (j ≤ k))).map .str)))
    match inp.find "color_order" with
    | none => pure ()
    | some (.str c) => ensure (c = "bgr" ∨ c = "rgb") "backend.input.color_order" "must be \"bgr\" or \"rgb\""
    | some _ => err "backend.input.color_order" "must be \"bgr\" or \"rgb\""
    match inp.find "divide" with
    | none => pure ()
    | some d => match number d with
      | some x => ensure (x.le (.fin 0) = false) "backend.input.divide" "must be a number > 0"
      | none => err "backend.input.divide" "must be a number > 0"

def checkMqttTimes (mqtt : Json) : Check := do
  checkNum (getD mqtt "keepalive_s" .null) "mqtt.keepalive_s" (some (1, "1.0")) none
  checkNum (getD mqtt "status_interval_s" .null) "mqtt.status_interval_s" (some (d01, "0.1")) none

def checkApp (partly : Bool) (app : Json) : Check := do
  match app.find "module" with
  | some m => checkStr m "app.module" true
  | none => if partly then pure () else err "app.module" "required"
  match app.find "options" with
  | some options => do
    checkObject options "app.options"
    match options.find "frame_every" with
    | some n => checkInt n "app.options.frame_every" 0
    | none => pure ()
  | none => pure ()

def checkHealth (health : Json) : Check := do
  checkStr (getD health "host" .null) "health.host" true
  checkPort (getD health "port" .null) "health.port"

/-- A member that is a string, if it is there. -/
def checkOptStr (data : Json) (key : String) (nonempty : Bool) : Check :=
  match data.find key with
  | some v => checkStr v key nonempty
  | none => .ok ()

/-- Explicit workers cannot hold more streams than fit. -/
def checkCapacity (runtime : Json) (n : Nat) : Check :=
  match getD runtime "workers" .null, getD runtime "max_streams_per_worker" .null with
  | .int workers, .int perWorker =>
    ensure (perWorker ≤ 0 ∨ (n : Int) ≤ workers * perWorker) "runtime.workers"
      (toString workers ++ " workers x max_streams_per_worker " ++ toString perWorker ++ " < " ++ toString n ++ " streams")
  | _, _ => .ok ()

def checkStreamList (py : Py) (runtime : Json) : Json → Check
  | .arr streams => do
    checkStreams py [] 0 streams
    checkCapacity runtime streams.length
  | _ => err "streams" "must be an array"

/-- A section that only a partial configuration may leave out. -/
def requireFull (partly : Bool) (data : Json) (key : String) : Check :=
  if partly then .ok () else require data key key

/-- `_validate` -/
def validate (py : Py) (partly allowDev : Bool) (data : Json) : Check := do
  ensure (data.isObject = true) "$" "top level must be an object"
  checkKeys data topLevelKeys "" "unknown top-level key"
  checkDev allowDev data
  checkHead data
  checkBackend py data
  let backend := getD data "backend" .null
  let runtime ← mergeSection runtimeDefaults data "runtime"
  checkRuntime runtime
  let native ← mergeSection nativeDefaults data "native"
  checkNative py native
  checkOptStr data "state_dir" true
  let tracker ← mergeSection trackerDefaults data "tracker"
  checkTracker tracker
  checkDecoder py backend tracker (devRaw data)
  let analyzers ← mergeSection analyzersDefaults data "analyzers"
  checkAnalyzers analyzers
  let mqtt ← mergeSection mqttDefaults data "mqtt"
  requireFull partly data "mqtt"
  checkMqtt partly mqtt
  checkInput py backend
  checkMqttTimes mqtt
  requireFull partly data "app"
  let app ← mergeSection appDefaults data "app"
  checkApp partly app
  let health ← mergeSection healthDefaults data "health"
  checkHealth health
  checkOptStr data "streams_file" false
  checkStreamList py runtime (getD data "streams" (.arr []))

/-- `merged["streams"] = streams` -/
def withStreams (streams : List Json) : Json → Json
  | .obj kvs => .obj (kvs.map fun kv => if kv.1 = "streams" then (kv.1, .arr streams) else kv)
  | j => j

/-- `merged["streams_file"]`, a string once validated. -/
def streamsFileOf (merged : Json) : String :=
  match getD merged "streams_file" .null with
  | .str path => path
  | _ => ""

/-- **`load`** of a configuration file, and of the streams file where there is one. -/
def load (py : Py) (partly allowDev : Bool) (data : Json) (streamsFile : Option Json) : Except String Json := do
  validate py partly allowDev data
  let merged := merge defaults data
  if streamsFileOf merged = "" then pure merged
  else match streamsFile with
    | none => pure merged
    | some (.arr streams) => do
      validate py partly allowDev (withStreams streams merged)
      pure (withStreams streams merged)
    | some _ => err "streams_file" "content must be an array of stream objects"

end RetailVision.Config
