/-
From a stream of the configuration to the `StreamSpec` a shard starts it with:
`ShardWorker.run` gives the members of the object to the constructor, which
takes no others than its fields. The loader looks at the members it knows and
passes over the rest, so it accepts more than the shard can start
(`specs_iff`).
-/
import RetailVision.PersistedStreams

set_option linter.all false

namespace RetailVision.Config

/-- Why the call `StreamSpec(**s)` raises a `TypeError`. -/
inductive TypeError
  | notMapping
  | unexpected (key : String)
  | missing (names : List String)
deriving DecidableEq

structure StreamSpec where
  streamId : Json
  url : Json
  name : Json
  transport : Json
  scoreThreshold : Json
  options : Json

namespace StreamSpec

/-- The fields without a default. -/
def required : List String := ["stream_id", "url"]

def fields : List String := required ++ ["name", "transport", "score_threshold", "options"]

/-- `StreamSpec(**s)`. Of the types of the values a dataclass knows nothing. -/
def ofKwargs (s : Json) : Except TypeError StreamSpec :=
  if s.isObject = true then
    match (keys s).find? (· ∉ fields) with
    | some key => .error (.unexpected key)
    | none =>
      match s.find "stream_id", s.find "url" with
      | some streamId, some url =>
        .ok {
          streamId := streamId
          url := url
          name := getD s "name" (.str "")
          transport := getD s "transport" (.str "tcp")
          scoreThreshold := getD s "score_threshold" .null
          options := getD s "options" (.obj []) }
      | _, _ => .error (.missing (required.filter fun name => (s.find name).isNone))
  else .error .notMapping

end StreamSpec

/-- The loop of `ShardWorker.run`, as far as it builds the specs of its streams:
the first one that raises ends the start of the shard. -/
def specsOf : List Json → Except TypeError (List StreamSpec)
  | [] => .ok []
  | s :: ss => do
    let spec ← StreamSpec.ofKwargs s
    let specs ← specsOf ss
    return spec :: specs

/-- The streams of a configuration. -/
def streamsOf (data : Json) : List Json :=
  match getD data "streams" (.arr []) with
  | .arr ss => ss
  | _ => []

/-- Every member of the stream is one of the fields. -/
def KnownKeys (s : Json) : Prop := ∀ key ∈ keys s, key ∈ StreamSpec.fields

variable {py : Py} {partly allowDev : Bool} {data merged s : Json} {ss : List Json} {streamsFile : Option Json}

/-- A stream the loader accepts has what the constructor requires. -/
theorem ofKwargs_ok_iff (h : Sound s) : (∃ spec, StreamSpec.ofKwargs s = .ok spec) ↔ KnownKeys s := by
  obtain ⟨sid, hsid, _⟩ := h.id
  obtain ⟨url, hurl, _⟩ := h.url
  rw [StreamSpec.ofKwargs, if_pos h.isObject, hsid, hurl]
  cases hfind : (keys s).find? (· ∉ StreamSpec.fields) with
  | some key =>
    have hmem := List.mem_of_find?_eq_some hfind
    have hnot : key ∉ StreamSpec.fields := by simpa using List.find?_some hfind
    simp only [reduceCtorEq, exists_false, false_iff]
    exact fun hk => hnot (hk key hmem)
  | none =>
    simp only [Except.ok.injEq, exists_eq', true_iff]
    intro key hkey
    simpa using List.find?_eq_none.mp hfind key hkey

theorem specsOf_ok_iff : (∃ specs, specsOf ss = .ok specs) ↔ ∀ s ∈ ss, ∃ spec, StreamSpec.ofKwargs s = .ok spec := by
  induction ss with
  | nil => simp [specsOf]
  | cons s ss ih =>
    rw [List.forall_mem_cons, ← ih, specsOf]
    cases StreamSpec.ofKwargs s with
    | error e => simp [bind, Except.bind]
    | ok spec => cases specsOf ss <;> simp [bind, Except.bind, pure, Except.pure]

theorem streamsOf_eq (h : getD data "streams" (.arr []) = .arr ss) : streamsOf data = ss := by rw [streamsOf, h]

theorem forall_ok_iff (h : checkStreams py [] 0 ss = .ok ()) :
    (∀ s ∈ ss, ∃ spec, StreamSpec.ofKwargs s = .ok spec) ↔ ∀ s ∈ ss, KnownKeys s := by
  have hsound := (checkStreams_eq_ok.mp h).1
  exact forall₂_congr fun s hs => ofKwargs_ok_iff (hsound s hs).1

/-- What `load` returns starts a shard exactly when its streams have no other
members. -/
theorem loaded_specs_iff (h : load py partly allowDev data streamsFile = .ok merged) :
    (∃ specs, specsOf (streamsOf merged) = .ok specs) ↔ ∀ s ∈ streamsOf merged, KnownKeys s := by
  obtain ⟨m, ss, hl⟩ := load_ok h
  rw [specsOf_ok_iff, streamsOf_eq hl.streamsAre]
  exact forall_ok_iff hl.streamsPass

/-- Every stream of an accepted configuration can be started exactly when none
has a member that `StreamSpec` does not know. -/
theorem specs_iff (h : validate py partly allowDev data = .ok ()) :
    (∀ s ∈ streamsOf data, ∃ spec, StreamSpec.ofKwargs s = .ok spec) ↔ ∀ s ∈ streamsOf data, KnownKeys s := by
  obtain ⟨m, ss, ha⟩ := validate_eq_ok.mp h
  rw [streamsOf_eq ha.streamsAre]
  exact forall_ok_iff ha.streamsPass

/-- The configuration of a device with one camera, and a member more. -/
def cameraWith (key : String) (value : Json) : Json := .obj [
  ("schema", .str "vb.config/1"), ("device_id", .str "till-1"),
  ("backend", .obj [("name", .str "hailo"), ("model_path", .str "/opt/models/yolo.hef")]),
  ("mqtt", .obj [("host", .str "127.0.0.1"), ("topic_root", .str "vb/till-1")]),
  ("app", .obj [("module", .str "app.echo")]),
  ("streams", .arr [.obj [("stream_id", .str "cam-1"), ("url", .str "rtsp://camera/1"), (key, value)]])]

theorem specs_named_camera :
    ∃ spec, StreamSpec.ofKwargs (.obj [("stream_id", .str "cam-1"), ("url", .str "rtsp://camera/1"), ("name", .str "door")]) = .ok spec := by
  have hvalid : validate Supervisor.exactPy false false (cameraWith "name" (.str "door")) = .ok () := by decide +kernel
  have hknown : ∀ s ∈ streamsOf (cameraWith "name" (.str "door")), KnownKeys s := by
    simp [streamsOf, cameraWith, getD, Json.find, KnownKeys, keys, StreamSpec.fields, StreamSpec.required]
  exact (specs_iff hvalid).mpr hknown _ List.mem_cons_self

/-- A typing slip in the name of a member is accepted, and raises in the shard. -/
theorem not_specs :
    ¬ ∀ (py : Py) (partly allowDev : Bool) (data : Json), validate py partly allowDev data = .ok () →
      ∀ s ∈ streamsOf data, ∃ spec, StreamSpec.ofKwargs s = .ok spec := by
  intro h
  have hvalid : validate Supervisor.exactPy false false (cameraWith "transprot" (.str "udp")) = .ok () := by decide +kernel
  obtain ⟨spec, hspec⟩ := h Supervisor.exactPy false false _ hvalid _ List.mem_cons_self
  simp [StreamSpec.ofKwargs, Json.isObject, keys, StreamSpec.fields, StreamSpec.required] at hspec

end RetailVision.Config
