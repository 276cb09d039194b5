/-
The commands of the control plane (`vision_base/control.py`): what
`_validate_params` lets pass, the operation of the supervisor it becomes, and
what the configuration loader's checks of a stream make of an added one. The
id, the url and the threshold are checked alike on both sides
(`request_sound`); the transport and the options the loader alone checks
(`Loadable`).
-/
import RetailVision.Supervisor
import RetailVision.ConfigStreams

set_option linter.all false

namespace RetailVision.Supervisor

open RetailVision.Config

/-! ## Commands -/

/-- `COMMANDS` -/
inductive Command
  | addStream
  | removeStream
  | setThreshold
  | listStreams

def paramError : String → Check := .error

/-- `not sid or not isinstance(sid, str) or not STREAM_ID_RE.match(sid)` -/
def checkStreamIdParam (params : Json) : Check :=
  match params.find "stream_id" with
  | some (.str sid) =>
    if sid ≠ "" ∧ streamIdRe sid = true then .ok ()
    else paramError "params.stream_id must match ^[A-Za-z0-9_-]\x7b1,64\x7d$"
  | _ => paramError "params.stream_id must match ^[A-Za-z0-9_-]\x7b1,64\x7d$"

def checkUrlParam (params : Json) : Check :=
  match params.find "url" with
  | some (.str url) => if url ≠ "" then .ok () else paramError "params.url is required"
  | _ => paramError "params.url is required"

/-- A number with `0 <= v <= 1`. -/
def checkThresholdParam (v : Json) : Check :=
  match number v with
  | some x => if (F64.le (.fin 0) x && x.le (.fin 1)) = true then .ok ()
    else paramError "params.score_threshold must be in [0,1]"
  | none => paramError "params.score_threshold must be in [0,1]"

def checkOptThresholdParam (params : Json) : Check :=
  match params.find "score_threshold" with
  | none | some .null => .ok ()
  | some v => checkThresholdParam v

/-- `_validate_params` -/
def validateParams (command : Command) (params : Json) : Check :=
  if params.isObject = false then paramError "params must be an object"
  else match command with
    | .addStream => do
      checkStreamIdParam params
      checkUrlParam params
      checkOptThresholdParam params
    | .removeStream => checkStreamIdParam params
    | .setThreshold => do
      checkStreamIdParam params
      checkThresholdParam (getD params "score_threshold" .null)
    | .listStreams => .ok ()

/-- The stream dict of `ops_add_stream`. -/
def addedStream (params : Json) : Stream where
  dict := [
    ("stream_id", getD params "stream_id" .null),
    ("url", getD params "url" .null),
    ("name", getD params "name" (.str "")),
    ("transport", getD params "transport" (.str "tcp")),
    ("score_threshold", getD params "score_threshold" .null),
    ("options", getD params "options" (.obj []))]

/-- The operation a command becomes, where it is one on the shards. -/
def Command.request : Command → Json → Option Request
  | .addStream, params => some (.addStream (addedStream params))
  | .removeStream, params => some (.removeStream (idOf (getD params "stream_id" .null)))
  | .setThreshold, params =>
    some (.setThreshold (idOf (getD params "stream_id" .null)) (getD params "score_threshold" .null))
  | .listStreams, _ => none

/-- A request of a command whose parameters pass. -/
def FromControl (c : Request) : Prop :=
  ∃ command params, validateParams command params = .ok () ∧ Command.request command params = some c

/-! ## What the loader makes of a stream added -/

theorem checkStreamIdParam_eq_ok {params : Json} (h : checkStreamIdParam params = .ok ()) :
    ∃ sid, params.find "stream_id" = some (.str sid) ∧ sid ≠ "" ∧ streamIdRe sid = true := by
  unfold checkStreamIdParam at h
  split at h
  next sid hsid =>
    split at h
    next hc => exact ⟨sid, hsid, hc⟩
    · cases h
  · cases h

theorem checkUrlParam_eq_ok {params : Json} (h : checkUrlParam params = .ok ()) :
    ∃ url, params.find "url" = some (.str url) ∧ url ≠ "" := by
  unfold checkUrlParam at h
  split at h
  next url hurl =>
    split at h
    next hc => exact ⟨url, hurl, hc⟩
    · cases h
  · cases h

/-- What is at least a bound is not below it. -/
theorem lt_of_le {x : F64} {b : Rat} (h : F64.le (.fin b) x = true) : x.lt (.fin b) = false := by
  cases x with
  | nan => cases h
  | inf neg => cases neg <;> first | rfl | cases h
  | fin q => simpa [F64.le, F64.lt] using h

theorem gt_of_le {x : F64} {b : Rat} (h : x.le (.fin b) = true) : F64.lt (.fin b) x = false := by
  cases x with
  | nan => cases h
  | inf neg => cases neg <;> first | rfl | cases h
  | fin q => simpa [F64.le, F64.lt] using h

/-- A threshold the control plane lets pass, the loader does. -/
theorem checkThresholdParam_passes {v : Json} (h : checkThresholdParam v = .ok ()) (path : String) :
    checkThreshold v path = .ok () := by
  unfold checkThresholdParam at h
  split at h
  next x hx =>
    split at h
    next hc =>
      obtain ⟨hlo, hhi⟩ := Bool.and_eq_true_iff.mp hc
      unfold checkThreshold checkNum
      rw [hx]
      exact check_bind.mpr ⟨ensure_eq_ok.mpr (lt_of_le hlo), ensure_eq_ok.mpr (gt_of_le hhi)⟩
    · cases h
  · cases h

theorem checkOptThreshold_some {v : Json} {path : String} (h : checkThreshold v path = .ok ()) :
    checkOptThreshold path (some v) = .ok () := by
  unfold checkOptThreshold
  split
  · rfl
  · rfl
  next hv => cases hv; exact h

theorem checkOptThresholdParam_passes {params : Json} (h : checkOptThresholdParam params = .ok ()) (path : String) :
    checkOptThreshold path (some (getD params "score_threshold" .null)) = .ok () := by
  unfold checkOptThresholdParam at h
  unfold getD
  split at h
  next hn => rw [hn]; rfl
  next hn => rw [hn]; rfl
  next v hn hv => rw [hv]; exact checkOptThreshold_some (checkThresholdParam_passes h path)

theorem validateParams_addStream {params : Json} (h : validateParams .addStream params = .ok ()) :
    Sound (addedStream params).json := by
  unfold validateParams at h
  split at h
  · cases h
  simp only [check_bind] at h
  obtain ⟨hsid, hurl, hthreshold⟩ := h
  obtain ⟨sid, hsid, hne, hre⟩ := checkStreamIdParam_eq_ok hsid
  obtain ⟨url, hurl, hurlNe⟩ := checkUrlParam_eq_ok hurl
  have hid : (addedStream params).json.find "stream_id" = some (getD params "stream_id" .null) := rfl
  have hu : (addedStream params).json.find "url" = some (getD params "url" .null) := rfl
  have ht : (addedStream params).json.find "score_threshold" = some (getD params "score_threshold" .null) := rfl
  refine ⟨rfl, ⟨sid, ?_, hne, hre⟩, ⟨url, ?_, hurlNe⟩, ?_⟩
  · rw [hid, getD, hsid]; rfl
  · rw [hu, getD, hurl]; rfl
  · rw [ht]; exact checkOptThresholdParam_passes hthreshold ""

theorem validateParams_setThreshold {params : Json} (h : validateParams .setThreshold params = .ok ()) :
    checkThresholdParam (getD params "score_threshold" .null) = .ok () := by
  unfold validateParams at h
  split at h
  · cases h
  · exact (check_bind.mp h).2

/-- **A stream of a command is sound.** -/
theorem FromControl.sound {st : Stream} (h : FromControl (.addStream st)) : Sound st.json := by
  obtain ⟨command, params, hv, hr⟩ := h
  cases command with
  | addStream => cases hr; exact validateParams_addStream hv
  | removeStream | setThreshold | listStreams => cases hr

/-- A threshold of a command leaves a sound stream sound. -/
theorem FromControl.sound_setThreshold {sid : String} {v : Json} {st : Stream} (h : FromControl (.setThreshold sid v))
    (hst : Sound st.json) : Sound (st.setThreshold v).json := by
  obtain ⟨command, params, hv, hr⟩ := h
  cases command with
  | setThreshold =>
    cases hr
    refine ⟨rfl, ?_, ?_, ?_⟩
    · rw [Stream.find_setThreshold (by decide)]; exact hst.id
    · rw [Stream.find_setThreshold (by decide)]; exact hst.url
    · rw [Stream.json, Stream.setThreshold, Json.find_setMember_self]
      exact checkOptThreshold_some (checkThresholdParam_passes (validateParams_setThreshold hv) "")
  | addStream | removeStream | listStreams => cases hr

/-- No threshold changes what a stream can be loaded with. -/
theorem loadable_setThreshold {py : Py} {st : Stream} {v : Json} (h : Loadable py st.json) :
    Loadable py (st.setThreshold v).json := by
  refine ⟨?_, ?_⟩
  · rw [getD, Stream.find_setThreshold (by decide)]; exact h.transport
  · rw [getD, Stream.find_setThreshold (by decide)]; exact h.options

theorem sidOf_json {st : Stream} : sidOf st.json = st.streamId := by
  unfold sidOf getD Stream.streamId
  cases st.json.find "stream_id" with
  | none => rfl
  | some j => cases j <;> rfl

end RetailVision.Supervisor
