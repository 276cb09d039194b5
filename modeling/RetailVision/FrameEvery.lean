/-
Which frames are published, with `--frame-every N` by the native runtime on its
own (`vb/src/out/standalone.cpp`) and with `frame_every` N by the app of the
config mode (`vision_base/shard.py`, `vision_base/apps.py`). The one counts and
then looks, and takes the N-th record of every N; the other takes the first. So
what they publish is the same exactly where these two are published alike
(`modes_agree_iff`), which with different sequence numbers is for N = 1 only.
Left out: the events of either.
-/
import RetailVision.FrameJson
import RetailVision.Lib.Every
import Mathlib.Algebra.Field.Rat
import Mathlib.Algebra.Order.Ring.Rat
import Mathlib.Data.List.Sort

set_option linter.all false

namespace RetailVision.FrameEvery

open Lib Wire FrameJson

/-- What is given to the output, under the root of the topics. -/
structure Outgoing (K : Type) where
  topicSuffix : String
  payload : FramePayload K
  qos : Nat
  retain : Bool

variable {K : Type} [Field K] [LinearOrder K] (nums : Numbers K)

/-! ## `standalone.cpp` -/

structure StandaloneApp where
  /-- `opts.frame_every` -/
  frameEvery : Int32
  deviceId : String
  streamIds : UInt32 → Option String
  frameCounts : UInt32 → UInt64

/-- `on_record` of a frame. -/
def onRecord (app : StandaloneApp) (data : Bytes) : StandaloneApp × List (Outgoing K) :=
  if data.length < 8 then (app, [])
  else if data.take 4 = magicFrame ∧ app.frameEvery > 0 then
    match decodeVbr1 (data.drop 8) with
    | none => (app, [])
    | some r =>
      let sid := (app.streamIds r.streamIndex).getD ""
      let n := app.frameCounts r.streamIndex + 1
      let app := { app with frameCounts := Function.update app.frameCounts r.streamIndex n }
      if n % UInt64.ofNat app.frameEvery.toInt.toNat ≠ 0 then (app, [])
      else (app, [⟨"frames/" ++ sid, frameJson nums app.deviceId sid r, 0, false⟩])
  else (app, [])

/-! ## `shard.py` and `apps.py` -/

structure ConfigApp where
  /-- `options["frame_every"]` -/
  option : Option Int
  deviceId : String

def ConfigApp.frameEvery (app : ConfigApp) : Int := max 0 (app.option.getD 0)

def ConfigApp.frameStride (app : ConfigApp) : Int := max 1 app.frameEvery

def ConfigApp.wantsFrames (app : ConfigApp) : Bool := app.frameEvery > 0

structure StreamContext where
  streamId : String
  attrNames : List String

def ConfigApp.onFrame (app : ConfigApp) (ctx : StreamContext) (res : FrameResult) : List (Outgoing K) :=
  [⟨"frames/" ++ ctx.streamId, framePayload nums app.deviceId res ctx.attrNames, 0, false⟩]

structure Shard where
  contexts : Nat → Option StreamContext
  frameSlots : List (Nat × FrameResult)
  frameSeen : Nat → Nat
  hookFramesDropped : Nat → Nat

/-- `_on_frame`: the newest frame of a stream waits in its slot. -/
def Shard.onFrame (s : Shard) (idx : Nat) (res : FrameResult) : Shard :=
  match s.contexts idx with
  | none => s
  | some ctx =>
    let others := s.frameSlots.filter (·.1 ≠ idx)
    { s with
      hookFramesDropped := if idx ∈ s.frameSlots.map (·.1) then
          Function.update s.hookFramesDropped idx (s.hookFramesDropped idx + 1)
        else s.hookFramesDropped
      frameSlots := others ++ [(idx, { res with streamId := ctx.streamId })] }

def deliverFrame (app : ConfigApp) (ctx : Option StreamContext) (res : FrameResult) : List (Outgoing K) :=
  match ctx with
  | none => []
  | some ctx => app.onFrame nums ctx res

/-- The frames of a pass of `_hook_loop`. -/
def Shard.hookLoop (app : ConfigApp) (s : Shard) : Shard × List (Outgoing K) :=
  let frames := s.frameSlots.insertionSort (·.1 ≤ ·.1)
  let s := { s with frameSlots := [] }
  if app.wantsFrames then
    let stride := if app.frameStride = 0 then 1 else app.frameStride
    frames.foldl (fun (s, outs) (idx, res) =>
      let seen := s.frameSeen idx + 1
      let s := { s with frameSeen := Function.update s.frameSeen idx seen }
      if ((seen : Int) - 1) % max 1 stride = 0 then (s, outs ++ deliverFrame nums app (s.contexts idx) res) else (s, outs)) (s, [])
  else (s, [])

/-- A record comes from the runtime, and the hook thread goes round before the next one. -/
def Shard.onRecord (app : ConfigApp) (s : Shard) (body : Bytes) : Shard × List (Outgoing K) :=
  match decodeFrame body with
  | .error _ => (s, [])
  | .ok (idx, res) => (s.onFrame idx res).hookLoop nums app

/-! ## The records of a stream -/

/-- A VBR1 record of a stream. -/
structure FrameRecord (index : UInt32) where
  body : Bytes
  frame : WireFrameRec
  decodes : decodeVbr1 body = some frame
  ofStream : frame.streamIndex = index

variable {nums}

/-- With its header. -/
def FrameRecord.data {index : UInt32} (r : FrameRecord index) : Bytes := putHeader [] magicFrame (UInt32.ofNat r.body.length) ++ r.body

/-- What a system gives to its output, one record after the other. -/
def outputs {σ ρ : Type} (step : σ → ρ → σ × List (Outgoing K)) : σ → List ρ → List (Outgoing K)
  | _, [] => []
  | s, r :: rs => (step s r).2 ++ outputs step (step s r).1 rs

/-- What is given to the output for a record. -/
def outgoing (nums : Numbers K) (deviceId streamId : String) {index : UInt32} (r : FrameRecord index) : Outgoing K :=
  ⟨"frames/" ++ streamId, frameJson nums deviceId streamId r.frame, 0, false⟩

/-- Where the counter of the native runtime is at a multiple of `n` for the `k`-th
time; the first record is at 0, and the counter has 64 bits. -/
def countedAt (n k : Nat) : Nat := multiple (2 ^ 64) n (k + 1) - 1

variable {index : UInt32} {deviceId streamId : String} {frameEvery : Int32} {n i k : Nat}

/-- Until the counter comes round it is the last record of every `n`. -/
theorem countedAt_eq (hn : 0 < n) (h : (k + 1) * n < 2 ^ 64) : countedAt n k = (k + 1) * n - 1 := by
  rw [countedAt, multiple_of_lt hn h]

theorem enumerates_countedAt (hn : 0 < n) : Enumerates (fun i => (i + 1) % 2 ^ 64 % n == 0) (countedAt n) :=
  (enumerates_multiple (by omega) hn).after multiple_zero

theorem FrameRecord.take_data (r : FrameRecord index) : r.data.take 4 = magicFrame := by
  rw [FrameRecord.data, putHeader, putU32, List.nil_append, List.append_assoc]
  exact List.take_left' (by decide)

theorem FrameRecord.drop_data (r : FrameRecord index) : r.data.drop 8 = r.body := by
  rw [FrameRecord.data]
  refine List.drop_left' ?_
  have hmagic : magicFrame.length = 4 := by decide
  simp [putHeader, putU32, hmagic]

theorem FrameRecord.length_data (r : FrameRecord index) : 8 ≤ r.data.length := by
  have hmagic : magicFrame.length = 4 := by decide
  simp [FrameRecord.data, putHeader, putU32, hmagic]
  omega

/-! ## Both counters -/

/-- The remainder that is looked at, `i` records having been counted before. -/
theorem counted_mod (hlt : n < 2 ^ 64) :
    (UInt64.ofNat i + 1) % UInt64.ofNat n = 0 ↔ (i + 1) % 2 ^ 64 % n = 0 := by
  have hadd : UInt64.ofNat i + 1 = UInt64.ofNat (i + 1) := by simp
  rw [hadd, ← UInt64.toNat_inj, UInt64.toNat_mod, UInt64.toNat_ofNat', UInt64.toNat_ofNat', Nat.mod_eq_of_lt hlt]
  rfl

theorem toNat_frameEvery (hN : 0 < frameEvery) : 0 < frameEvery.toInt.toNat ∧ frameEvery.toInt.toNat < 2 ^ 31 := by
  have hpos : (0 : Int32).toInt < frameEvery.toInt := Int32.lt_iff_toInt_lt.mp hN
  have hlt := frameEvery.toInt_lt
  have hzero : (0 : Int32).toInt = 0 := rfl
  omega

/-- One record more is counted. -/
theorem onRecord_record {app : StandaloneApp} (hN : 0 < app.frameEvery) (hid : app.streamIds index = some streamId)
    (hcount : app.frameCounts index = UInt64.ofNat i) (r : FrameRecord index) :
    onRecord nums app r.data =
      ({ app with frameCounts := Function.update app.frameCounts index (UInt64.ofNat (i + 1)) },
        if (i + 1) % 2 ^ 64 % app.frameEvery.toInt.toNat == 0 then [outgoing nums app.deviceId streamId r] else []) := by
  obtain ⟨hpos, hlt⟩ := toNat_frameEvery hN
  have hlen := r.length_data
  have hadd : UInt64.ofNat i + 1 = UInt64.ofNat (i + 1) := by simp
  rw [onRecord, if_neg (by omega), if_pos ⟨r.take_data, hN⟩, r.drop_data, r.decodes]
  simp only [r.ofStream, hid, hcount, Option.getD_some, Ne, counted_mod (by omega : app.frameEvery.toInt.toNat < 2 ^ 64), beq_iff_eq, ← hadd]
  by_cases hmod : (i + 1) % 2 ^ 64 % app.frameEvery.toInt.toNat = 0
  · simp only [hmod, not_true_eq_false, if_false, if_true]
    rfl
  · simp only [hmod, not_false_eq_true, if_false, if_true]

theorem outputs_standalone {app : StandaloneApp} (hcount : app.frameCounts index = UInt64.ofNat i) (hN : 0 < app.frameEvery)
    (hid : app.streamIds index = some streamId) (records : List (FrameRecord index)) :
    outputs (fun app (r : FrameRecord index) => onRecord nums app r.data) app records =
      pick (fun i => (i + 1) % 2 ^ 64 % app.frameEvery.toInt.toNat == 0) i (records.map (outgoing nums app.deviceId streamId)) := by
  induction records generalizing app i with
  | nil => rfl
  | cons r records ih =>
    have hnext : ({ app with frameCounts := Function.update app.frameCounts index (UInt64.ofNat (i + 1)) } :
        StandaloneApp).frameCounts index = UInt64.ofNat (i + 1) := Function.update_self ..
    rw [outputs, onRecord_record hN hid hcount, List.map_cons, pick, ih hnext hN hid]
    split <;> rfl

/-- One frame more is seen. -/
theorem shard_onRecord {app : ConfigApp} {s : Shard} {ctx : StreamContext} (hn : 0 < n) (happ : app.option = some (n : Int))
    (hctx : s.contexts index.toNat = some ctx) (hnames : ctx.attrNames = []) (hslots : s.frameSlots = [])
    (hseen : s.frameSeen index.toNat = i) (r : FrameRecord index) :
    s.onRecord nums app r.body = ({ s with frameSeen := Function.update s.frameSeen index.toNat (i + 1) },
      if i % n == 0 then [outgoing nums app.deviceId ctx.streamId r] else []) := by
  obtain ⟨res, hres, hpayload⟩ := payload_eq nums r.decodes
  have hevery : app.frameEvery = n := by
    rw [ConfigApp.frameEvery, happ, Option.getD_some]
    omega
  have hstride : app.frameStride = n := by
    rw [ConfigApp.frameStride, hevery]
    omega
  have hwants : app.wantsFrames = true := by
    rw [ConfigApp.wantsFrames, hevery]
    exact decide_eq_true (by omega)
  have hmod : ((s.frameSeen index.toNat + 1 : Nat) : Int) - 1 = (i : Int) := by
    rw [hseen]
    omega
  have hmax : max 1 (n : Int) = n := by omega
  have hzero : (n : Int) ≠ 0 := by omega
  rw [Shard.onRecord, hres]
  simp only [Shard.onFrame, hctx, hslots, r.ofStream, Shard.hookLoop, hwants, hstride, List.filter_nil, List.nil_append,
    List.insertionSort_cons, List.insertionSort_nil, List.orderedInsert_nil, List.foldl_cons, List.foldl_nil, if_true, hmod,
    hmax, if_neg hzero]
  have hdeliver : deliverFrame nums app (some ctx) { res with streamId := ctx.streamId } =
      [outgoing nums app.deviceId ctx.streamId r] := by
    rw [deliverFrame, ConfigApp.onFrame, hnames, hpayload]
    rfl
  have hcast : (i : Int) % n = 0 ↔ i % n = 0 := by omega
  by_cases hi : i % n = 0
  · simp only [hcast, hi, if_true, hdeliver, hseen, beq_self_eq_true, List.map_nil, List.not_mem_nil, if_false]
  · simp only [hcast, hi, if_false, hseen, beq_iff_eq, List.map_nil, List.not_mem_nil]

theorem outputs_shard {app : ConfigApp} {s : Shard} {ctx : StreamContext} (hseen : s.frameSeen index.toNat = i) (hn : 0 < n)
    (happ : app.option = some (n : Int)) (hctx : s.contexts index.toNat = some ctx) (hnames : ctx.attrNames = [])
    (hslots : s.frameSlots = []) (records : List (FrameRecord index)) :
    outputs (fun s (r : FrameRecord index) => s.onRecord nums app r.body) s records =
      pick (fun i => i % n == 0) i (records.map (outgoing nums app.deviceId ctx.streamId)) := by
  induction records generalizing s i with
  | nil => rfl
  | cons r records ih =>
    have hnext : ({ s with frameSeen := Function.update s.frameSeen index.toNat (i + 1) } : Shard).frameSeen index.toNat = i + 1 :=
      Function.update_self ..
    rw [outputs, shard_onRecord hn happ hctx hnames hslots hseen, List.map_cons, pick, ih hnext hctx hslots]
    split <;> rfl

/-! ## The modes -/

/-- Both modes as they start on a stream, with the same N. -/
structure Setup (index : UInt32) where
  frameEvery : Int32
  standalone : StandaloneApp
  config : ConfigApp
  shard : Shard
  ctx : StreamContext
  positive : 0 < frameEvery
  frameEvery_standalone : standalone.frameEvery = frameEvery
  frameEvery_config : config.option = some frameEvery.toInt
  deviceId : config.deviceId = standalone.deviceId
  streamId : standalone.streamIds index = some ctx.streamId
  context : shard.contexts index.toNat = some ctx
  attrNames : ctx.attrNames = []
  frameCounts : standalone.frameCounts index = 0
  frameSeen : shard.frameSeen index.toNat = 0
  frameSlots : shard.frameSlots = []

namespace Setup

variable (s : Setup index) (nums : Numbers K) (records : List (FrameRecord index))

/-- N -/
def every : Nat := s.frameEvery.toInt.toNat

/-- What the native runtime publishes on its own. -/
def byRuntime : List (Outgoing K) := outputs (fun app (r : FrameRecord index) => onRecord nums app r.data) s.standalone records

/-- What the app of the config mode publishes. -/
def byApp : List (Outgoing K) := outputs (fun shard (r : FrameRecord index) => shard.onRecord nums s.config r.body) s.shard records

/-- The payload of a record. -/
def payload (r : FrameRecord index) : FramePayload K := frameJson nums s.standalone.deviceId s.ctx.streamId r.frame

theorem every_pos : 0 < s.every := (toNat_frameEvery s.positive).1

theorem byRuntime_eq : s.byRuntime nums records = pick (fun i => (i + 1) % 2 ^ 64 % s.every == 0) 0
    (records.map (outgoing nums s.standalone.deviceId s.ctx.streamId)) := by
  have hN : 0 < s.standalone.frameEvery := s.frameEvery_standalone ▸ s.positive
  rw [byRuntime, outputs_standalone (i := 0) s.frameCounts hN s.streamId, every, s.frameEvery_standalone]

theorem byApp_eq : s.byApp nums records = pick (fun i => i % s.every == 0) 0
    (records.map (outgoing nums s.standalone.deviceId s.ctx.streamId)) := by
  have hoption : s.config.option = some (s.every : Int) := by
    rw [s.frameEvery_config, every]
    have hpos := s.every_pos
    rw [every] at hpos
    congr 1
    omega
  rw [byApp, outputs_shard s.frameSeen s.every_pos hoption s.context s.attrNames s.frameSlots, s.deviceId]

theorem outgoing_map {j : Option (FrameRecord index)} {j' : Option (FrameRecord index)} :
    j.map (outgoing nums s.standalone.deviceId s.ctx.streamId) = j'.map (outgoing nums s.standalone.deviceId s.ctx.streamId) ↔
      j.map (s.payload nums) = j'.map (s.payload nums) := by
  cases j <;> cases j' <;> simp [outgoing, payload]

/-- Both modes publish the same exactly where the `k`-th record that the runtime
takes, for every `k`, and the first of the `k`-th N records are published alike. -/
theorem byRuntime_eq_iff : s.byRuntime nums records = s.byApp nums records ↔
    ∀ k, (records[countedAt s.every k]?).map (s.payload nums) = (records[k * s.every]?).map (s.payload nums) := by
  rw [s.byRuntime_eq, s.byApp_eq, pick_eq_iff (enumerates_countedAt s.every_pos) (enumerates_mul s.every_pos)]
  simp only [List.getElem?_map, outgoing_map]

theorem countedAt_one : countedAt 1 k = k := by
  rw [countedAt, multiple, Nat.div_one, Nat.sub_add_cancel (by omega), Nat.mul_one, Nat.div_add_mod', Nat.add_sub_cancel]

/-- **The two modes** publish the same exactly where for every `k` two records
are published alike: the one at which the runtime's counter is at a multiple of
N for the `k`-th time (until it comes round this is the last of N records,
`countedAt_eq`), and the first of the `k`-th N. For records with different
sequence numbers this is the case for N = 1 only, or with no record. -/
theorem modes_agree_iff :
    (s.byRuntime nums records = s.byApp nums records ↔
      ∀ k, (records[countedAt s.every k]?).map (s.payload nums) = (records[k * s.every]?).map (s.payload nums)) ∧
    ((records.map (·.frame.seq)).Nodup → (s.byRuntime nums records = s.byApp nums records ↔ s.every = 1 ∨ records = [])) := by
  refine ⟨s.byRuntime_eq_iff nums records, fun hdistinct => ?_⟩
  rw [s.byRuntime_eq_iff]
  constructor
  · intro h
    cases hrecords : records with
    | nil => exact .inr rfl
    | cons r rest =>
      left
      have hpos := s.every_pos
      have hlt : s.every < 2 ^ 31 := (toNat_frameEvery s.positive).2
      -- the runtime first takes the one at N - 1
      have hfirst := h 0
      rw [countedAt_eq hpos (by omega), Nat.zero_mul, Nat.zero_add, Nat.one_mul] at hfirst
      have hhead : records[0]? = some r := by rw [hrecords]; rfl
      rw [hhead, Option.map_some, Option.map_eq_some_iff] at hfirst
      obtain ⟨r', hr', hpayload⟩ := hfirst
      have hseq : r'.frame.seq = r.frame.seq := UInt64.toNat_inj.mp (congrArg FramePayload.seq hpayload)
      have hseqs : (records.map (·.frame.seq))[s.every - 1]? = (records.map (·.frame.seq))[0]? := by
        rw [List.getElem?_map, List.getElem?_map, hr', hhead, Option.map_some, Option.map_some, hseq]
      have hle : s.every - 1 < (records.map (·.frame.seq)).length := by
        rw [List.length_map]
        exact (List.getElem?_eq_some_iff.mp hr').1
      have hsame : s.every - 1 = 0 := (List.getElem?_inj hle hdistinct).mp hseqs
      omega
  · intro h
    rcases h with hone | hnil
    · intro k
      rw [hone, countedAt_one, Nat.mul_one]
    · intro k
      rw [hnil, List.getElem?_nil, List.getElem?_nil]

end Setup

/-! ## Every second frame -/

/-- A record without detections; each of its floats is 0. -/
def bare (seq : UInt8) : Bytes := List.replicate 4 0 ++ seq :: List.replicate 59 0

def first : FrameRecord 0 := ⟨bare 1, recordOf (bare 1), by decide +kernel, by decide +kernel⟩

def second : FrameRecord 0 := ⟨bare 2, recordOf (bare 2), by decide +kernel, by decide +kernel⟩

/-- Of the word 0. -/
def zeroes : Numbers Rat := ⟨fun _ => 0, fun _ => 0, id, fun _ => 0⟩

def lobby : Setup 0 where
  frameEvery := 2
  standalone := ⟨2, "door-01", fun _ => some "lobby", fun _ => 0⟩
  config := ⟨some 2, "door-01"⟩
  shard := ⟨fun _ => some ⟨"lobby", []⟩, [], fun _ => 0, fun _ => 0⟩
  ctx := ⟨"lobby", []⟩
  positive := by decide
  frameEvery_standalone := rfl
  frameEvery_config := by decide
  deviceId := rfl
  streamId := rfl
  context := rfl
  attrNames := rfl
  frameCounts := rfl
  frameSeen := rfl
  frameSlots := rfl

theorem not_modes_agree : ¬ lobby.byRuntime zeroes [first, second] = lobby.byApp zeroes [first, second] := by
  intro h
  have hruntime : (lobby.byRuntime zeroes [first, second]).map (·.payload.seq) = [2] := by decide +kernel
  have happ : (lobby.byApp zeroes [first, second]).map (·.payload.seq) = [1] := by decide +kernel
  rw [h, happ] at hruntime
  exact absurd hruntime (by decide)

end RetailVision.FrameEvery
