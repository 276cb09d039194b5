/-
What the supervisor writes to its streams file, loaded again. A supervisor
started from a configuration that loads (`startOf`) lists streams with a
sound id, url and threshold, and no more of them than its workers hold; so
the file it writes is accepted exactly when each stream in it has a
transport and options the loader knows (`persisted_loads_iff`). The control
plane lets others pass: a stream added with the transport `http` is
acknowledged, and the configuration does not load again
(`http_refused_on_reload`).

The start is modelled as done before the first command is taken up.
-/
import RetailVision.SupervisorStreams
import RetailVision.ControlPlane
import Mathlib.Data.List.Perm.Subperm

set_option linter.all false

namespace RetailVision.Supervisor

open Lib RetailVision.Config

/-! ## The supervisor of a configuration -/

/-- An integer of a validated section. -/
def natOf : Json → Nat
  | .int i => i.toNat
  | _ => 0

/-- What the supervisor reads of the configuration loaded. -/
def configOf (merged : Json) : Config where
  workers := match getD (runtimeOf merged) "workers" .null with
    | .int n => some n.toNat
    | _ => none
  maxStreamsPerWorker := natOf (getD (runtimeOf merged) "max_streams_per_worker" .null)
  maxStreams := natOf (getD (runtimeOf merged) "max_streams" .null)
  streamsFile := streamsFileOf merged ≠ ""

def Stream.ofJson : Json → Stream
  | .obj kvs => ⟨kvs⟩
  | _ => ⟨[]⟩

def streamsOf (merged : Json) : List Stream :=
  match getD merged "streams" (.arr []) with
  | .arr ss => ss.map Stream.ofJson
  | _ => []

/-- `_shard_count_for` -/
def shardCountFor (cfg : Config) (n : Nat) : Nat :=
  let desired := if cfg.maxStreamsPerWorker = 0 then 1
    else max 1 ((n + cfg.maxStreamsPerWorker - 1) / cfg.maxStreamsPerWorker)
  match cfg.workers with
  | some w => min desired w
  | none => desired

/-- The streams of the shard `i` of `count`: every `count`th. -/
def dealt (count : Nat) (streams : List Stream) (i : Nat) : List Stream :=
  (streams.zipIdx.filter fun sj => sj.2 % count == i).map (·.1)

/-- `Supervisor.start` of a configuration. -/
def startOf (merged : Json) : State :=
  let streams := streamsOf merged
  let count := shardCountFor (configOf merged) streams.length
  start ((List.range count).map (dealt count streams))

/-! ## The shares of the shards -/

variable {cfg : Config} {streams : List Stream} {count i n p : Nat}

theorem dealt_mem {st : Stream} (h : st ∈ dealt count streams i) : st ∈ streams := by
  obtain ⟨sj, hsj, rfl⟩ := List.mem_map.mp h
  exact List.fst_mem_of_mem_zipIdx (List.mem_of_mem_filter hsj)

/-- Numbers below `count * p` with one remainder: at most `p`. -/
theorem card_filter_mod_le (count i : Nat) {l : List Nat} (hn : l.Nodup) (hl : ∀ j ∈ l, j < count * p ∧ j % count = i) :
    l.length ≤ p := by
  have hnd : (l.map (· / count)).Nodup := by
    refine hn.map_on fun x hx y hy hxy => ?_
    have hx' := Nat.div_add_mod x count
    have hy' := Nat.div_add_mod y count
    rw [(hl x hx).2] at hx'
    rw [(hl y hy).2] at hy'
    rw [← hx', ← hy', hxy]
  have hsub : l.map (· / count) ⊆ List.range p := by
    intro d hd
    obtain ⟨j, hj, rfl⟩ := List.mem_map.mp hd
    exact List.mem_range.mpr (Nat.div_lt_of_lt_mul (hl j hj).1)
  have hlen := (List.subperm_of_subset hnd hsub).length_le
  simpa using hlen

theorem dealt_length (h : streams.length ≤ count * p) : (dealt count streams i).length ≤ p := by
  have hidx : ((streams.zipIdx.filter fun sj => sj.2 % count == i).map (·.2)).length ≤ p := by
    refine card_filter_mod_le count i ?_ ?_
    · refine List.Nodup.sublist (List.filter_sublist.map _) ?_
      rw [List.zipIdx_map_snd]
      exact List.nodup_range'
    · intro j hj
      obtain ⟨sj, hsj, rfl⟩ := List.mem_map.mp hj
      obtain ⟨hsj, hmod⟩ := List.mem_filter.mp hsj
      refine ⟨?_, by simpa using hmod⟩
      have := List.snd_lt_of_mem_zipIdx hsj
      omega
  simpa [dealt] using hidx

/-- The shards `_shard_count_for` makes hold the streams, where the workers do. -/
theorem shardCountFor_holds (hp : 0 < cfg.maxStreamsPerWorker)
    (hw : ∀ w, cfg.workers = some w → n ≤ w * cfg.maxStreamsPerWorker) :
    n ≤ shardCountFor cfg n * cfg.maxStreamsPerWorker := by
  have hceil : n ≤ (n + cfg.maxStreamsPerWorker - 1) / cfg.maxStreamsPerWorker * cfg.maxStreamsPerWorker := by
    have hdiv := Nat.div_add_mod (n + cfg.maxStreamsPerWorker - 1) cfg.maxStreamsPerWorker
    have hmod := Nat.mod_lt (n + cfg.maxStreamsPerWorker - 1) hp
    rw [Nat.mul_comm] at hdiv
    omega
  have hmax : n ≤ max 1 ((n + cfg.maxStreamsPerWorker - 1) / cfg.maxStreamsPerWorker) * cfg.maxStreamsPerWorker :=
    hceil.trans (Nat.mul_le_mul_right _ (Nat.le_max_right ..))
  simp only [shardCountFor, if_neg (Nat.ne_of_gt hp)]
  cases hcw : cfg.workers with
  | none => exact hmax
  | some w =>
    dsimp only
    rcases Nat.le_total (max 1 ((n + cfg.maxStreamsPerWorker - 1) / cfg.maxStreamsPerWorker)) w with h | h
    · rw [Nat.min_eq_left h]; exact hmax
    · rw [Nat.min_eq_right h]; exact hw w hcw

theorem shardCountFor_le {w : Nat} (hw : cfg.workers = some w) : shardCountFor cfg n ≤ w := by
  simp only [shardCountFor, hw]
  exact Nat.min_le_right ..

/-! ## Loading the streams file again -/

variable {py : Py} {partly allowDev : Bool} {data merged : Json} {streamsFile : Option Json} {s : State}
  {as : List Action} {l : List Stream}

theorem checkInt_eq_ok {v : Json} {path : String} {least : Int} :
    checkInt v path least = .ok () ↔ ∃ i, v = .int i ∧ least ≤ i := by
  cases v <;> simp [checkInt, isInt, ensure_eq_ok, err]

theorem checkWorkers_eq_ok {v : Json} (h : checkWorkers v = .ok ()) : v = .str "auto" ∨ ∃ i, v = .int i ∧ 1 ≤ i := by
  unfold checkWorkers at h
  split at h
  · exact .inl rfl
  · exact .inr (checkInt_eq_ok.mp h)

/-- The check of the workers, of what the supervisor reads. -/
theorem checkCapacity_iff (h : checkRuntime (runtimeOf merged) = .ok ()) :
    checkCapacity (runtimeOf merged) n = .ok () ↔ ∀ w, (configOf merged).workers = some w →
      0 < (configOf merged).maxStreamsPerWorker → n ≤ w * (configOf merged).maxStreamsPerWorker := by
  simp only [checkRuntime, check_bind, checkInt_eq_ok] at h
  obtain ⟨hw, ⟨k, hk, hk₀⟩, -⟩ := h
  simp only [checkCapacity, configOf, hk, natOf]
  rcases checkWorkers_eq_ok hw with hw | ⟨i, hw, hi⟩
  · simp [hw]
  · simp only [hw, ensure_eq_ok, Option.some.injEq]
    obtain ⟨k, rfl⟩ := Int.eq_ofNat_of_zero_le hk₀
    obtain ⟨i, rfl⟩ := Int.eq_ofNat_of_zero_le (by omega : 0 ≤ i)
    constructor
    · rintro hle w rfl hpos
      simp only [Int.toNat_natCast] at hpos ⊢
      rcases hle with hle | hle
      · omega
      · exact_mod_cast hle
    · intro hle
      have hle := hle _ rfl
      simp only [Int.toNat_natCast] at hle
      rcases Nat.eq_zero_or_pos k with rfl | hpos
      · exact .inl (by simp)
      · exact .inr (by exact_mod_cast hle hpos)

theorem json_ofJson {j : Json} (h : j.isObject = true) : (Stream.ofJson j).json = j := by
  cases j with
  | obj kvs => rfl
  | _ => cases h

theorem streamsOf_loads {m : Sections} {ss : List Json} (h : Loads py partly allowDev data merged m ss) :
    ∀ st ∈ streamsOf merged, Sound st.json ∧ Loadable py st.json := by
  intro st hst
  rw [streamsOf, h.streamsAre] at hst
  obtain ⟨j, hj, rfl⟩ := List.mem_map.mp hst
  have hpass := (checkStreams_eq_ok.mp h.streamsPass).1 j hj
  rw [json_ofJson hpass.1.isObject]
  exact hpass

/-- The streams file is accepted, and its streams are the configuration's. -/
def LoadsBack (py : Py) (partly allowDev : Bool) (data : Json) (streams : List Json) : Prop :=
  ∃ merged, load py partly allowDev data (some (.arr streams)) = .ok merged ∧
    merged.find "streams" = some (.arr streams)

theorem loadsBack_iff {m : Sections} {old ss : List Json} (h : Accepts py partly allowDev data m old)
    (hf : streamsFileOf (merge defaults data) ≠ "") : LoadsBack py partly allowDev data ss ↔
      checkStreams py [] 0 ss = .ok () ∧ checkCapacity m.runtime ss.length = .ok () := by
  rw [← load_streams_iff h hf]
  have ho := h.isObject
  cases data with
  | obj vs =>
    constructor
    · rintro ⟨merged, hl, -⟩
      have hmerged := hl
      simp only [load, check_bind, if_neg hf] at hmerged
      rw [hl]
      exact congrArg Except.ok (Except.ok.inj hmerged.2.2).symm
    · intro hl
      exact ⟨_, hl, find_overlay_streams⟩
  | _ => cases ho

theorem startOf_mem {l : List Stream}
    (h : l ∈ (List.range (shardCountFor (configOf merged) (streamsOf merged).length)).map
      (dealt (shardCountFor (configOf merged) (streamsOf merged).length) (streamsOf merged))) :
    ∃ i, l = dealt (shardCountFor (configOf merged) (streamsOf merged).length) (streamsOf merged) i := by
  obtain ⟨i, -, rfl⟩ := List.mem_map.mp h
  exact ⟨i, rfl⟩

/-- In every run the workers hold what is written to the streams file. -/
theorem persisted_capacity {m : Sections} {ss : List Json} (h : Loads py partly allowDev data merged m ss)
    (hr : run (step (configOf merged)) (startOf merged) as = some s) (hp : s.persisted = some l) :
    checkCapacity m.runtime l.length = .ok () := by
  obtain ⟨old, ha⟩ := h.accepts
  have hruntime : checkRuntime (runtimeOf merged) = .ok () := h.runtime ▸ ha.runtime.2
  have hcap := h.capacity
  rw [← h.runtime] at hcap ⊢
  rw [checkCapacity_iff hruntime] at hcap ⊢
  have hlen : ss.length = (streamsOf merged).length := by rw [streamsOf, h.streamsAre, List.length_map]
  intro w hw hpos
  refine run_persisted_length hpos hw ?_ ?_ hr hp
  · intro l hl
    obtain ⟨i, rfl⟩ := startOf_mem hl
    exact dealt_length (shardCountFor_holds hpos fun w hw => hlen ▸ hcap w hw hpos)
  · rw [List.length_map, List.length_range]
    exact shardCountFor_le hw

/-- **Persisted streams load back** exactly when each has a transport and
options the loader knows: after any commands the control plane lets pass, the
file written over a configuration is accepted by `load` of that configuration,
and is its streams. All that is missing to that is a check of these two when a
stream is added. -/
theorem persisted_loads_iff (hload : load py partly allowDev data streamsFile = .ok merged)
    (hcmd : ∀ c, .takeUp c ∈ as → FromControl c)
    (hr : run (step (configOf merged)) (startOf merged) as = some s) (hp : s.persisted = some l)
    (hn : (l.map (·.streamId)).Nodup) :
    (LoadsBack py partly allowDev data (l.map (·.json)) ↔ ∀ st ∈ l, Loadable py st.json) ∧
      ((∀ st, .takeUp (.addStream st) ∈ as → Loadable py st.json) → ∀ st ∈ l, Loadable py st.json) := by
  obtain ⟨m, ss, h⟩ := load_ok hload
  obtain ⟨old, ha⟩ := h.accepts
  have hstart := streamsOf_loads h
  -- What a start stream has and commands keep, the streams written have.
  have hkept : ∀ Good : Stream → Prop, (∀ st ∈ streamsOf merged, Good st) →
      (∀ c, .takeUp c ∈ as → Keeps Good c) → ∀ st ∈ l, Good st := fun Good hg hk =>
    (run_goodInv (fun l hl st hst => by obtain ⟨i, rfl⟩ := startOf_mem hl; exact hg st (dealt_mem hst)) hk hr).persisted
      l hp
  have hsound : ∀ st ∈ l, Sound st.json := hkept (fun st => Sound st.json) (fun st hst => (hstart st hst).1)
    fun c hc => ⟨fun st hst => (hst ▸ hcmd c hc).sound, fun sid v hset st => (hset ▸ hcmd c hc).sound_setThreshold⟩
  refine ⟨?_, fun hadds => ?_⟩
  · have hfile : streamsFileOf (merge defaults data) ≠ "" := by
      rw [← h.file]
      simpa [configOf] using run_persisted_file hr hp
    rw [loadsBack_iff ha hfile, checkStreams_eq_ok, List.length_map, List.map_map]
    have hids : l.map (sidOf ∘ fun st => st.json) = l.map (·.streamId) :=
      List.map_congr_left fun st _ => sidOf_json
    rw [hids]
    simp only [persisted_capacity h hr hp, hn, List.forall_mem_map, List.not_mem_nil, not_false_eq_true, implies_true,
      and_true]
    exact ⟨fun hall st hst => (hall st hst).2, fun hall st hst => ⟨hsound st hst, hall st hst⟩⟩
  · refine hkept (fun st => Loadable py st.json) (fun st hst => (hstart st hst).2) fun c hc => ?_
    exact ⟨fun st hst => hadds st (hst ▸ hc), fun sid v _ st hst => loadable_setThreshold hst⟩

/-! ## A stream the loader refuses -/

/-- Floats of small integers and of bounds met exactly. -/
def exactPy : Py where
  toFloat i := some (.fin i)
  sub
    | .fin x, .fin y => .fin (x - y)
    | _, _ => .nan
  repr
    | .str s => "'" ++ s ++ "'"
    | _ => ""

/-- A configuration with what it must have, and a streams file. -/
def device : Json := .obj [
  ("schema", .str "vb.config/1"), ("device_id", .str "till-1"),
  ("backend", .obj [("name", .str "hailo"), ("model_path", .str "/opt/models/yolo.hef")]),
  ("mqtt", .obj [("host", .str "127.0.0.1"), ("topic_root", .str "vb/till-1")]),
  ("app", .obj [("module", .str "app.echo")]), ("streams_file", .str "/data/vb/streams.json")]

/-- The parameters of an `add_stream` with a transport. -/
def addParams (transport : String) : Json := .obj [
  ("stream_id", .str "cam-1"), ("url", .str "rtsp://camera/1"), ("transport", .str transport)]

/-- The one shard comes up, and takes the stream. -/
def addRun (transport : String) : List Action :=
  [.workerStarted 0, .readerRecv 0] ++ done 0 (.addStream (addedStream (addParams transport)))

theorem device_loads : load exactPy false false device none = .ok (merge defaults device) := by
  simp only [load, check_bind]
  exact ⟨by decide +kernel, rfl⟩

/-- What the second validation refuses, `load` does. -/
theorem load_refused {ss : List Json} {e : String} (hload : load py partly allowDev data none = .ok merged)
    (hf : streamsFileOf (merge defaults data) ≠ "") (h : validate py partly allowDev (overlay data ss) = .error e) :
    load py partly allowDev data (some (.arr ss)) = .error e := by
  have hv := (check_bind.mp hload).1
  rw [overlay] at h
  simp only [load, hv, if_neg hf, h]
  rfl

theorem addRun_takeUp {transport : String} {c : Request} (hc : .takeUp c ∈ addRun transport) :
    c = .addStream (addedStream (addParams transport)) := by
  simpa [addRun, done] using hc

theorem addRun_fromControl {transport : String} {c : Request} (hc : .takeUp c ∈ addRun transport) : FromControl c :=
  ⟨.addStream, addParams transport, rfl, congrArg some (addRun_takeUp hc).symm⟩

/-- A stream over `tcp` is loaded back. -/
theorem persisted_loads_over_tcp :
    ∃ s l, run (step (configOf (merge defaults device))) (startOf (merge defaults device)) (addRun "tcp") = some s ∧
      s.persisted = some l ∧ LoadsBack exactPy false false device (l.map (·.json)) := by
  refine ⟨_, [addedStream (addParams "tcp")], rfl, rfl, ?_⟩
  have hiff := persisted_loads_iff device_loads (fun c hc => addRun_fromControl hc)
    (rfl : run (step (configOf (merge defaults device))) (startOf (merge defaults device)) (addRun "tcp") = some _) rfl
    (by decide)
  exact hiff.1.mpr (hiff.2 fun st hst => by cases addRun_takeUp hst; exact ⟨.inl rfl, by decide +kernel⟩)

/-- **A stream over `http`** passes the control plane, is added, listed,
written and acknowledged, and the configuration does not load with it. -/
theorem http_refused_on_reload :
    validateParams .addStream (addParams "http") = .ok () ∧
    ∃ s l, run (step (configOf (merge defaults device))) (startOf (merge defaults device)) (addRun "http") = some s ∧
      s.acks = [⟨.addStream (addedStream (addParams "http")), none⟩] ∧ s.persisted = some l ∧
      (l.map (·.streamId)).Nodup ∧
      load exactPy false false device (some (.arr (l.map (·.json)))) =
        .error "streams[0].transport: must be 'tcp' or 'udp'" := by
  refine ⟨rfl, _, [addedStream (addParams "http")], rfl, rfl, rfl, by decide, ?_⟩
  exact load_refused device_loads (by decide) (by decide +kernel)

end RetailVision.Supervisor
