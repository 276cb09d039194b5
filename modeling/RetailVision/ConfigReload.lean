/-
A configuration laid over the defaults loads again. `load` validates the
file, merges the defaults into it, and with a streams file validates the
merged object a second time. Merging the defaults twice changes nothing
(`merge_idem`), so each section passes again as it stands (`Accepts.reload`)
and the second validation is about the streams alone (`load_streams_iff`).
-/
import RetailVision.Config

set_option linter.all false

namespace RetailVision.Config

/-! ## Looking up in a merged object -/

/-- What `_merge` makes of a default: merged with what overrides it, if anything does. -/
def overridden (vs : List (String × Json)) (kd : String × Json) : Json :=
  match (Json.obj vs).find kd.1 with
  | some v => merge kd.2 v
  | none => kd.2

theorem overridden_none {vs : List (String × Json)} {k : String} {d : Json} (h : (Json.obj vs).find k = none) :
    overridden vs (k, d) = d := by simp only [overridden, h]

theorem overridden_some {vs : List (String × Json)} {k : String} {d v : Json} (h : (Json.obj vs).find k = some v) :
    overridden vs (k, d) = merge d v := by simp only [overridden, h]

theorem mergeMembers_eq (ds vs : List (String × Json)) :
    mergeMembers ds vs = ds.map fun kd => (kd.1, overridden vs kd) := by
  induction ds with
  | nil => simp [mergeMembers]
  | cons kd ds ih => simp only [mergeMembers, List.map_cons, ih]; rfl

theorem merge_of_leaf {d v : Json} (hd : d.isObject = false) : merge d v = v := by
  cases d with
  | obj ds => cases hd
  | _ => simp [merge]

theorem find_append {xs ys : List (String × Json)} {k : String} :
    (Json.obj (xs ++ ys)).find k = ((Json.obj xs).find k).or ((Json.obj ys).find k) := by
  simp [Json.find, List.find?_append]
  cases xs.find? fun x => x.1 == k <;> rfl

theorem find_mergeMembers {ds vs : List (String × Json)} {k : String} :
    (Json.obj (mergeMembers ds vs)).find k = ((Json.obj ds).find k).map fun d => overridden vs (k, d) := by
  rw [mergeMembers_eq]
  induction ds with
  | nil => rfl
  | cons kd ds ih =>
    by_cases hk : kd.1 = k
    · subst hk; simp [Json.find]
    · simpa [Json.find, hk] using ih

theorem find_rest {ds vs : List (String × Json)} {k : String} (hk : (Json.obj ds).find k = none) :
    (Json.obj (vs.filter fun kv => ds.all fun d => d.1 != kv.1)).find k = (Json.obj vs).find k := by
  have hds : ∀ d ∈ ds, d.1 ≠ k := by simpa [Json.find] using hk
  have hkeep : ∀ kv : String × Json, ((ds.all fun d => d.1 != kv.1) && kv.1 == k) = (kv.1 == k) := fun kv => by
    by_cases hkv : kv.1 = k
    · have hall : (ds.all fun d => d.1 != kv.1) = true := by
        simp only [List.all_eq_true, bne_iff_ne]
        exact fun d hd he => hds d hd (he.trans hkv)
      rw [hall, Bool.true_and]
    · simp [hkv]
  simp only [Json.find, List.find?_filter, Bool.decide_and, Bool.decide_eq_true, hkeep]

/-- **A lookup in a merged object**: a default's key finds the default or
what overrides it, any other key what the object itself holds. -/
theorem find_merge {ds vs : List (String × Json)} {k : String} :
    (merge (.obj ds) (.obj vs)).find k = match (Json.obj ds).find k with
      | some d => some (overridden vs (k, d))
      | none => (Json.obj vs).find k := by
  simp only [merge, find_append, find_mergeMembers]
  cases hk : (Json.obj ds).find k with
  | none => simpa using find_rest hk
  | some d => rfl

/-! ## Merging twice -/

mutual

/-- No object in it has a key twice. -/
def distinct : Json → Bool
  | .obj kvs => decide (kvs.map (·.1)).Nodup && distinctMembers kvs
  | _ => true

def distinctMembers : List (String × Json) → Bool
  | [] => true
  | (_, v) :: kvs => distinct v && distinctMembers kvs

end

theorem distinctMembers_mem {kvs : List (String × Json)} (h : distinctMembers kvs = true) :
    ∀ kv ∈ kvs, distinct kv.2 = true := by
  induction kvs with
  | nil => nofun
  | cons kv kvs ih =>
    simp only [distinctMembers, Bool.and_eq_true] at h
    intro p hp
    rcases List.mem_cons.mp hp with rfl | hp
    · exact h.1
    · exact ih h.2 p hp

theorem find_of_nodup {kvs : List (String × Json)} (h : (kvs.map (·.1)).Nodup) :
    ∀ kv ∈ kvs, (Json.obj kvs).find kv.1 = some kv.2 := by
  induction kvs with
  | nil => nofun
  | cons kv kvs ih =>
    obtain ⟨hkv, h⟩ := List.nodup_cons.mp h
    intro p hp
    rcases List.mem_cons.mp hp with rfl | hp
    · simp [Json.find]
    · have hne : kv.1 ≠ p.1 := fun he => hkv (List.mem_map.mpr ⟨p, hp, he.symm⟩)
      simpa [Json.find, hne] using ih h p hp

mutual

theorem merge_self : ∀ {d : Json}, distinct d = true → merge d d = d
  | .obj ds, h => by
    simp only [distinct, Bool.and_eq_true, decide_eq_true_eq] at h
    simp only [merge, mergeMembers_self h.2 (find_of_nodup h.1)]
    have hnone : (ds.filter fun kv => ds.all fun d => d.1 != kv.1) = [] := by
      refine List.filter_eq_nil_iff.mpr fun kv hkv hall => ?_
      exact absurd rfl (bne_iff_ne.mp (List.all_eq_true.mp hall kv hkv))
    rw [hnone, List.append_nil]
  | .null, _ | .bool _, _ | .int _, _ | .float _, _ | .str _, _ | .arr _, _ => by simp [merge]

theorem mergeMembers_self : ∀ {ds vs : List (String × Json)}, distinctMembers ds = true →
    (∀ kd ∈ ds, (Json.obj vs).find kd.1 = some kd.2) → mergeMembers ds vs = ds
  | [], _, _, _ => by simp [mergeMembers]
  | (k, d) :: ds, vs, h, hf => by
    simp only [distinctMembers, Bool.and_eq_true] at h
    have hk : (Json.obj vs).find k = some d := hf (k, d) List.mem_cons_self
    simp only [mergeMembers, hk, merge_self h.1,
      mergeMembers_self h.2 fun kd hkd => hf kd (List.mem_cons_of_mem _ hkd)]

end

mutual

/-- **Merging the defaults a second time changes nothing.** -/
theorem merge_idem : ∀ {d v : Json}, distinct d = true → merge d (merge d v) = merge d v
  | .obj ds, .obj vs, h => by
    simp only [distinct, Bool.and_eq_true, decide_eq_true_eq] at h
    have hfind : ∀ kd ∈ ds, (merge (.obj ds) (.obj vs)).find kd.1 = some (overridden vs kd) := fun kd hkd => by
      rw [find_merge, find_of_nodup h.1 kd hkd]
    simp only [merge] at hfind ⊢
    rw [mergeMembers_idem h.2 hfind, List.filter_append, List.filter_filter]
    congr 2
    -- Of what was merged already only the rest has no default.
    have hnone : ((mergeMembers ds vs).filter fun kv => ds.all fun d => d.1 != kv.1) = [] := by
      refine List.filter_eq_nil_iff.mpr fun kv hkv hall => ?_
      rw [mergeMembers_eq] at hkv
      obtain ⟨kd, hkd, rfl⟩ := List.mem_map.mp hkv
      exact absurd rfl (bne_iff_ne.mp (List.all_eq_true.mp hall kd hkd))
    rw [hnone]
    simp
  | _, .null, _ | _, .bool _, _ | _, .int _, _ | _, .float _, _ | _, .str _, _ | _, .arr _, _ => by
    simp [merge]
  | .null, .obj _, _ | .bool _, .obj _, _ | .int _, .obj _, _ | .float _, .obj _, _ | .str _, .obj _, _
  | .arr _, .obj _, _ => by simp [merge]

theorem mergeMembers_idem : ∀ {ds vs ws : List (String × Json)}, distinctMembers ds = true →
    (∀ kd ∈ ds, (Json.obj ws).find kd.1 = some (overridden vs kd)) → mergeMembers ds ws = mergeMembers ds vs
  | [], _, _, _, _ => by simp [mergeMembers]
  | (k, d) :: ds, vs, ws, h, hf => by
    simp only [distinctMembers, Bool.and_eq_true] at h
    have hk : (Json.obj ws).find k = some (overridden vs (k, d)) := hf (k, d) List.mem_cons_self
    have hrest := mergeMembers_idem h.2 fun kd hkd => hf kd (List.mem_cons_of_mem _ hkd)
    simp only [mergeMembers, hk, hrest]
    congr 2
    unfold overridden
    cases (Json.obj vs).find k with
    | none => exact merge_self h.1
    | some v => exact merge_idem h.1

end

/-! ## What is accepted -/

/-- The sections with their defaults. -/
structure Sections where
  runtime : Json
  native : Json
  tracker : Json
  analyzers : Json
  mqtt : Json
  app : Json
  health : Json

/-- What `_validate` lets pass, its sections and its streams. -/
structure Accepts (py : Py) (partly allowDev : Bool) (data : Json) (m : Sections) (streams : List Json) : Prop where
  isObject : data.isObject = true
  keys : checkKeys data topLevelKeys "" "unknown top-level key" = .ok ()
  dev : checkDev allowDev data = .ok ()
  head : checkHead data = .ok ()
  backend : checkBackend py data = .ok ()
  runtime : mergeSection runtimeDefaults data "runtime" = .ok m.runtime ∧ checkRuntime m.runtime = .ok ()
  native : mergeSection nativeDefaults data "native" = .ok m.native ∧ checkNative py m.native = .ok ()
  stateDir : checkOptStr data "state_dir" true = .ok ()
  tracker : mergeSection trackerDefaults data "tracker" = .ok m.tracker ∧ checkTracker m.tracker = .ok ()
  decoder : checkDecoder py (getD data "backend" .null) m.tracker (devRaw data) = .ok ()
  analyzers : mergeSection analyzersDefaults data "analyzers" = .ok m.analyzers ∧ checkAnalyzers m.analyzers = .ok ()
  mqtt : mergeSection mqttDefaults data "mqtt" = .ok m.mqtt ∧ checkMqtt partly m.mqtt = .ok ()
  mqttThere : requireFull partly data "mqtt" = .ok ()
  input : checkInput py (getD data "backend" .null) = .ok ()
  mqttTimes : checkMqttTimes m.mqtt = .ok ()
  appThere : requireFull partly data "app" = .ok ()
  app : mergeSection appDefaults data "app" = .ok m.app ∧ checkApp partly m.app = .ok ()
  health : mergeSection healthDefaults data "health" = .ok m.health ∧ checkHealth m.health = .ok ()
  streamsFile : checkOptStr data "streams_file" false = .ok ()
  streamsAre : getD data "streams" (.arr []) = .arr streams
  streamsPass : checkStreams py [] 0 streams = .ok ()
  capacity : checkCapacity m.runtime streams.length = .ok ()

theorem check_bind {α : Type} {x : Check} {f : Unit → Except String α} {b : α} :
    x >>= f = .ok b ↔ x = .ok () ∧ f () = .ok b := by
  cases x <;> simp [bind, Except.bind]

theorem section_bind {α : Type} {x : Except String Json} {f : Json → Except String α} {b : α} :
    x >>= f = .ok b ↔ ∃ j, x = .ok j ∧ f j = .ok b := by
  cases x <;> simp [bind, Except.bind]

theorem ensure_eq_ok {p : Prop} [Decidable p] {path msg : String} : ensure p path msg = .ok () ↔ p := by
  unfold ensure
  split <;> simp_all [err]

variable {py : Py} {partly allowDev : Bool} {data : Json} {m : Sections} {streams : List Json}

theorem checkStreamList_eq_ok {runtime j : Json} : checkStreamList py runtime j = .ok () ↔
    ∃ streams, j = .arr streams ∧ checkStreams py [] 0 streams = .ok () ∧
      checkCapacity runtime streams.length = .ok () := by
  cases j <;> simp [checkStreamList, check_bind, err]

theorem validate_eq_ok : validate py partly allowDev data = .ok () ↔
    ∃ m streams, Accepts py partly allowDev data m streams := by
  simp only [validate, check_bind, section_bind, ensure_eq_ok, checkStreamList_eq_ok]
  constructor
  · rintro ⟨h₁, h₂, h₃, h₄, h₅, r, h₆, h₇, n, h₈, h₉, h₁₀, t, h₁₁, h₁₂, h₁₃, an, h₁₄, h₁₅, q, h₁₆, h₁₇, h₁₈, h₁₉, h₂₀,
      h₂₁, ap, h₂₂, h₂₃, he, h₂₄, h₂₅, h₂₆, streams, h₂₇, h₂₈, h₂₉⟩
    exact ⟨⟨r, n, t, an, q, ap, he⟩, streams, h₁, h₂, h₃, h₄, h₅, ⟨h₆, h₇⟩, ⟨h₈, h₉⟩, h₁₀, ⟨h₁₁, h₁₂⟩, h₁₃, ⟨h₁₄, h₁₅⟩,
      ⟨h₁₆, h₁₈⟩, h₁₇, h₁₉, h₂₀, h₂₁, ⟨h₂₂, h₂₃⟩, ⟨h₂₄, h₂₅⟩, h₂₆, h₂₇, h₂₈, h₂₉⟩
  · rintro ⟨m, streams, h⟩
    exact ⟨h.isObject, h.keys, h.dev, h.head, h.backend, _, h.runtime.1, h.runtime.2, _, h.native.1, h.native.2,
      h.stateDir, _, h.tracker.1, h.tracker.2, h.decoder, _, h.analyzers.1, h.analyzers.2, _, h.mqtt.1, h.mqttThere,
      h.mqtt.2, h.input, h.mqttTimes, h.appThere, _, h.app.1, h.app.2, _, h.health.1, h.health.2, h.streamsFile,
      streams, h.streamsAre, h.streamsPass, h.capacity⟩

/-! ## Streams laid over a configuration -/

/-- The merged configuration, with the streams of the streams file. -/
def overlay (data : Json) (streams : List Json) : Json := withStreams streams (merge defaults data)

theorem find_withStreams_ne {j : Json} {k : String} (hk : k ≠ "streams") : (withStreams streams j).find k = j.find k := by
  cases j with
  | obj kvs =>
    simp only [withStreams, Json.find, List.find?_map]
    have hcomp : ((fun kv : String × Json => kv.1 == k) ∘ fun kv => if kv.1 = "streams" then (kv.1, .arr streams) else kv) =
        fun kv => kv.1 == k := by funext kv; simp only [Function.comp]; split <;> rfl
    rw [hcomp]
    cases hf : kvs.find? fun kv => kv.1 == k with
    | none => rfl
    | some kv =>
      have hkv : kv.1 = k := by simpa using List.find?_some hf
      simp [hkv, hk]
  | _ => rfl

theorem find_withStreams {j d : Json} (hd : j.find "streams" = some d) :
    (withStreams streams j).find "streams" = some (.arr streams) := by
  cases j with
  | obj kvs =>
    simp only [withStreams, Json.find, List.find?_map] at hd ⊢
    have hcomp : ((fun kv : String × Json => kv.1 == "streams") ∘
        fun kv => if kv.1 = "streams" then (kv.1, .arr streams) else kv) =
        fun kv => kv.1 == "streams" := by funext kv; simp only [Function.comp]; split <;> rfl
    rw [hcomp]
    cases hf : kvs.find? fun kv => kv.1 == "streams" with
    | none => rw [hf] at hd; cases hd
    | some kv =>
      have hkv : kv.1 = "streams" := by simpa using List.find?_some hf
      simp [hkv]
  | _ => cases hd

/-- A lookup beyond the streams: a default, overridden, or what the file has. -/
theorem find_overlay {vs : List (String × Json)} {k : String} (hk : k ≠ "streams") :
    (overlay (.obj vs) streams).find k = match defaults.find k with
      | some d => some (overridden vs (k, d))
      | none => (Json.obj vs).find k := by
  rw [overlay, find_withStreams_ne hk]
  exact find_merge

theorem find_overlay_streams {vs : List (String × Json)} :
    (overlay (.obj vs) streams).find "streams" = some (.arr streams) := by
  refine find_withStreams (d := overridden vs ("streams", .arr [])) ?_
  rw [defaults, find_merge]
  rfl

/-- A section with its defaults, as the merged configuration has it. -/
theorem find_section (ds : Json) (k : String) {j : Json} (hd : defaults.find k = some ds) (ho : data.isObject = true)
    (h : mergeSection ds data k = .ok j) : (merge defaults data).find k = some j := by
  cases data with
  | obj vs =>
    have hf : (merge defaults (.obj vs)).find k = some (overridden vs (k, ds)) := find_merge.trans (by rw [← defaults, hd])
    rw [hf]
    unfold mergeSection at h
    cases hv : (Json.obj vs).find k with
    | none =>
      rw [hv] at h
      cases h
      rw [overridden_none hv]
    | some v =>
      rw [hv] at h
      cases v with
      | obj us => cases h; rw [overridden_some hv]
      | _ => cases h
  | _ => cases ho

/-- **A section with its defaults is the same in the merged configuration**,
and is its own merge. -/
theorem mergeSection_overlay (ds : Json) (k : String) {j : Json} (hk : k ≠ "streams") (hd : defaults.find k = some ds)
    (hds : ds.isObject = true) (hu : distinct ds = true) (ho : data.isObject = true)
    (h : mergeSection ds data k = .ok j) :
    mergeSection ds (overlay data streams) k = .ok j := by
  cases data with
  | obj vs =>
    cases ds with
    | obj ds =>
      have hf : (overlay (.obj vs) streams).find k = some (overridden vs (k, .obj ds)) := by
        rw [find_overlay hk, hd]
      unfold mergeSection at h ⊢
      rw [hf]
      unfold overridden
      cases hv : (Json.obj vs).find k with
      | none =>
        rw [hv] at h
        cases h
        exact congrArg Except.ok (merge_self hu)
      | some v =>
        rw [hv] at h
        cases v with
        | obj us =>
          cases h
          have hi : merge (.obj ds) (merge (.obj ds) (.obj us)) = merge (.obj ds) (.obj us) := merge_idem hu
          simp only [merge] at hi ⊢
          rw [hi]
        | _ => cases h
    | _ => cases hds
  | _ => cases ho

/-! ## The checks of a merged configuration -/

theorem checkKeys_eq_ok {j : Json} {allowed : List String} {path msg : String} :
    checkKeys j allowed path msg = .ok () ↔ ∀ k ∈ keys j, k ∈ allowed := by
  unfold checkKeys
  split
  next k hk =>
    have hmem := List.mem_of_find?_eq_some hk
    have hk := List.find?_some hk
    simp only [decide_eq_true_eq] at hk
    simp only [err, reduceCtorEq, false_iff, not_forall]
    exact ⟨k, hmem, hk⟩
  next hnone => simpa using hnone

theorem keys_merge {ds vs : List (String × Json)} {k : String} (hk : k ∈ keys (merge (.obj ds) (.obj vs))) :
    k ∈ keys (.obj ds) ∨ k ∈ keys (.obj vs) := by
  simp only [merge, keys, mergeMembers_eq, List.map_append, List.map_map, List.mem_append, List.mem_map] at hk ⊢
  rcases hk with ⟨kd, hkd, rfl⟩ | ⟨kv, hkv, rfl⟩
  · exact .inl ⟨kd, hkd, rfl⟩
  · exact .inr ⟨kv, List.mem_of_mem_filter hkv, rfl⟩

theorem keys_withStreams {j : Json} : keys (withStreams streams j) = keys j := by
  cases j with
  | obj kvs =>
    simp only [withStreams, keys, List.map_map]
    refine List.map_congr_left fun kv _ => ?_
    simp only [Function.comp]
    split <;> rfl
  | _ => rfl

theorem checkKeys_overlay {vs : List (String × Json)} {path msg : String}
    (h : checkKeys (.obj vs) topLevelKeys path msg = .ok ()) :
    checkKeys (overlay (.obj vs) streams) topLevelKeys path msg = .ok () := by
  rw [checkKeys_eq_ok] at h ⊢
  intro k hk
  rw [overlay, keys_withStreams] at hk
  rcases keys_merge hk with hk | hk
  · have hdef : ∀ k ∈ keys defaults, k ∈ topLevelKeys := by decide
    exact hdef k hk
  · exact h k hk

theorem checkDev_overlay {vs : List (String × Json)} (h : checkDev allowDev (.obj vs) = .ok ()) :
    checkDev allowDev (overlay (.obj vs) streams) = .ok () ∧ devRaw (overlay (.obj vs) streams) = devRaw (.obj vs) := by
  have hf : (overlay (.obj vs) streams).find "dev" = some (overridden vs ("dev", devDefaults)) := find_overlay (by decide)
  unfold checkDev at h ⊢
  unfold devRaw getD
  rw [hf]
  cases hv : (Json.obj vs).find "dev" with
  | none =>
    rw [overridden_none hv]
    exact ⟨by cases allowDev <;> rfl, rfl⟩
  | some dev =>
    rw [overridden_some hv]
    rw [hv] at h
    cases dev with
    | null => exact ⟨rfl, rfl⟩
    | obj us =>
      simp only [check_bind, checkKeys_eq_ok] at h
      obtain ⟨-, hkeys, hvalues⟩ := h
      have hi : merge devDefaults (merge devDefaults (.obj us)) = merge devDefaults (.obj us) := merge_idem (by decide)
      have hraw : (merge devDefaults (.obj us)).find "raw_tensors" =
          some (overridden us ("raw_tensors", .bool false)) := find_merge
      have hsub : ∀ k ∈ keys (merge devDefaults (.obj us)), k ∈ ["raw_tensors", "max_fps", "max_streams"] := fun k hk => by
        rcases keys_merge hk with hk | hk
        · exact hk
        · exact hkeys k hk
      obtain ⟨ms, hms⟩ : ∃ ms, merge devDefaults (.obj us) = .obj ms := ⟨_, by simp only [devDefaults, merge]; rfl⟩
      rw [hms] at hi hraw hsub hvalues ⊢
      refine ⟨?_, ?_⟩
      · simp only [check_bind, checkKeys_eq_ok, hi]
        exact ⟨rfl, hsub, hvalues⟩
      · simp only [Option.getD_some, hraw]
        cases hr : (Json.obj us).find "raw_tensors" with
        | none => rw [overridden_none hr]
        | some v => rw [overridden_some hr, merge_of_leaf rfl]
    | _ => simp [check_bind, checkObject, ensure_eq_ok, Json.isObject] at h

/-- A default that is no object, looked up in the merged object or not. -/
theorem getD_merge {ds vs : List (String × Json)} {k : String} {d : Json} (hk : (Json.obj ds).find k = some d)
    (hd : d.isObject = false) : getD (merge (.obj ds) (.obj vs)) k d = getD (.obj vs) k d := by
  unfold getD
  rw [find_merge, hk]
  cases hv : (Json.obj vs).find k with
  | none => simp only [overridden_none hv, Option.getD_some, Option.getD_none]
  | some v => simp only [overridden_some hv, merge_of_leaf hd, Option.getD_some]

/-- An object by default stays one, or is overridden by what is none. -/
theorem isObject_getD_merge {ds vs : List (String × Json)} {k : String} {os : List (String × Json)}
    (hk : (Json.obj ds).find k = some (.obj os)) :
    (getD (merge (.obj ds) (.obj vs)) k (.obj os)).isObject = (getD (.obj vs) k (.obj os)).isObject := by
  unfold getD
  rw [find_merge, hk]
  cases hv : (Json.obj vs).find k with
  | none => simp only [overridden_none hv, Option.getD_some, Option.getD_none]
  | some v =>
    simp only [overridden_some hv, Option.getD_some]
    cases v <;> simp [merge, Json.isObject]

theorem find_merge_of_none {ds vs : List (String × Json)} {k : String} (hk : (Json.obj ds).find k = none) :
    (merge (.obj ds) (.obj vs)).find k = (Json.obj vs).find k := by rw [find_merge, hk]

theorem checkBackendValues_merge {bs : List (String × Json)} :
    checkBackendValues py (merge backendDefaults (.obj bs)) = checkBackendValues py (.obj bs) := by
  have hname : (merge backendDefaults (.obj bs)).find "name" = (Json.obj bs).find "name" := find_merge_of_none rfl
  have hpath : (merge backendDefaults (.obj bs)).find "model_path" = (Json.obj bs).find "model_path" :=
    find_merge_of_none rfl
  have hsize : getD (merge backendDefaults (.obj bs)) "input_size" (.arr [.int 640, .int 640]) =
      getD (.obj bs) "input_size" (.arr [.int 640, .int 640]) := getD_merge rfl rfl
  have halign : getD (merge backendDefaults (.obj bs)) "align" (.str "center") =
      getD (.obj bs) "align" (.str "center") := getD_merge rfl rfl
  have hscore : getD (merge backendDefaults (.obj bs)) "score_threshold" (num d035) =
      getD (.obj bs) "score_threshold" (num d035) := getD_merge rfl rfl
  have hnms : getD (merge backendDefaults (.obj bs)) "nms_threshold" (num d045) =
      getD (.obj bs) "nms_threshold" (num d045) := getD_merge rfl rfl
  have hoptions : (getD (merge backendDefaults (.obj bs)) "options" (.obj [])).isObject =
      (getD (.obj bs) "options" (.obj [])).isObject := isObject_getD_merge rfl
  have hget : ∀ k, (merge backendDefaults (.obj bs)).find k = (Json.obj bs).find k →
      getD (merge backendDefaults (.obj bs)) k .null = getD (.obj bs) k .null := fun k hk => by rw [getD, getD, hk]
  simp only [checkBackendValues, require, checkObject, hname, hpath, hget _ hname, hget _ hpath, hsize, halign, hscore,
    hnms, hoptions]

/-- The checks of the backend read the same from the merged one. -/
theorem checkBackend_overlay {vs : List (String × Json)} (h : checkBackend py (.obj vs) = .ok ()) :
    checkBackend py (overlay (.obj vs) streams) = .ok () ∧
      ∀ k, (Json.find backendDefaults k) = none →
        (getD (overlay (.obj vs) streams) "backend" .null).find k = (getD (.obj vs) "backend" .null).find k := by
  have hf : (overlay (.obj vs) streams).find "backend" = some (overridden vs ("backend", backendDefaults)) :=
    find_overlay (by decide)
  simp only [checkBackend, check_bind] at h ⊢
  obtain ⟨hthere, hobj, hvalues⟩ := h
  obtain ⟨b, hb⟩ := Option.isSome_iff_exists.mp (ensure_eq_ok.mp hthere)
  have hg : getD (overlay (.obj vs) streams) "backend" .null = merge backendDefaults b := by
    rw [getD, hf, overridden_some hb]
    rfl
  have hg' : getD (.obj vs) "backend" .null = b := by
    rw [getD, hb]
    rfl
  rw [hg'] at hobj hvalues
  have hobj := ensure_eq_ok.mp hobj
  cases b with
  | obj bs =>
    rw [hg, hg', checkBackendValues_merge]
    exact ⟨⟨ensure_eq_ok.mpr (by rw [hf]; rfl), rfl, hvalues⟩, fun k hk => find_merge_of_none hk⟩
  | _ => cases hobj

theorem checkHead_overlay {vs : List (String × Json)} : checkHead (overlay (.obj vs) streams) = checkHead (.obj vs) := by
  have hschema : (overlay (.obj vs) streams).find "schema" = (Json.obj vs).find "schema" := find_overlay (by decide)
  have hdevice : (overlay (.obj vs) streams).find "device_id" = (Json.obj vs).find "device_id" :=
    find_overlay (by decide)
  simp only [checkHead, require, getD, hschema, hdevice]

/-- A string by default, that passes, or the string there. -/
theorem checkOptStr_overlay {vs : List (String × Json)} {k s : String} {nonempty : Bool} (hk : k ≠ "streams")
    (hd : defaults.find k = some (.str s)) (hs : nonempty = true → s ≠ "")
    (h : checkOptStr (.obj vs) k nonempty = .ok ()) : checkOptStr (overlay (.obj vs) streams) k nonempty = .ok () := by
  have hf : (overlay (.obj vs) streams).find k = some (overridden vs (k, .str s)) := by rw [find_overlay hk, hd]
  unfold checkOptStr at h ⊢
  rw [hf]
  cases hv : (Json.obj vs).find k with
  | none =>
    simp only [overridden_none hv, checkStr]
    exact if_neg fun hn => hs hn.1 hn.2
  | some v =>
    rw [hv] at h
    rw [overridden_some hv, merge_of_leaf rfl]
    exact h

theorem requireFull_overlay {vs : List (String × Json)} {k : String} {d : Json} (hk : k ≠ "streams")
    (hd : defaults.find k = some d) : requireFull partly (overlay (.obj vs) streams) k = .ok () := by
  have hf : (overlay (.obj vs) streams).find k = some (overridden vs (k, d)) := by rw [find_overlay hk, hd]
  cases partly
  · exact ensure_eq_ok.mpr (by rw [hf]; rfl)
  · rfl

/-! ## Loading again -/

/-- **A valid configuration stays valid with its defaults merged in**, with
any streams in place of its own that pass. -/
theorem Accepts.reload {old : List Json} (h : Accepts py partly allowDev data m old)
    (hs : checkStreams py [] 0 streams = .ok ()) (hc : checkCapacity m.runtime streams.length = .ok ()) :
    Accepts py partly allowDev (overlay data streams) m streams := by
  have ho := h.isObject
  cases data with
  | obj vs =>
    have hdev : checkDev allowDev (overlay (.obj vs) streams) = .ok () := (checkDev_overlay h.dev).1
    have hraw : devRaw (overlay (.obj vs) streams) = devRaw (.obj vs) := (checkDev_overlay h.dev).2
    have hbackend : checkBackend py (overlay (.obj vs) streams) = .ok () := (checkBackend_overlay h.backend).1
    have hfind : ∀ k, Json.find backendDefaults k = none →
        (getD (overlay (.obj vs) streams) "backend" .null).find k = (getD (.obj vs) "backend" .null).find k :=
      (checkBackend_overlay h.backend).2
    exact
    { isObject := rfl
      keys := checkKeys_overlay h.keys
      dev := hdev
      head := checkHead_overlay.trans h.head
      backend := hbackend
      runtime := ⟨mergeSection_overlay runtimeDefaults "runtime" (by decide) rfl rfl (by decide) ho h.runtime.1, h.runtime.2⟩
      native := ⟨mergeSection_overlay nativeDefaults "native" (by decide) rfl rfl (by decide) ho h.native.1, h.native.2⟩
      stateDir := checkOptStr_overlay (by decide) rfl (by decide) h.stateDir
      tracker := ⟨mergeSection_overlay trackerDefaults "tracker" (by decide) rfl rfl (by decide) ho h.tracker.1, h.tracker.2⟩
      decoder := by
        have hdecoder := h.decoder
        unfold checkDecoder at hdecoder ⊢
        rwa [hraw, hfind "decoder" rfl]
      analyzers := ⟨mergeSection_overlay analyzersDefaults "analyzers" (by decide) rfl rfl (by decide) ho h.analyzers.1, h.analyzers.2⟩
      mqtt := ⟨mergeSection_overlay mqttDefaults "mqtt" (by decide) rfl rfl (by decide) ho h.mqtt.1, h.mqtt.2⟩
      mqttThere := requireFull_overlay (d := mqttDefaults) (by decide) rfl
      input := by
        have hinput := h.input
        unfold checkInput at hinput ⊢
        rwa [hfind "input" rfl]
      mqttTimes := h.mqttTimes
      appThere := requireFull_overlay (d := appDefaults) (by decide) rfl
      app := ⟨mergeSection_overlay appDefaults "app" (by decide) rfl rfl (by decide) ho h.app.1, h.app.2⟩
      health := ⟨mergeSection_overlay healthDefaults "health" (by decide) rfl rfl (by decide) ho h.health.1, h.health.2⟩
      streamsFile := checkOptStr_overlay (by decide) rfl nofun h.streamsFile
      streamsAre := by rw [getD, find_overlay_streams]; rfl
      streamsPass := hs
      capacity := hc }
  | _ => cases ho

/-- **What a second validation is about**: the streams of the streams file,
and whether the workers hold as many. -/
theorem validate_overlay_iff {old : List Json} (h : Accepts py partly allowDev data m old) :
    validate py partly allowDev (overlay data streams) = .ok () ↔
      checkStreams py [] 0 streams = .ok () ∧ checkCapacity m.runtime streams.length = .ok () := by
  rw [validate_eq_ok]
  constructor
  · rintro ⟨m', streams', h'⟩
    have ho := h.isObject
    cases data with
    | obj vs =>
      have hstreams := h'.streamsAre
      rw [getD, find_overlay_streams] at hstreams
      cases hstreams
      have hr : mergeSection runtimeDefaults (overlay (.obj vs) streams) "runtime" = .ok m.runtime :=
        mergeSection_overlay runtimeDefaults "runtime" (by decide) rfl rfl (by decide) ho h.runtime.1
      have he := Except.ok.inj (h'.runtime.1.symm.trans hr)
      exact ⟨h'.streamsPass, he ▸ h'.capacity⟩
    | _ => cases ho
  · rintro ⟨hs, hc⟩
    exact ⟨m, streams, h.reload hs hc⟩

/-- **A streams file is loaded** exactly when its streams pass. -/
theorem load_streams_iff {old : List Json} (h : Accepts py partly allowDev data m old)
    (hf : streamsFileOf (merge defaults data) ≠ "") :
    load py partly allowDev data (some (.arr streams)) = .ok (overlay data streams) ↔
      checkStreams py [] 0 streams = .ok () ∧ checkCapacity m.runtime streams.length = .ok () := by
  have hv : validate py partly allowDev data = .ok () := validate_eq_ok.mpr ⟨m, old, h⟩
  rw [← validate_overlay_iff h]
  simp only [load, check_bind, hv, true_and, if_neg hf, overlay]
  exact and_iff_left rfl

/-! ## A configuration that loads -/

variable {merged : Json} {streamsFile : Option Json}

def runtimeOf (merged : Json) : Json := getD merged "runtime" .null

/-- What `load` returns: the sections accepted, and streams that pass. -/
structure Loads (py : Py) (partly allowDev : Bool) (data merged : Json) (m : Sections) (ss : List Json) : Prop where
  accepts : ∃ old, Accepts py partly allowDev data m old
  runtime : runtimeOf merged = m.runtime
  file : streamsFileOf merged = streamsFileOf (merge defaults data)
  streamsAre : getD merged "streams" (.arr []) = .arr ss
  streamsPass : checkStreams py [] 0 ss = .ok ()
  capacity : checkCapacity m.runtime ss.length = .ok ()

theorem getD_of_find {j v d : Json} {k : String} (h : j.find k = some v) : getD j k d = v := by rw [getD, h]; rfl

theorem Accepts.loads {old : List Json} (h : Accepts py partly allowDev data m old) :
    Loads py partly allowDev data (merge defaults data) m old where
  accepts := ⟨old, h⟩
  runtime := getD_of_find (find_section runtimeDefaults "runtime" rfl h.isObject h.runtime.1)
  file := rfl
  streamsAre := by
    have ho := h.isObject
    have hs := h.streamsAre
    cases data with
    | obj vs =>
      have hf : (merge defaults (.obj vs)).find "streams" = some (overridden vs ("streams", .arr [])) := find_merge
      rw [getD_of_find hf]
      unfold getD at hs
      cases hv : (Json.obj vs).find "streams" with
      | none => rw [hv] at hs; rw [overridden_none hv]; exact hs
      | some v => rw [hv] at hs; rw [overridden_some hv, merge_of_leaf rfl]; exact hs
    | _ => cases ho
  streamsPass := h.streamsPass
  capacity := h.capacity

theorem Accepts.loads_overlay {old ss : List Json} (h : Accepts py partly allowDev data m old)
    (hs : checkStreams py [] 0 ss = .ok ()) (hc : checkCapacity m.runtime ss.length = .ok ()) :
    Loads py partly allowDev data (overlay data ss) m ss where
  accepts := ⟨old, h⟩
  runtime := by
    refine getD_of_find ?_
    rw [overlay, find_withStreams_ne (by decide)]
    exact find_section runtimeDefaults "runtime" rfl h.isObject h.runtime.1
  file := by rw [streamsFileOf, streamsFileOf, getD, getD, overlay, find_withStreams_ne (by decide)]
  streamsAre := by
    have ho := h.isObject
    cases data with
    | obj vs => exact getD_of_find find_overlay_streams
    | _ => cases ho
  streamsPass := hs
  capacity := hc

theorem load_ok (h : load py partly allowDev data streamsFile = .ok merged) :
    ∃ m ss, Loads py partly allowDev data merged m ss := by
  obtain ⟨hv, h⟩ := check_bind.mp h
  obtain ⟨m, old, ha⟩ := validate_eq_ok.mp hv
  dsimp only at h
  split at h
  · cases h
    exact ⟨m, old, ha.loads⟩
  · split at h
    · cases h
      exact ⟨m, old, ha.loads⟩
    next ss _ =>
      obtain ⟨hvalid, h⟩ := check_bind.mp h
      cases h
      obtain ⟨hs, hc⟩ := (validate_overlay_iff ha).mp hvalid
      exact ⟨m, ss, ha.loads_overlay hs hc⟩
    · cases h

end RetailVision.Config
