/-
The analyzers of a stream in the native runtime: the built-in ones and those
of plugins, made by name (`runtime.cpp`, `analyzers/plugin_loader.cpp`), the
chain an add builds of them, and the configure of one by name.

A plugin is its `create`: what it makes of a configuration, or why it does
not. Left out: what an analyzer does with frames.
-/
import RetailVision.Analyzers

set_option linter.all false

namespace RetailVision.NativeAnalyzers

open Lib Analyzers

/-! ## Chains -/

section

variable {A : Type}

def Configured.map {S S' : Type} (f : S → S') : Configured S → Configured S'
  | .returned ok err s => .returned ok err (f s)
  | .threw what => .threw what

/-- `configure` of the analyzer of a name; the loop runs on to the last one.
None has the name: nothing. -/
def configureNamed (configure : A → Configured A) (name : String) :
    List (String × A) → Option (Configured (List (String × A)))
  | [] => none
  | (n, a) :: rest => match configureNamed configure name rest with
    | some r => some (Configured.map ((n, a) :: ·) r)
    | none => if n = name then some (Configured.map (fun a' => (n, a') :: rest) (configure a)) else none

/-- Those with the name, as far as the last. -/
theorem configureNamed_append {configure : A → Configured A} {name : String} {before after : List (String × A)} {a : A}
    (hafter : ∀ x ∈ after, x.1 ≠ name) :
    configureNamed configure name (before ++ (name, a) :: after) =
      some (Configured.map (fun a' => before ++ (name, a') :: after) (configure a)) := by
  have hnone : configureNamed configure name after = none := by
    induction after with
    | nil => rfl
    | cons x after ih =>
      obtain ⟨n, b⟩ := x
      have hn : n ≠ name := hafter (n, b) List.mem_cons_self
      rw [configureNamed, ih fun x hx => hafter x (List.mem_cons_of_mem _ hx)]
      exact if_neg hn
  induction before with
  | nil =>
    rw [List.nil_append, configureNamed, hnone]
    exact if_pos rfl
  | cons x before ih =>
    rw [List.cons_append, configureNamed, ih]
    cases configure a <;> rfl

theorem configureNamed_none {configure : A → Configured A} {name : String} {chain : List (String × A)} :
    configureNamed configure name chain = none ↔ ∀ x ∈ chain, x.1 ≠ name := by
  induction chain with
  | nil => simp [configureNamed]
  | cons x chain ih =>
    obtain ⟨n, b⟩ := x
    rw [configureNamed, List.forall_mem_cons]
    cases hrest : configureNamed configure name chain with
    | none =>
      have hno := ih.mp hrest
      by_cases hn : n = name
      · simp [hn]
      · simpa [hn] using fun a b h => hno (a, b) h
    | some r =>
      have hsome : ¬ ∀ x ∈ chain, x.1 ≠ name := fun h => by rw [ih.mpr h] at hrest; cases hrest
      simp only [reduceCtorEq, false_iff, not_and]
      exact fun _ => hsome

/-- The last analyzer of a name, with those before and after it. -/
theorem exists_last {name : String} {chain : List (String × A)} (h : ∃ x ∈ chain, x.1 = name) :
    ∃ before a after, chain = before ++ (name, a) :: after ∧ ∀ x ∈ after, x.1 ≠ name := by
  induction chain with
  | nil =>
    obtain ⟨x, hx, -⟩ := h
    exact absurd hx List.not_mem_nil
  | cons x chain ih =>
    by_cases hrest : ∃ x ∈ chain, x.1 = name
    · obtain ⟨before, a, after, rfl, hafter⟩ := ih hrest
      exact ⟨x :: before, a, after, rfl, hafter⟩
    · obtain ⟨y, hy, hname⟩ := h
      obtain rfl | hy := List.mem_cons.mp hy
      · obtain ⟨n, a⟩ := y
        cases hname
        exact ⟨[], a, chain, rfl, fun x hx he => hrest ⟨x, hx, he⟩⟩
      · exact absurd ⟨y, hy, hname⟩ hrest

/-- What a configure does is what the last analyzer of the name does. -/
theorem configureNamed_some {configure : A → Configured A} {name : String} {chain : List (String × A)}
    {r : Configured (List (String × A))} (h : configureNamed configure name chain = some r) :
    ∃ before a after, chain = before ++ (name, a) :: after ∧ (∀ x ∈ after, x.1 ≠ name) ∧
      r = Configured.map (fun a' => before ++ (name, a') :: after) (configure a) := by
  have hname : ∃ x ∈ chain, x.1 = name := by
    by_contra hno
    rw [configureNamed_none.mpr fun x hx he => hno ⟨x, hx, he⟩] at h
    cases h
  obtain ⟨before, a, after, rfl, hafter⟩ := exists_last hname
  rw [configureNamed_append hafter, Option.some.injEq] at h
  exact ⟨before, a, after, rfl, hafter, h.symm⟩

end

/-! ## Analyzers -/

/-- `Analyzer`, by what it is: one of the built-in ones, or a plugin's with its
instance, once there is one. -/
inductive StreamAnalyzer (F T L P : Type)
  | builtin (a : Analyzer) (s : State F T L a)
  | plugin (id : String) (self : Option P)

/-- What a runtime has been started with, as far as analyzers go. -/
structure Native (F P : Type) where
  ar : Arith F
  lib : Nlohmann
  /-- `json_dump` -/
  dump : Json → Bytes
  /-- the ids of `plugins_` -/
  plugins : List String
  /-- `create` of a plugin's table; on failure the text it leaves -/
  create : String → Bytes → Except Bytes P
  /-- `tracker.enabled` -/
  trackEnabled : Bool
  /-- `caps.keypoints` -/
  keypoints : Nat

variable {F T L P : Type} (nat : Native F P)

/-- An analyzer that has not been configured. -/
def initial (ar : Arith F) : (a : Analyzer) → State F T L a
  | .lineCross => ⟨{
      lines := []
      band := ar.lit 0
      segmentMargin := ar.lit (5 / 100)
      minTravel := ar.lit (2 / 100)
      rebornWindowS := ar.lit (15 / 10)
      rebornDist := ar.lit (5 / 100)
      minTrackFrames := 3
      classes := [] : LineCrossCfg F }, ([] : List (LineState T L))⟩
  | .zone => ⟨{ zones := [], minDwellS := .fin 0, classes := [] : ZoneCfg F }, ([] : List (List (Nat × T)))⟩
  | .dwell => ⟨{
      radius := ar.lit (3 / 100)
      minDwellS := .fin 10
      repeatS := .fin 0
      zones := []
      anchor := "bottom_center"
      classes := [] : DwellCfg F }, ([] : List (Nat × T))⟩
  | .speed => ⟨{
      windowS := .fin 1
      maxSpeed := none
      minSpeed := none
      holdS := .fin (1 / 2)
      anchor := "bottom_center"
      homography := none
      classes := [] : SpeedCfg }, ([] : List (Nat × T))⟩
  | .direction => ⟨{
      expectedDeg := ar.lit 90
      toleranceDeg := ar.lit 60
      minTravel := ar.lit (5 / 100)
      windowS := .fin (3 / 2)
      holdS := .fin (1 / 2)
      zones := []
      anchor := "bottom_center"
      classes := [] : DirectionCfg F }, ([] : List (Nat × T))⟩
  | .countThreshold => ⟨{
      zones := []
      maxCount := none
      minCount := none
      holdS := .fin 2
      anchor := "bottom_center"
      classes := [] : CountThresholdCfg F }, ([] : List (String × T))⟩
  | .poseAngle => ⟨{
      joints := []
      minConf := .fin (3 / 10)
      holdS := .fin (1 / 2)
      classes := []
      maxIdx := -1 : PoseAngleCfg }, ([] : List ((Nat × String) × T))⟩

namespace StreamAnalyzer

/-- `min_keypoints()`: only pose_angle has one of its own. -/
def minKeypoints : StreamAnalyzer F T L P → Nat
  | builtin .poseAngle ⟨(c : PoseAngleCfg), _⟩ => if c.maxIdx < 0 then 0 else (c.maxIdx + 1).toNat
  | _ => 0

/-- `needs_tracks()` -/
def needsTracks : StreamAnalyzer F T L P → Bool
  | builtin .countThreshold _ => false
  | _ => true

end StreamAnalyzer

/-- `configure`; a plugin makes a new instance, and keeps the old one where it fails. -/
def configure : StreamAnalyzer F T L P → Bytes → Configured (StreamAnalyzer F T L P)
  | .builtin a s, json => Configured.map (.builtin a) (Analyzers.configure nat.ar nat.lib a s json)
  | .plugin id self, json => match nat.create id json with
    | .ok inst => .returned true [] (.plugin id (some inst))
    | .error text => .returned false (if text = [] then utf8 "plugin create failed" else text) (.plugin id self)

/-- `create_analyzer` -/
def createAnalyzer (name : String) : Except Bytes (StreamAnalyzer F T L P) :=
  let all : List Analyzer := [.lineCross, .zone, .dwell, .speed, .direction, .countThreshold, .poseAngle]
  match all.find? (·.name = name) with
  | some a => .ok (.builtin a (initial nat.ar a))
  | none => .error (utf8 ("unknown analyzer: " ++ name))

def hasSoSuffix (name : String) : Bool := decide (name.utf8ByteSize > 3) && ".so".toList.isSuffixOf name.toList

def makeStreamAnalyzer (name : String) : Except Bytes (StreamAnalyzer F T L P) :=
  if '/' ∈ name.toList ∨ hasSoSuffix name = true then .error (utf8 ("analyzer name must not be a path: " ++ name))
  else if "plugin:".toList.isPrefixOf name.toList then
    let id := String.ofList (name.toList.drop 7)
    if id ∈ nat.plugins then .ok (.plugin id none)
    else .error (utf8 ("unknown plugin: " ++ id ++ " (not registered in analyzers.plugins)"))
  else createAnalyzer nat name

/-! ## The chain of an add -/

/-- The text of an entry's configuration: `err` says what it must be. -/
def configText (entry : Json) (err : String) : Except Bytes Bytes :=
  match entry.find "config" with
  | none | some .null => .ok (utf8 "\x7b\x7d")
  | some (.obj kvs) => .ok (nat.dump (.obj kvs))
  | some _ => .error (utf8 err)

/-- What an add makes of an entry, once it has its name and configuration. -/
def addAnalyzer (name : String) (json : Bytes) : Checked Bytes (StreamAnalyzer F T L P) :=
  match makeStreamAnalyzer nat name with
  | .error err => .refused err
  | .ok a =>
    if nat.trackEnabled = false ∧ a.needsTracks = true then
      .refused (utf8 (name ++ " requires tracks (tracker.enabled=false)"))
    else match configure nat a json with
      | .threw what => .threw what
      | .returned false err _ => .refused err
      -- "checked after configure: min_keypoints depends on the joints"
      | .returned true _ a' =>
        if a'.minKeypoints > 0 ∧ nat.keypoints < a'.minKeypoints then .refused (utf8 (name ++ " requires keypoints"))
        else .ok a'

/-- An entry of an add. -/
def addEntry (entry : Json) : Checked Bytes (String × StreamAnalyzer F T L P) :=
  if entry.isObject = false then .refused (utf8 "analyzer entry must be an object")
  else match entry.find "name" with
    | some (.str name) => match configText nat entry "analyzer config must be an object" with
      | .error err => .refused err
      | .ok json => do
        let a ← addAnalyzer nat name json
        .ok (name, a)
    | _ => .refused (utf8 "missing or invalid field: name")

/-- The loop of `add_stream_locked` over the entries. -/
def buildChain (entries : List Json) : Checked Bytes (List (String × StreamAnalyzer F T L P)) :=
  Checked.forEach (fun _ entry => addEntry nat entry) [] entries

/-! ## What a configure leaves -/

variable {nat} {a a' : StreamAnalyzer F T L P} {name : String} {json err : Bytes}

/-- What an analyzer is: one of the built-in ones, or of a plugin. -/
def StreamAnalyzer.kind : StreamAnalyzer F T L P → Analyzer ⊕ String
  | .builtin a _ => .inl a
  | .plugin id _ => .inr id

/-- What an analyzer has been configured to: the configuration of a built-in
one, or a plugin's instance. -/
inductive Effective (F P : Type)
  | builtin (a : Analyzer) (c : a.Cfg F)
  | plugin (id : String) (inst : Option P)

def StreamAnalyzer.effective : StreamAnalyzer F T L P → Effective F P
  | .builtin a s => .builtin a s.cfg
  | .plugin id self => .plugin id self

/-- What a configuration is to an analyzer of a kind, where it is accepted. -/
def effectiveOf (nat : Native F P) (kind : Analyzer ⊕ String) (json : Bytes) : Option (Effective F P) :=
  match kind with
  | .inl a => match nat.lib.parse json with
    | .ok j => match a.parseCfg nat.ar j with
      | .ok c => some (.builtin a c)
      | _ => none
    | .error _ => none
  | .inr id => match nat.create id json with
    | .ok inst => some (.plugin id (some inst))
    | .error _ => none

/-- **What a configure comes to**, as far as the configuration goes, is up to
the kind of the analyzer and the text. -/
theorem configure_effective : (∃ err a', configure nat a json = .returned true err a') ∧
      (∀ err a', configure nat a json = .returned true err a' →
        a'.kind = a.kind ∧ effectiveOf nat a.kind json = some a'.effective) ∨
    effectiveOf nat a.kind json = none ∧ ((∃ err, configure nat a json = .returned false err a) ∨
      ∃ what, configure nat a json = .threw what) := by
  cases a with
  | builtin a s =>
    simp only [configure, Analyzers.configure, StreamAnalyzer.kind, effectiveOf]
    cases nat.lib.parse json with
    | error what => exact .inr ⟨rfl, .inl ⟨_, rfl⟩⟩
    | ok j =>
      dsimp only
      cases a.parseCfg nat.ar j with
      | refused err => exact .inr ⟨rfl, .inl ⟨_, rfl⟩⟩
      | threw what => exact .inr ⟨rfl, .inr ⟨_, rfl⟩⟩
      | ok c =>
        refine .inl ⟨⟨_, _, rfl⟩, fun err a' h => ?_⟩
        cases h
        refine ⟨rfl, ?_⟩
        have hcfg : (install nat.ar a s c).cfg = c := by cases a <;> rfl
        simp only [StreamAnalyzer.effective, hcfg]
  | plugin id self =>
    simp only [configure, StreamAnalyzer.kind, effectiveOf]
    cases nat.create id json with
    | error text => exact .inr ⟨rfl, .inl ⟨_, rfl⟩⟩
    | ok inst =>
      refine .inl ⟨⟨_, _, rfl⟩, fun err a' h => ?_⟩
      cases h
      exact ⟨rfl, rfl⟩

/-- A configuration is accepted where it is one to the analyzer's kind. -/
theorem configure_accepts : (∃ err a', configure nat a json = .returned true err a') ↔
    ∃ e, effectiveOf nat a.kind json = some e := by
  obtain ⟨⟨err, a', h⟩, hall⟩ | ⟨hnone, hrefused⟩ := @configure_effective F T L P nat a json
  · exact iff_of_true ⟨err, a', h⟩ ⟨_, (hall err a' h).2⟩
  · refine iff_of_false (fun ⟨err, a', h⟩ => ?_) fun ⟨e, he⟩ => ?_
    · obtain ⟨err', h'⟩ | ⟨what, h'⟩ := hrefused
      · rw [h] at h'
        cases h'
      · rw [h] at h'
        cases h'
    · rw [hnone] at he
      cases he

theorem configure_returned (h : configure nat a json = .returned true err a') :
    a'.kind = a.kind ∧ effectiveOf nat a.kind json = some a'.effective := by
  obtain ⟨-, hall⟩ | ⟨-, ⟨err', h'⟩ | ⟨what, h'⟩⟩ := @configure_effective F T L P nat a json
  · exact hall err a' h
  · rw [h] at h'
    cases h'
  · rw [h] at h'
    cases h'

/-- Where it is not accepted, the analyzer is as it was. -/
theorem configure_refused (h : configure nat a json = .returned false err a') : a' = a := by
  obtain ⟨⟨err', b, h'⟩, -⟩ | ⟨-, ⟨err', h'⟩ | ⟨what, h'⟩⟩ := @configure_effective F T L P nat a json
  · rw [h] at h'
    cases h'
  · rw [h] at h'
    cases h'
    rfl
  · rw [h] at h'
    cases h'

/-- A configure that is accepted is one of the last analyzer of the name. -/
theorem configureNamed_returned {chain chain' : List (String × StreamAnalyzer F T L P)}
    (h : configureNamed (configure nat · json) name chain = some (.returned true err chain')) :
    ∃ before a a' after, chain = before ++ (name, a) :: after ∧ (∀ x ∈ after, x.1 ≠ name) ∧
      chain' = before ++ (name, a') :: after ∧ configure nat a json = .returned true err a' := by
  obtain ⟨before, a, after, hchain, hafter, hr⟩ := configureNamed_some h
  cases hcfg : configure nat a json with
  | threw what =>
    rw [hcfg] at hr
    cases hr
  | returned ok err' a' =>
    rw [hcfg] at hr
    cases hr
    exact ⟨before, a, a', after, hchain, hafter, rfl, hcfg⟩

/-- The keypoints a configuration needs: one more than the highest index of a joint. -/
def Effective.minKeypoints : Effective F P → Nat
  | .builtin .poseAngle (c : PoseAngleCfg) => if c.maxIdx < 0 then 0 else (c.maxIdx + 1).toNat
  | _ => 0

theorem minKeypoints_effective : a.effective.minKeypoints = a.minKeypoints := by
  cases a with
  | builtin a s => cases a <;> rfl
  | plugin id self => rfl

/-- What an add accepts of an entry, once it is read. -/
theorem addAnalyzer_ok : addAnalyzer nat name json = .ok a' ↔
    ∃ a : StreamAnalyzer F T L P, makeStreamAnalyzer nat name = .ok a ∧
      ¬ (nat.trackEnabled = false ∧ a.needsTracks = true) ∧
      (∃ err, configure nat a json = .returned true err a') ∧ a'.minKeypoints ≤ nat.keypoints := by
  unfold addAnalyzer
  cases makeStreamAnalyzer (T := T) (L := L) nat name with
  | error err => exact iff_of_false nofun fun ⟨a, h, _⟩ => by cases h
  | ok a =>
    simp only [Except.ok.injEq, exists_eq_left']
    by_cases htracks : nat.trackEnabled = false ∧ a.needsTracks = true
    · rw [if_pos htracks]
      exact iff_of_false nofun fun h => h.1 htracks
    · rw [if_neg htracks, and_iff_right htracks]
      cases configure nat a json with
      | threw what => exact iff_of_false nofun fun ⟨⟨err, h⟩, _⟩ => by cases h
      | returned ok err b =>
        cases ok with
        | false => exact iff_of_false nofun fun ⟨⟨err, h⟩, _⟩ => by cases h
        | true =>
          dsimp only
          by_cases hkp : b.minKeypoints > 0 ∧ nat.keypoints < b.minKeypoints
          · rw [if_pos hkp]
            refine iff_of_false nofun fun ⟨⟨err, h⟩, hle⟩ => ?_
            cases h
            omega
          · rw [if_neg hkp]
            constructor
            · intro h
              cases h
              exact ⟨⟨err, rfl⟩, by omega⟩
            · intro ⟨⟨err, h⟩, hle⟩
              cases h
              rfl

/-- An analyzer that has just been made is of the kind its name says, and that
is pose_angle for one name only. -/
theorem make_kind (h : makeStreamAnalyzer nat name = .ok a) : a.kind = .inl .poseAngle ↔ name = "pose_angle" := by
  unfold makeStreamAnalyzer at h
  split at h
  · cases h
  next hpath =>
    split at h
    next hplugin =>
      dsimp only at h
      split at h
      · cases h
        refine iff_of_false nofun fun hname => ?_
        rw [hname] at hplugin
        exact absurd hplugin (by decide)
      · cases h
    next hplugin =>
      unfold createAnalyzer at h
      dsimp only at h
      split at h
      next b hb =>
        cases h
        have hname : b.name = name := by simpa using List.find?_some hb
        rw [← hname, StreamAnalyzer.kind, Sum.inl.injEq]
        cases b <;> decide
      next => cases h

end RetailVision.NativeAnalyzers
