/-
The analyzer chain a restart comes back with. The host keeps the entries of
`analyzers(spec)` and the latest configuration by name
(`vision_base/hooks.py`), and sends them in an add; the native runtime has
configured the last analyzer of the name (`vb/src/pool.cpp`). The chain comes
back as it was exactly where the host has heard of the latest configuration of
each name, the other analyzers of the name do not mind it, and the add accepts
it (`rebuilt_iff`).

A call is one that the native runtime says ok to; the host may have given up
on it by then.
-/
import RetailVision.ControlKeypoints
import RetailVision.Lib.LastOf

set_option linter.all false

namespace RetailVision.AnalyzerReplay

open Lib Analyzers NativeAnalyzers

/-- What `StreamContext` keeps of a stream's analyzers. -/
structure StreamContext where
  /-- `_base_analyzers`, of `analyzers(spec)`; each the members of a dict -/
  base : List (List (String × Json))
  /-- `_analyzers`, "latest successful configs" -/
  analyzers : List (String × Json)

/-- An entry of an add. -/
def entry (name config : Json) : Json := .obj [("name", name), ("config", config)]

namespace StreamContext

/-- The configuration kept for a name, if it is the name of one. -/
def held (ctx : StreamContext) : Json → Option Json
  | .str name => ctx.analyzers.lookup name
  | _ => none

/-- `analyzer_configs` -/
def analyzerConfigs (ctx : StreamContext) : List Json :=
  let out := ctx.base.map fun e =>
    let name := ((Json.obj e).find "name").getD .null
    match ctx.held name with
    | some config => entry name config
    | none => entry name (((Json.obj e).find "config").getD (.obj []))
  let overridden := ctx.base.filterMap fun e => match (Json.obj e).find "name" with
    | some (.str name) => if (ctx.analyzers.lookup name).isSome then some name else none
    | _ => none
  out ++ (ctx.analyzers.filter fun x => x.1 ∉ overridden).map fun x => entry (.str x.1) x.2

end StreamContext

/-- A `configure_analyzer` that the native runtime says ok to. -/
structure Call where
  name : String
  config : Json
  /-- the reply is there before `timeout_s` -/
  inTime : Bool

/-- A stream in the native runtime, and in the host. -/
structure State (F T L P : Type) where
  chain : List (String × StreamAnalyzer F T L P)
  ctx : StreamContext

variable {F T L P : Type} (nat : Native F P)

/-- A configuration as the native runtime takes it from a line. -/
def textOf : Json → Option Bytes
  | .null => some (utf8 "\x7b\x7d")
  | .obj kvs => some (nat.dump (.obj kvs))
  | _ => none

/-- A call: the analyzer is configured, and the host keeps the configuration
if it is told in time. -/
def step (s : State F T L P) (call : Call) : Option (State F T L P) :=
  match textOf nat call.config with
  | none => none
  | some json => match configureNamed (configure nat · json) call.name s.chain with
    | some (.returned true _ chain) => some {
        chain := chain
        ctx := if call.inTime = true then
            { s.ctx with analyzers := Json.setMember call.name call.config s.ctx.analyzers }
          else s.ctx }
    | _ => none

/-- Before the first call. -/
def start (entries : List (List (String × Json))) (chain : List (String × StreamAnalyzer F T L P)) : State F T L P :=
  { chain := chain, ctx := { base := entries, analyzers := [] } }

/-- What a chain is to be compared by: names and effective configurations. -/
def view (chain : List (String × StreamAnalyzer F T L P)) : List (String × Effective F P) :=
  chain.map fun x => (x.1, x.2.effective)

/-- An add of what the host keeps comes to the chain there is. -/
def Rebuilt (s : State F T L P) : Prop :=
  ∃ chain : List (String × StreamAnalyzer F T L P),
    buildChain nat s.ctx.analyzerConfigs = .ok chain ∧ view chain = view s.chain

/-! ## Entries and configurations -/

/-- The name of an entry. -/
def nameOf (e : List (String × Json)) : String :=
  match (Json.obj e).find "name" with
  | some (.str name) => name
  | _ => ""

def configOf (e : List (String × Json)) : Json := ((Json.obj e).find "config").getD (.obj [])

/-- What an analyzer of a name is. -/
def kindOf (name : String) : Option (Analyzer ⊕ String) :=
  if "plugin:".toList.isPrefixOf name.toList then some (.inr (String.ofList (name.toList.drop 7)))
  else
    let all : List Analyzer := [.lineCross, .zone, .dwell, .speed, .direction, .countThreshold, .poseAngle]
    (all.find? (·.name = name)).map .inl

/-- What a configuration comes to in an analyzer of a name, where it is accepted. -/
def effectiveFor (name : String) (config : Json) : Option (Effective F P) :=
  (textOf nat config).bind fun json => (kindOf name).bind fun kind => effectiveOf nat kind json

/-- The latest configuration by name. -/
def latest (calls : List Call) : String → Option Json :=
  calls.foldl (fun f call => Function.update f call.name (some call.config)) fun _ => none

/-- What the host has heard of. -/
def heard (calls : List Call) : List Call := calls.filter (·.inTime)

/-- When a replay comes to the same chain. -/
structure Kept (entries : List (List (String × Json))) (calls : List Call) : Prop where
  /-- no configuration needs keypoints the model does not have -/
  fits : ∀ e ∈ entries, ∀ config ∈ latest (heard calls) (nameOf e), ∀ c ∈ effectiveFor nat (nameOf e) config,
    c.minKeypoints ≤ nat.keypoints
  /-- the host has heard of the latest one of a name, or of one to the same effect -/
  last : ∀ before e after, entries = before ++ e :: after → nameOf e ∉ after.map nameOf →
    effectiveFor nat (nameOf e) ((latest (heard calls) (nameOf e)).getD (configOf e)) =
      effectiveFor nat (nameOf e) ((latest calls (nameOf e)).getD (configOf e))
  /-- an analyzer whose name comes again has been added with the one the host has heard of, or to the same effect -/
  others : ∀ before e after, entries = before ++ e :: after → nameOf e ∈ after.map nameOf →
    effectiveFor nat (nameOf e) ((latest (heard calls) (nameOf e)).getD (configOf e)) =
      effectiveFor nat (nameOf e) (configOf e)

/-! ## What an add makes of an entry -/

section

variable {nat} {name : String} {config : Json} {a : StreamAnalyzer F T L P} {x : String × StreamAnalyzer F T L P}

/-- What is made by a name is of the kind of the name. -/
theorem make_kindOf (h : makeStreamAnalyzer nat name = .ok a) : kindOf name = some a.kind := by
  unfold makeStreamAnalyzer at h
  split at h
  · cases h
  next hpath =>
    unfold kindOf
    split at h
    next hplugin =>
      rw [if_pos hplugin]
      dsimp only at h
      split at h
      · cases h
        rfl
      · cases h
    next hplugin =>
      rw [if_neg hplugin]
      unfold createAnalyzer at h
      dsimp only at h ⊢
      split at h
      next b hb =>
        cases h
        rw [hb]
        rfl
      next => cases h

/-- An add can make an analyzer of the name. -/
def Makes (nat : Native F P) (T L : Type) (name : String) : Prop :=
  ∃ a : StreamAnalyzer F T L P, makeStreamAnalyzer nat name = .ok a ∧ ¬ (nat.trackEnabled = false ∧ a.needsTracks = true)

/-- An add of a name and a configuration. -/
theorem addEntry_entry : addEntry nat (entry (.str name) config) = .ok x ↔
    x.1 = name ∧ ∃ json, textOf nat config = some json ∧ addAnalyzer nat name json = .ok x.2 := by
  have hname : (entry (.str name) config).find "name" = some (.str name) := rfl
  have htext : configText nat (entry (.str name) config) "analyzer config must be an object" =
      match textOf nat config with
      | some json => .ok json
      | none => .error (utf8 "analyzer config must be an object") := by
    have hconfig : (entry (.str name) config).find "config" = some config := rfl
    unfold configText
    rw [hconfig]
    cases config <;> rfl
  unfold addEntry
  have hobject : (entry (.str name) config).isObject ≠ false := Bool.noConfusion
  rw [if_neg hobject, hname]
  dsimp only
  rw [htext]
  cases textOf nat config with
  | none => simp
  | some json =>
    obtain ⟨n, a⟩ := x
    simp only [Checked.bind_ok, Option.some.injEq, exists_eq_left', Checked.ok.injEq, Prod.mk.injEq]
    constructor
    · intro ⟨b, hb, hn, ha⟩
      exact ⟨hn.symm, ha ▸ hb⟩
    · intro ⟨hn, ha⟩
      exact ⟨a, ha, hn.symm, rfl⟩

/-- **What an add makes of an entry** is up to its name and its configuration. -/
theorem addEntry_effective (hx : addEntry nat (entry (.str name) config) = .ok x) : x.1 = name ∧ Makes nat T L name ∧
    kindOf name = some x.2.kind ∧ effectiveFor nat name config = some x.2.effective ∧
      x.2.effective.minKeypoints ≤ nat.keypoints := by
  obtain ⟨hname, json, htext, hadd⟩ := addEntry_entry.mp hx
  obtain ⟨a, hmake, htracks, ⟨err, hcfg⟩, hfits⟩ := addAnalyzer_ok.mp hadd
  obtain ⟨hkind, heff⟩ := configure_returned hcfg
  have hkindOf := make_kindOf hmake
  refine ⟨hname, ⟨a, hmake, htracks⟩, hkind ▸ hkindOf, ?_, minKeypoints_effective ▸ hfits⟩
  rw [effectiveFor, htext, Option.bind_some, hkindOf, Option.bind_some, heff]

/-- An add takes an entry whose configuration is one to the name's kind. -/
theorem addEntry_accepts (hmakes : Makes nat T L name) {c : Effective F P} (hc : effectiveFor nat name config = some c)
    (hfits : c.minKeypoints ≤ nat.keypoints) :
    ∃ x : String × StreamAnalyzer F T L P, addEntry nat (entry (.str name) config) = .ok x := by
  obtain ⟨a, hmake, htracks⟩ := hmakes
  obtain ⟨json, htext, hc⟩ := Option.bind_eq_some_iff.mp hc
  obtain ⟨kind, hkind, heff⟩ := Option.bind_eq_some_iff.mp hc
  rw [make_kindOf hmake] at hkind
  cases hkind
  obtain ⟨err, a', hcfg⟩ := configure_accepts.mpr ⟨c, heff⟩
  have hc' := (configure_returned hcfg).2
  rw [heff] at hc'
  cases hc'
  rw [minKeypoints_effective] at hfits
  exact ⟨(name, a'), addEntry_entry.mpr ⟨rfl, json, htext, addAnalyzer_ok.mpr ⟨a, hmake, htracks, ⟨err, hcfg⟩, hfits⟩⟩⟩

end

/-! ## Calls -/

section

variable {nat} {entries : List (List (String × Json))} {chain : List (String × StreamAnalyzer F T L P)}
  {f g : String → Option Json} {s t : State F T L P} {call : Call} {calls : List Call}

/-- The view of a chain, each configuration one that has been accepted. -/
def seen (chain : List (String × StreamAnalyzer F T L P)) : List (String × Option (Effective F P)) :=
  chain.map fun x => (x.1, some x.2.effective)

/-- The entries as they are added. -/
def added (nat : Native F P) (entries : List (List (String × Json))) : List (String × Option (Effective F P)) :=
  entries.map fun e => (nameOf e, effectiveFor nat (nameOf e) (configOf e))

/-- What each name is configured to. -/
def effect (nat : Native F P) (f : String → Option Json) (name : String) : Option (Option (Effective F P)) :=
  (f name).map (effectiveFor nat name)

/-- **How the two sides stand to each other**, with the latest configurations
that the native runtime has applied and that the host has kept. -/
structure Follows (nat : Native F P) (entries : List (List (String × Json))) (f g : String → Option Json)
    (s : State F T L P) : Prop where
  kinds : ∀ x ∈ s.chain, kindOf x.1 = some x.2.kind
  native : seen s.chain = settle (effect nat f) (added nat entries)
  base : s.ctx.base = entries
  host : ∀ name, s.ctx.analyzers.lookup name = g name
  /-- what is kept has been accepted, by an analyzer of the stream -/
  kept : ∀ name config, g name = some config →
    name ∈ entries.map nameOf ∧ ∃ c, effectiveFor nat name config = some c

theorem Follows.names (hi : Follows nat entries f g s) : s.chain.map (·.1) = entries.map nameOf := by
  have hkeys := congrArg (List.map (·.1)) hi.native
  rw [keys_settle] at hkeys
  simpa [seen, added, Function.comp_def] using hkeys

theorem effect_update {name : String} {config : Json} : effect nat (Function.update f name (some config)) =
    Function.update (effect nat f) name (some (effectiveFor nat name config)) := by
  funext n
  by_cases hn : n = name
  · subst hn
    simp [effect]
  · simp [effect, hn]

theorem lookup_setMember {n name : String} {config : Json} {kvs : List (String × Json)} :
    (Json.setMember name config kvs).lookup n = if n = name then some config else kvs.lookup n := by
  induction kvs with
  | nil =>
    by_cases hn : n = name
    · simp [Json.setMember, hn]
    · simp [Json.setMember, List.lookup_cons, beq_false_of_ne hn, hn]
  | cons kv kvs ih =>
    obtain ⟨k, v⟩ := kv
    by_cases hk : k = name
    · subst hk
      by_cases hn : n = k
      · simp [Json.setMember, hn]
      · simp [Json.setMember, List.lookup_cons, beq_false_of_ne hn, hn]
    · by_cases hn : n = k
      · subst hn
        simp [Json.setMember, hk]
      · simp only [Json.setMember, if_neg hk, List.lookup_cons, beq_false_of_ne hn, ih]

/-- **What a call preserves.** -/
theorem follows_step (hi : Follows nat entries f g s) (hs : step nat s call = some t) :
    Follows nat entries (Function.update f call.name (some call.config))
      (if call.inTime = true then Function.update g call.name (some call.config) else g) t := by
  unfold step at hs
  split at hs
  · cases hs
  next json htext =>
    split at hs
    next err chain' hcfg =>
      cases hs
      obtain ⟨before, a, a', after, hchain, hafter, rfl, hret⟩ := configureNamed_returned hcfg
      obtain ⟨hkind, heff⟩ := configure_returned hret
      have hmem : (call.name, a) ∈ s.chain := by simp [hchain]
      have hkindOf : kindOf call.name = some a.kind := hi.kinds _ hmem
      have hcall : effectiveFor nat call.name call.config = some a'.effective := by
        rw [effectiveFor, htext, Option.bind_some, hkindOf, Option.bind_some, heff]
      have hname : call.name ∈ entries.map nameOf := hi.names ▸ List.mem_map_of_mem hmem
      refine ⟨fun x hx => ?_, ?_, ?_, fun name => ?_, fun name config hg => ?_⟩
      · obtain hx | hx := List.mem_append.mp hx
        · exact hi.kinds x (by simp [hchain, hx])
        · obtain rfl | hx := List.mem_cons.mp hx
          · exact hkind ▸ hkindOf
          · exact hi.kinds x (by simp [hchain, hx])
      · have hlast : seen (before ++ (call.name, a') :: after) = setLast call.name (some a'.effective) (seen s.chain) := by
          rw [hchain, seen, seen, List.map_append, List.map_append, List.map_cons, List.map_cons]
          refine (setLast_append fun hin => ?_).symm
          obtain ⟨y, hy, he⟩ := List.mem_map.mp hin
          obtain ⟨x, hx, rfl⟩ := List.mem_map.mp hy
          exact hafter x hx he
        have hkey : call.name ∈ (added nat entries).map (·.1) := by
          simpa [added, Function.comp_def] using hname
        rw [hlast, hi.native, setLast_settle hkey, effect_update, hcall]
      · dsimp only
        split <;> exact hi.base
      · dsimp only
        by_cases htime : call.inTime = true
        · rw [if_pos htime, if_pos htime, lookup_setMember]
          by_cases hn : name = call.name
          · rw [if_pos hn, hn, Function.update_self]
          · rw [if_neg hn, Function.update_of_ne hn, hi.host]
        · rw [if_neg htime, if_neg htime, hi.host]
      · by_cases htime : call.inTime = true
        · rw [if_pos htime] at hg
          by_cases hn : name = call.name
          · subst hn
            rw [Function.update_self, Option.some.injEq] at hg
            exact ⟨hname, _, hg ▸ hcall⟩
          · rw [Function.update_of_ne hn] at hg
            exact hi.kept name config hg
        · rw [if_neg htime] at hg
          exact hi.kept name config hg
    next => cases hs

/-- What a run of calls preserves. -/
theorem follows_run (hi : Follows nat entries f g s) (hr : run (step nat) s calls = some t) :
    Follows nat entries (calls.foldl (fun f call => Function.update f call.name (some call.config)) f)
      ((heard calls).foldl (fun f call => Function.update f call.name (some call.config)) g) t := by
  induction calls generalizing f g s with
  | nil =>
    cases hr
    exact hi
  | cons call calls ih =>
    obtain ⟨u, hs, hr⟩ := run_cons.mp hr
    have hu := ih (follows_step hi hs) hr
    rw [List.foldl_cons, heard, List.filter_cons]
    by_cases htime : call.inTime = true
    · rw [if_pos htime] at hu ⊢
      exact hu
    · rw [if_neg htime] at hu ⊢
      exact hu

/-! ## Replays -/

/-- An add takes the entries one by one. -/
theorem buildChain_iff {js : List Json} : (∃ chain : List (String × StreamAnalyzer F T L P), buildChain nat js = .ok chain) ↔
    ∀ j ∈ js, ∃ x : String × StreamAnalyzer F T L P, addEntry nat j = .ok x :=
  Checked.forEach_accepts fun _ _ => Iff.rfl

theorem addEntry_named {name config : Json} {x : String × StreamAnalyzer F T L P}
    (hx : addEntry nat (entry name config) = .ok x) : ∃ n, name = .str n := by
  have hobject : (entry name config).isObject ≠ false := Bool.noConfusion
  have hname : (entry name config).find "name" = some name := rfl
  unfold addEntry at hx
  rw [if_neg hobject, hname] at hx
  cases name with
  | str n => exact ⟨n, rfl⟩
  | _ => cases hx

/-- Every entry of an add that is taken has a name. -/
theorem base_named (hadd : buildChain nat (StreamContext.mk entries []).analyzerConfigs = .ok chain) :
    ∀ e ∈ entries, (Json.obj e).find "name" = some (.str (nameOf e)) := by
  intro e he
  have hmem : entry (((Json.obj e).find "name").getD .null) (configOf e) ∈ (StreamContext.mk entries []).analyzerConfigs := by
    refine List.mem_append_left _ (List.mem_map.mpr ⟨e, he, ?_⟩)
    cases (Json.obj e).find "name" with
    | none => rfl
    | some name => cases name <;> rfl
  obtain ⟨x, hx⟩ := buildChain_iff.mp ⟨chain, hadd⟩ _ hmem
  obtain ⟨n, hn⟩ := addEntry_named hx
  have hfind : (Json.obj e).find "name" = some (.str n) := by
    cases hname : (Json.obj e).find "name" with
    | none =>
      rw [hname] at hn
      cases hn
    | some name =>
      rw [hname] at hn
      cases hn
      rfl
  rw [hfind, nameOf, hfind]

/-- What is sent for the entries where every name of a configuration is one of theirs. -/
theorem analyzerConfigs_eq {ctx : StreamContext}
    (hnamed : ∀ e ∈ ctx.base, (Json.obj e).find "name" = some (.str (nameOf e)))
    (hkept : ∀ x ∈ ctx.analyzers, x.1 ∈ ctx.base.map nameOf) :
    ctx.analyzerConfigs =
      ctx.base.map fun e => entry (.str (nameOf e)) ((ctx.analyzers.lookup (nameOf e)).getD (configOf e)) := by
  unfold StreamContext.analyzerConfigs
  dsimp only
  have hrest : ctx.analyzers.filter (fun x => x.1 ∉ ctx.base.filterMap fun e => match (Json.obj e).find "name" with
      | some (.str name) => if (ctx.analyzers.lookup name).isSome then some name else none
      | _ => none) = [] := by
    rw [List.filter_eq_nil_iff]
    intro x hx
    obtain ⟨e, he, hname⟩ := List.mem_map.mp (hkept x hx)
    have hlookup : (ctx.analyzers.lookup x.1).isSome = true := by
      rw [List.lookup_isSome_iff]
      exact ⟨x, hx, by simp⟩
    simp only [decide_eq_true_eq, not_not, List.mem_filterMap]
    refine ⟨e, he, ?_⟩
    rw [hnamed e he, hname]
    exact if_pos hlookup
  rw [hrest, List.map_nil, List.append_nil]
  refine List.map_congr_left fun e he => ?_
  rw [hnamed e he, Option.getD_some, StreamContext.held]
  cases ctx.analyzers.lookup (nameOf e) <;> rfl

/-- The chain that an add of the entries comes to, with a configuration for each. -/
theorem buildChain_seen {config : List (String × Json) → Json}
    (hb : buildChain nat (entries.map fun e => entry (.str (nameOf e)) (config e)) = .ok chain) :
    seen chain = entries.map (fun e => (nameOf e, effectiveFor nat (nameOf e) (config e))) ∧
      (∀ x ∈ chain, kindOf x.1 = some x.2.kind) ∧
      ∀ e ∈ entries, Makes nat T L (nameOf e) ∧
        ∃ c, effectiveFor nat (nameOf e) (config e) = some c ∧ c.minKeypoints ≤ nat.keypoints := by
  obtain ⟨cs, hcs, hall⟩ := Checked.forEach_ok.mp hb
  rw [List.nil_append] at hcs
  subst hcs
  clear hb
  induction entries generalizing chain with
  | nil =>
    cases hall
    exact ⟨rfl, fun x hx => absurd hx List.not_mem_nil, fun e he => absurd he List.not_mem_nil⟩
  | cons e entries ih =>
    rw [List.map_cons, List.forall₂_cons_left_iff] at hall
    obtain ⟨x, rest, hx, hrest, rfl⟩ := hall
    obtain ⟨hname, hmakes, hkind, heff, hfits⟩ := addEntry_effective hx
    obtain ⟨hseen, hkinds, hgood⟩ := ih hrest
    refine ⟨?_, ?_, ?_⟩
    · rw [List.map_cons, ← hseen, heff, ← hname]
      rfl
    · rw [List.forall_mem_cons]
      exact ⟨hname ▸ hkind, hkinds⟩
    · rw [List.forall_mem_cons]
      exact ⟨⟨hmakes, _, heff, hfits⟩, hgood⟩

theorem buildChain_accepts {config : List (String × Json) → Json}
    (hgood : ∀ e ∈ entries, Makes nat T L (nameOf e) ∧
      ∃ c, effectiveFor nat (nameOf e) (config e) = some c ∧ c.minKeypoints ≤ nat.keypoints) :
    ∃ chain : List (String × StreamAnalyzer F T L P),
      buildChain nat (entries.map fun e => entry (.str (nameOf e)) (config e)) = .ok chain := by
  rw [buildChain_iff, List.forall_mem_map]
  intro e he
  obtain ⟨hmakes, c, hc, hfits⟩ := hgood e he
  exact addEntry_accepts hmakes hc hfits

theorem view_eq_iff {chain' : List (String × StreamAnalyzer F T L P)} : view chain = view chain' ↔ seen chain = seen chain' := by
  have hseen : ∀ chain : List (String × StreamAnalyzer F T L P),
      seen chain = (view chain).map (Prod.map id some) := by
    intro chain
    simp [seen, view, Function.comp_def]
  have hinj : Function.Injective (Prod.map (id : String → String) (some : Effective F P → _)) :=
    Function.injective_id.prodMap (Option.some_injective _)
  rw [hseen, hseen, (List.map_injective_iff.mpr hinj).eq_iff]

/-- The entries by what each is configured to, with the values by name and by last entry. -/
theorem added_settle_iff : entries.map (fun e => (nameOf e, effectiveFor nat (nameOf e) ((g (nameOf e)).getD (configOf e)))) =
      settle (effect nat f) (added nat entries) ↔
    ∀ before e after, entries = before ++ e :: after →
      effectiveFor nat (nameOf e) ((g (nameOf e)).getD (configOf e)) =
        if nameOf e ∈ after.map nameOf then effectiveFor nat (nameOf e) (configOf e)
        else effectiveFor nat (nameOf e) ((f (nameOf e)).getD (configOf e)) := by
  have hget : ∀ (f : String → Option Json) e, (effect nat f (nameOf e)).getD (effectiveFor nat (nameOf e) (configOf e)) =
      effectiveFor nat (nameOf e) ((f (nameOf e)).getD (configOf e)) := by
    intro f e
    rw [effect]
    cases f (nameOf e) <;> rfl
  have hmap : entries.map (fun e => (nameOf e, effectiveFor nat (nameOf e) ((g (nameOf e)).getD (configOf e)))) =
      (added nat entries).map fun x => (x.1, (effect nat g x.1).getD x.2) := by
    rw [added, List.map_map]
    exact List.map_congr_left fun e _ => by rw [← hget]; rfl
  rw [hmap, settle_eq_iff]
  constructor
  · intro h before e after he
    have hsplit : added nat entries = added nat before ++ (nameOf e, effectiveFor nat (nameOf e) (configOf e)) :: added nat after := by
      rw [he]
      simp [added]
    have hx := h _ _ _ hsplit
    rw [hget, hget] at hx
    simpa [added, Function.comp_def] using hx
  · intro h before x after he
    obtain ⟨before, rest, rfl, rfl, hrest⟩ := List.map_eq_append_iff.mp he
    obtain ⟨e, after, rfl, rfl, rfl⟩ := List.map_eq_cons_iff.mp hrest
    have hx := h before e after rfl
    rw [hget, hget, hx]
    simp [Function.comp_def]

/-- **A replay comes to the chain there was** exactly where the host's model of
the calls is what the native runtime has made of them. -/
theorem rebuilt_iff (hadd : buildChain nat (StreamContext.mk entries []).analyzerConfigs = .ok chain)
    (hr : run (step nat) (start entries chain) calls = some t) : Rebuilt nat t ↔ Kept nat entries calls := by
  have hnamed := base_named hadd
  have hadd' : buildChain nat (entries.map fun e => entry (.str (nameOf e)) (configOf e)) = .ok chain := by
    rw [analyzerConfigs_eq hnamed (fun x hx => absurd hx List.not_mem_nil)] at hadd
    exact hadd
  obtain ⟨hseen, hkinds, hgood⟩ := buildChain_seen hadd'
  have hstart : Follows nat entries (fun _ => none) (fun _ => none) (start entries chain) :=
    ⟨hkinds, hseen.trans settle_none.symm, rfl, fun _ => rfl, fun name config h => by cases h⟩
  have hi : Follows nat entries (latest calls) (latest (heard calls)) t := follows_run hstart hr
  have hlookup : ∀ name, t.ctx.analyzers.lookup name = latest (heard calls) name := hi.host
  have hconfigs : t.ctx.analyzerConfigs =
      entries.map fun e => entry (.str (nameOf e)) ((latest (heard calls) (nameOf e)).getD (configOf e)) := by
    rw [analyzerConfigs_eq (hi.base ▸ hnamed) fun x hx => ?_, hi.base]
    · exact List.map_congr_left fun e _ => by rw [hlookup]
    · obtain ⟨config, hconfig⟩ : ∃ config, t.ctx.analyzers.lookup x.1 = some config := by
        rw [← Option.isSome_iff_exists, List.lookup_isSome_iff]
        exact ⟨x, hx, by simp⟩
      rw [hi.base]
      exact (hi.kept x.1 config (hlookup x.1 ▸ hconfig)).1
  constructor
  · intro ⟨rebuilt, hb, hview⟩
    rw [hconfigs] at hb
    obtain ⟨hrebuilt, -, hfits⟩ := buildChain_seen hb
    rw [view_eq_iff, hrebuilt, hi.native, added_settle_iff] at hview
    refine ⟨fun e he config hconfig c hc => ?_, fun before e after he hlast => ?_, fun before e after he hmore => ?_⟩
    · obtain ⟨-, c', hc', hle⟩ := hfits e he
      rw [hconfig, Option.getD_some, hc] at hc'
      cases hc'
      exact hle
    · have hx := hview before e after he
      rwa [if_neg hlast] at hx
    · have hx := hview before e after he
      rwa [if_pos hmore] at hx
  · intro hk
    have hall : ∀ e ∈ entries, Makes nat T L (nameOf e) ∧ ∃ c,
        effectiveFor nat (nameOf e) ((latest (heard calls) (nameOf e)).getD (configOf e)) = some c ∧
          c.minKeypoints ≤ nat.keypoints := by
      intro e he
      obtain ⟨hmakes, hbase⟩ := hgood e he
      refine ⟨hmakes, ?_⟩
      cases hconfig : latest (heard calls) (nameOf e) with
      | none => exact hbase
      | some config =>
        obtain ⟨-, c, hc⟩ := hi.kept (nameOf e) config hconfig
        exact ⟨c, hc, hk.fits e he config hconfig c hc⟩
    obtain ⟨rebuilt, hb⟩ := buildChain_accepts hall
    refine ⟨rebuilt, hconfigs ▸ hb, ?_⟩
    rw [view_eq_iff, (buildChain_seen hb).1, hi.native, added_settle_iff]
    intro before e after he
    by_cases hmore : nameOf e ∈ after.map nameOf
    · rw [if_pos hmore]
      exact hk.others before e after he hmore
    · rw [if_neg hmore]
      exact hk.last before e after he hmore

end

def longer : Json := .obj [("hold_s", .int 2)]

def longerText : Bytes := utf8 "\x7b\"hold_s\":2\x7d"

/-- A runtime with no plugins, as far as a configuration of two seconds and an empty one go. -/
def posing : Native Rat Unit :=
  { NativeControls.bare with
    lib := { parse := fun text => .ok (if text = longerText then longer else .obj []), dumpError := fun _ => "" }
    dump := fun j => if (j.find "hold_s").isSome then longerText else utf8 "\x7b\x7d" }

def poseAngle : List (String × Json) := [("name", .str "pose_angle")]

/-- A call that the host hears of, on a stream with one pose_angle. -/
theorem rebuilt_one : ∃ (chain : List (String × StreamAnalyzer Rat Unit Unit Unit)) (t : State Rat Unit Unit Unit),
    buildChain posing (StreamContext.mk [poseAngle] []).analyzerConfigs = .ok chain ∧
      run (step posing) (start [poseAngle] chain) [⟨"pose_angle", longer, true⟩] = some t ∧
      (Rebuilt posing t ↔ Kept posing [poseAngle] [⟨"pose_angle", longer, true⟩]) := by
  have hrun : ∃ (chain : List (String × StreamAnalyzer Rat Unit Unit Unit)) (t : State Rat Unit Unit Unit),
      buildChain posing (StreamContext.mk [poseAngle] []).analyzerConfigs = .ok chain ∧
        run (step posing) (start [poseAngle] chain) [⟨"pose_angle", longer, true⟩] = some t := ⟨_, _, rfl, rfl⟩
  obtain ⟨chain, t, hadd, ht⟩ := hrun
  exact ⟨chain, t, hadd, ht, rebuilt_iff hadd ht⟩

/-- How long a pose_angle is to hold. -/
def holdOf : String × Effective Rat Unit → Option F64
  | (_, .builtin .poseAngle (c : PoseAngleCfg)) => some c.holdS
  | _ => none

/-- Two pose_angle: the second one is configured, and both are replayed so. -/
theorem replayed_twice : ¬ ∀ entries calls (chain : List (String × StreamAnalyzer Rat Unit Unit Unit)) t,
    buildChain posing (StreamContext.mk entries []).analyzerConfigs = .ok chain →
      run (step posing) (start entries chain) calls = some t → Rebuilt posing t := by
  intro hall
  have hrun : ∃ (chain rebuilt : List (String × StreamAnalyzer Rat Unit Unit Unit)) (t : State Rat Unit Unit Unit),
      buildChain posing (StreamContext.mk [poseAngle, poseAngle] []).analyzerConfigs = .ok chain ∧
        run (step posing) (start [poseAngle, poseAngle] chain) [⟨"pose_angle", longer, true⟩] = some t ∧
        buildChain posing t.ctx.analyzerConfigs = .ok rebuilt ∧
        (view t.chain).map holdOf = [some (.fin (1 / 2)), some (.fin 2)] ∧
        (view rebuilt).map holdOf = [some (.fin 2), some (.fin 2)] := ⟨_, _, _, rfl, rfl, rfl, rfl, rfl⟩
  obtain ⟨chain, rebuilt, t, hadd, ht, hb, hheld, hreplayed⟩ := hrun
  obtain ⟨rebuilt', hb', hview⟩ := hall _ _ chain t hadd ht
  rw [hb] at hb'
  cases hb'
  rw [hview, hheld] at hreplayed
  exact absurd hreplayed (by decide +kernel)

end RetailVision.AnalyzerReplay
