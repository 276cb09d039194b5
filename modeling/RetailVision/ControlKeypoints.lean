/-
No stream carries an analyzer that needs more keypoints than the backend has:
an add sees to it (`buildChain_fits`), but a configure does not look, whether a
context thread applies it or the control thread. So a pose_angle comes to need
too many exactly by a configuration it accepts with a joint beyond the
backend's keypoints (`configureNamed_fits_iff`); in a run without one no stream
ever does (`keypoints_fit`).
-/
import RetailVision.ControlConfigures

set_option linter.all false

namespace RetailVision.NativeControls

open Lib Analyzers NativeAnalyzers

variable {F T L P : Type} {nat : Native F P} {s t : State F (StreamAnalyzer F T L P)} {a : Action} {as : List Action}
  {h n : Nat} {name : String} {json : Bytes} {chain : List (String × StreamAnalyzer F T L P)}

/-- Every analyzer of a chain has the keypoints it needs, and is a pose_angle
where its name says so. -/
structure ChainOk (nat : Native F P) (chain : List (String × StreamAnalyzer F T L P)) : Prop where
  fits : ∀ x ∈ chain, x.2.minKeypoints ≤ nat.keypoints
  named : ∀ x ∈ chain, x.2.kind = .inl .poseAngle ↔ x.1 = "pose_angle"

theorem ChainOk.nil : ChainOk nat ([] : List (String × StreamAnalyzer F T L P)) :=
  ⟨fun _ hx => absurd hx List.not_mem_nil, fun _ hx => absurd hx List.not_mem_nil⟩

/-- The joints of a configuration that pose_angle accepts are within the
backend's keypoints. -/
def JointsFit (nat : Native F P) (json : Bytes) : Prop :=
  ∀ j c, nat.lib.parse json = .ok j → poseAngleCfg nat.ar j = .ok c →
    ∀ jt ∈ c.joints, jt.a < nat.keypoints ∧ jt.b < nat.keypoints ∧ jt.c < nat.keypoints

/-- A configuration that is applied to a pose_angle, by a context thread or by
the control thread, has its joints within the backend's keypoints. -/
def WithinKeypoints (nat : Native F P) (s : State F (StreamAnalyzer F T L P)) : Action → Prop
  | .applyPending c => ∀ h p, s.contexts c = .entered h → (s.heap h).pendingCfg = some p → p.done = false →
      (∃ x ∈ (s.heap h).analyzers, x.1 = p.name) → p.name = "pose_angle" → JointsFit nat p.json
  | .applyDirect => ∀ h n req name json, s.control = .direct h n req name json → (s.heap h).holder = none →
      (∃ x ∈ (s.heap h).analyzers, x.1 = name) → name = "pose_angle" → JointsFit nat json
  | _ => True

/-! ## Chains -/

theorem maxIdx_lt (k : Nat) (joints : List Joint) (m : Int) (hm : m < k) :
    joints.foldl (fun m jt => max (max m jt.a) (max jt.b jt.c)) m < k ↔
      ∀ jt ∈ joints, jt.a < k ∧ jt.b < k ∧ jt.c < k := by
  induction joints generalizing m with
  | nil => simpa using hm
  | cons jt joints ih =>
    rw [List.foldl_cons, List.forall_mem_cons]
    by_cases hjt : jt.a < k ∧ jt.b < k ∧ jt.c < k
    · rw [ih _ (by omega), and_iff_right hjt]
    · refine iff_of_false (fun hlt => ?_) fun h => hjt h.1
      have hle : ∀ (js : List Joint) (m : Int), m ≤ js.foldl (fun m jt => max (max m jt.a) (max jt.b jt.c)) m := by
        intro js
        induction js with
        | nil => exact fun m => le_refl m
        | cons jt js ih =>
          intro m
          have hm : m ≤ max (max m jt.a) (max jt.b jt.c) := by omega
          exact le_trans hm (ih _)
      have := hle joints (max (max m jt.a) (max jt.b jt.c))
      omega

/-- What pose_angle makes of a configuration needs no more than the backend has
exactly if its joints fit. -/
theorem poseAngle_fits {j : Json} {c : PoseAngleCfg} (hc : poseAngleCfg nat.ar j = .ok c) :
    (Effective.builtin .poseAngle c : Effective F P).minKeypoints ≤ nat.keypoints ↔
      ∀ jt ∈ c.joints, jt.a < nat.keypoints ∧ jt.b < nat.keypoints ∧ jt.c < nat.keypoints := by
  have hmax : c.maxIdx = c.joints.foldl (fun m jt => max (max m jt.a) (max jt.b jt.c)) (-1) := by
    simp only [poseAngleCfg, Checked.bind_ok] at hc
    obtain ⟨_, -, _, -, _, -, _, -, _, -, hc⟩ := hc
    cases hc
    rfl
  rw [← maxIdx_lt nat.keypoints c.joints (-1) (by omega), ← hmax, Effective.minKeypoints]
  split <;> omega

theorem effectiveOf_fits {e : Effective F P} (he : effectiveOf nat (.inl .poseAngle) json = some e) :
    e.minKeypoints ≤ nat.keypoints ↔ JointsFit nat json := by
  unfold effectiveOf at he
  cases hp : nat.lib.parse json with
  | error what =>
    rw [hp] at he
    cases he
  | ok j =>
    rw [hp] at he
    dsimp only at he
    cases hc : poseAngleCfg nat.ar j with
    | ok c =>
      have hcfg : Analyzer.parseCfg nat.ar .poseAngle j = .ok c := hc
      rw [hcfg] at he
      cases he
      rw [poseAngle_fits hc, JointsFit]
      constructor
      · intro h j' c' hj' hc'
        rw [hp] at hj'
        cases hj'
        rw [hc] at hc'
        cases hc'
        exact h
      · exact fun h => h j c hp hc
    | refused err =>
      have hcfg : Analyzer.parseCfg nat.ar .poseAngle j = .refused err := hc
      rw [hcfg] at he
      cases he
    | threw what =>
      have hcfg : Analyzer.parseCfg nat.ar .poseAngle j = .threw what := hc
      rw [hcfg] at he
      cases he

/-- Where pose_angle does not accept a configuration, its joints do not matter. -/
theorem jointsFit_of_none (he : effectiveOf nat (.inl .poseAngle) json = none) : JointsFit nat json := by
  intro j c hj hc
  simp only [effectiveOf, hj] at he
  have hcfg : Analyzer.parseCfg nat.ar .poseAngle j = .ok c := hc
  rw [hcfg] at he
  cases he

/-- Only a pose_angle needs keypoints. -/
theorem minKeypoints_other {x : StreamAnalyzer F T L P} (hk : x.kind ≠ .inl .poseAngle) : x.minKeypoints = 0 := by
  cases x with
  | builtin a s =>
    cases a with
    | poseAngle => exact absurd rfl hk
    | _ => rfl
  | plugin id self => rfl

/-- **A configure leaves the chain within the keypoints** exactly if what it
configures is no pose_angle, or its joints fit. -/
theorem configureNamed_fits_iff {r : Configured (List (String × StreamAnalyzer F T L P))} (hc : ChainOk nat chain)
    (hr : configureNamed (NativeAnalyzers.configure nat · json) name chain = some r) :
    ChainOk nat (after chain r) ↔ (name = "pose_angle" → JointsFit nat json) := by
  obtain ⟨before, x, rest, rfl, -, rfl⟩ := configureNamed_some hr
  have hx : (name, x) ∈ before ++ (name, x) :: rest := by simp
  have hkind := hc.named _ hx
  have hreplace : ∀ y : StreamAnalyzer F T L P, y.kind = x.kind →
      (ChainOk nat (before ++ (name, y) :: rest) ↔ y.minKeypoints ≤ nat.keypoints) := by
    intro y hy
    constructor
    · exact fun h => h.fits (name, y) (by simp)
    · intro hfits
      refine ⟨fun z hz => ?_, fun z hz => ?_⟩
      · obtain hz | hz := List.mem_append.mp hz
        · exact hc.fits z (List.mem_append_left _ hz)
        · obtain rfl | hz := List.mem_cons.mp hz
          · exact hfits
          · exact hc.fits z (List.mem_append_right _ (List.mem_cons_of_mem _ hz))
      · obtain hz | hz := List.mem_append.mp hz
        · exact hc.named z (List.mem_append_left _ hz)
        · obtain rfl | hz := List.mem_cons.mp hz
          · rw [hy]
            exact hkind
          · exact hc.named z (List.mem_append_right _ (List.mem_cons_of_mem _ hz))
  have hfit : effectiveOf nat x.kind json = none → (name = "pose_angle" → JointsFit nat json) := by
    intro hnone hpose
    rw [hkind.mpr hpose] at hnone
    exact jointsFit_of_none hnone
  cases hcfg : NativeAnalyzers.configure nat x json with
  | returned ok err y =>
    cases ok with
    | true =>
      obtain ⟨hk, he⟩ := configure_returned hcfg
      refine (hreplace y hk).trans ?_
      by_cases hpose : name = "pose_angle"
      · rw [hkind.mpr hpose] at he
        rw [← minKeypoints_effective, effectiveOf_fits he, forall_prop_of_true hpose]
      · have hy : y.kind ≠ .inl .poseAngle := by
          rw [hk]
          exact fun hp => hpose (hkind.mp hp)
        rw [minKeypoints_other hy]
        exact iff_of_true (Nat.zero_le _) fun hp => absurd hp hpose
    | false =>
      obtain rfl := configure_refused hcfg
      refine iff_of_true hc (hfit ?_)
      obtain ⟨⟨err', b, h'⟩, -⟩ | ⟨hnone, -⟩ := @configure_effective F T L P nat y json
      · rw [hcfg] at h'
        cases h'
      · exact hnone
  | threw what =>
    refine iff_of_true hc (hfit ?_)
    obtain ⟨⟨err', b, h'⟩, -⟩ | ⟨hnone, -⟩ := @configure_effective F T L P nat x json
    · rw [hcfg] at h'
      cases h'
    · exact hnone

/-! ## Runs -/

theorem addEntry_ok {entry : Json} {x : String × StreamAnalyzer F T L P} (hx : addEntry nat entry = .ok x) :
    ∃ json, addAnalyzer nat x.1 json = .ok x.2 := by
  unfold addEntry at hx
  split at hx
  · cases hx
  · split at hx
    · split at hx
      · cases hx
      · obtain ⟨a, ha, hx⟩ := Checked.bind_ok.mp hx
        cases hx
        exact ⟨_, ha⟩
    · cases hx

/-- **An add sees to it** that the chain has the keypoints it needs. -/
theorem buildChain_fits {entries : List Json} (hb : buildChain nat entries = .ok chain) : ChainOk nat chain := by
  obtain ⟨cs, hcs, hall⟩ := Checked.forEach_ok.mp hb
  rw [List.nil_append] at hcs
  subst hcs
  have hentry : ∀ x ∈ chain, ∃ json, addAnalyzer nat x.1 json = .ok x.2 := by
    intro x hx
    obtain ⟨i, hi, rfl⟩ := List.getElem_of_mem hx
    have hi' : i < entries.length := hall.length_eq ▸ hi
    exact addEntry_ok (hall.get hi' hi)
  refine ⟨fun x hx => ?_, fun x hx => ?_⟩
  · obtain ⟨json, hadd⟩ := hentry x hx
    exact (addAnalyzer_ok.mp hadd).choose_spec.2.2.2
  · obtain ⟨json, hadd⟩ := hentry x hx
    obtain ⟨a, hmake, -, ⟨err, hcfg⟩, -⟩ := addAnalyzer_ok.mp hadd
    rw [(configure_returned hcfg).1]
    exact make_kind hmake

/-- An update of a stream that leaves its chain alone. -/
theorem chain_update {k : Nat} {st : Stream F (StreamAnalyzer F T L P)} (hheap : t.heap = Function.update s.heap h st)
    (hst : st.analyzers = (s.heap h).analyzers) (hc : ChainOk nat (s.heap k).analyzers) :
    ChainOk nat (t.heap k).analyzers := by
  rw [hheap]
  by_cases hk : k = h
  · subst hk
    rw [Function.update_self, hst]
    exact hc
  · rw [Function.update_of_ne hk]
    exact hc

/-- A call leaves the chains right, if the configuration is. -/
theorem call_chain {o : Outcome} (hcall : s.call (analysis nat) h n name json = some (o, t))
    (hc : ∀ h, ChainOk nat (s.heap h).analyzers)
    (hfit : (∃ x ∈ (s.heap h).analyzers, x.1 = name) → name = "pose_angle" → JointsFit nat json) (k : Nat) :
    ChainOk nat (t.heap k).analyzers := by
  have hname : ∃ x ∈ (s.heap h).analyzers, x.1 = name := by
    by_contra hno
    rw [call_eq_none.mpr fun x hx he => hno ⟨x, hx, he⟩] at hcall
    cases hcall
  simp only [State.call, Option.map_eq_some_iff, Prod.mk.injEq] at hcall
  obtain ⟨r, hr, -, rfl⟩ := hcall
  by_cases hk : k = h
  · subst hk
    simpa [State.modify] using (configureNamed_fits_iff (hc k) hr).mpr (hfit hname)
  · simpa [State.modify, hk] using hc k

theorem chain_applyCfg (hc : ∀ h, ChainOk nat (s.heap h).analyzers)
    (hfit : ∀ p, (s.heap h).pendingCfg = some p → p.done = false → (∃ x ∈ (s.heap h).analyzers, x.1 = p.name) →
      p.name = "pose_angle" → JointsFit nat p.json) (k : Nat) :
    ChainOk nat ((applyCfg (analysis nat) s h).heap k).analyzers := by
  unfold applyCfg
  cases hp : (s.heap h).pendingCfg with
  | none => exact hc k
  | some p =>
    dsimp only
    by_cases hd : p.done = true
    · rw [if_pos hd]
      exact hc k
    · rw [if_neg hd]
      have hp' := hfit p hp (by simpa using hd)
      split
      next => exact chain_update rfl rfl (hc k)
      next hcall => exact chain_update rfl rfl (call_chain hcall hc hp' k)
      next hcall => exact call_chain hcall hc hp' k

/-- **What a step preserves**, if it meets the condition. -/
theorem chain_step (hc : ∀ h, ChainOk nat (s.heap h).analyzers) (hw : WithinKeypoints nat s a)
    (hs : Stepped (analysis nat) s a t) (hfree : a = .applyDirect → ∀ h n req name json,
      s.control = .direct h n req name json → (s.heap h).holder = none) (k : Nat) :
    ChainOk nat (t.heap k).analyzers := by
  cases hs with
  | handled hcontrol hl =>
    cases hl with
    | @added index score chain entries hop hbuild =>
      by_cases hk : k = s.next
      · simpa [State.answer, State.addStream, State.taken, hk] using buildChain_fits hbuild
      · simpa [State.answer, State.addStream, State.taken, hk] using hc k
    | threshold index h value hop hindex hvalue hfind =>
      exact chain_update rfl rfl (hc k)
    | posted index h name json hop hasks hfind =>
      exact chain_update rfl rfl (hc k)
    | _ => exact hc k
  | @scoreGivenUp _ h _ _ _ _ _ => exact chain_update rfl rfl (hc k)
  | @slotTaken _ h _ _ _ _ _ => exact chain_update rfl rfl (hc k)
  | @cfgDone _ h _ _ _ _ _ _ _ _ => exact chain_update rfl rfl (hc k)
  | @returned h n req name json ok err u hcontrol hcall =>
    exact call_chain hcall hc (hw h n req name json hcontrol (hfree rfl h n req name json hcontrol)) k
  | @threw h n req name json what u hcontrol hcall =>
    exact call_chain hcall hc (hw h n req name json hcontrol (hfree rfl h n req name json hcontrol)) k
  | @closed h _ _ _ _ _ _ => exact chain_update rfl rfl (hc k)
  | @entered c h hin => exact chain_update rfl rfl (hc k)
  | @ended c h hx => exact chain_update rfl rfl (hc k)
  | @applied c h hx =>
    obtain ⟨-, -, -, -, -, hheap⟩ := applyScore_same (s := s) (h := h)
    refine chain_applyCfg (s := applyScore s h) (fun k => ?_) (fun p hp hlive hname => ?_) k
    · rw [(hheap k).2.1]
      exact hc k
    · rw [(hheap h).2.2] at hp
      rw [(hheap h).2.1] at hname
      exact hw h p hx hp hlive hname
  | _ => exact hc k

/-- **No stream carries an analyzer that needs more keypoints than the backend
has**, in any run that applies no configuration with a joint beyond them. -/
theorem keypoints_fit
    (hm : Meets (step (analysis nat)) (WithinKeypoints nat) (start (analysis (T := T) (L := L) nat)) as)
    (hr : run (step (analysis nat)) (start (analysis nat)) as = some t) :
    ∀ h ∈ t.streams, ∀ x ∈ (t.heap h).analyzers, x.2.minKeypoints ≤ nat.keypoints := by
  have hi : ∀ h, ChainOk nat (t.heap h).analyzers := by
    refine run_invariant (I := fun s => ∀ h, ChainOk nat (State.heap s h).analyzers) ?_ hm (fun _ => .nil) hr
    intro s a t hw hc hs k
    refine chain_step hc hw (step_cases hs) ?_ k
    intro ha h n req name json hcontrol
    subst ha
    unfold step applyDirect at hs
    rw [hcontrol] at hs
    split at hs
    · cases hs
    · dsimp only at hs
      split at hs
      next hfree => exact hfree
      next => cases hs
  exact fun h _ x hx => (hi h).fits x hx

/-- A configuration in time, without joints. -/
theorem keypoints_fit_in_time : ∃ t, run (step bareAnalysis) (start bareAnalysis) frameInTime = some t ∧
    t.streams = [0] ∧ ∀ h ∈ t.streams, ∀ x ∈ (t.heap h).analyzers, x.2.minKeypoints ≤ 17 := by
  have hfit : ∀ json, JointsFit bare json := by
    intro json j c hj hc
    cases hj
    cases hc
    exact fun jt hjt => absurd hjt List.not_mem_nil
  have hall : ∀ (s : State Rat (StreamAnalyzer Rat Unit Unit Unit)) a, WithinKeypoints bare s a := by
    intro s a
    cases a with
    | applyPending c => exact fun _ p _ _ _ _ _ => hfit p.json
    | applyDirect => exact fun _ _ _ _ json _ _ _ _ => hfit json
    | _ => trivial
  have hm : Meets (step bareAnalysis) (WithinKeypoints bare) (start bareAnalysis) frameInTime :=
    meets_all hall
  have hrun : ∃ t, run (step bareAnalysis) (start bareAnalysis) frameInTime = some t ∧ t.streams = [0] := ⟨_, rfl, rfl⟩
  obtain ⟨t, ht, hstreams⟩ := hrun
  exact ⟨t, ht, hstreams, keypoints_fit hm ht⟩

/-- A joint beyond the seventeen keypoints of a model. -/
def beyond : Json :=
  .obj [("joints", .arr [.obj [("id", .str "neck"), ("a", .int 17), ("b", .int 0), ("c", .int 1), ("min_deg", .int 10)]])]

def beyondText : Bytes :=
  utf8 "\x7b\"joints\":[\x7b\"a\":17,\"b\":0,\"c\":1,\"id\":\"neck\",\"min_deg\":10\x7d]\x7d"

def seventeen : Native Rat Unit :=
  { bare with
    lib := { parse := fun text => if text = beyondText then .ok beyond else .ok (.obj []), dumpError := fun _ => "" }
    dump := fun _ => beyondText }

abbrev seventeenAnalysis : Analysis Rat (StreamAnalyzer Rat Unit Unit Unit) := analysis seventeen

/-- An add without joints, and a configure with that one. -/
def beyondRun : List Action :=
  let line := .obj [("op", .str "configure_analyzer"), ("req", .str "2"), ("stream_index", .int 0),
    ("name", .str "pose_angle"), ("config", beyond)]
  [.line addLine .opened false, .pushReply, .line line .opened false, .enterFrame 0 0, .applyPending 0, .wake false]

theorem beyond_keypoints : ¬ ∀ as t, run (step seventeenAnalysis) (start seventeenAnalysis) as = some t →
    ∀ h ∈ t.streams, ∀ x ∈ (t.heap h).analyzers, x.2.minKeypoints ≤ seventeen.keypoints := by
  intro hall
  have hrun : ∃ t x, run (step seventeenAnalysis) (start seventeenAnalysis) beyondRun = some t ∧ t.streams = [0] ∧
      (t.heap 0).analyzers = [x] ∧ x.2.minKeypoints = 18 := ⟨_, _, rfl, rfl, rfl, rfl⟩
  obtain ⟨t, x, ht, hstreams, hchain, hneeds⟩ := hrun
  have hle := hall beyondRun t ht 0 (by rw [hstreams]; exact List.mem_singleton_self 0) x
    (by rw [hchain]; exact List.mem_singleton_self x)
  rw [hneeds] at hle
  exact absurd hle (by decide)

end RetailVision.NativeControls
