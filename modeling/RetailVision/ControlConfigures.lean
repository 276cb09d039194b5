/-
`op_configure_analyzer` and the pool. A configuration is handed over in
`pending_cfg`, and the control thread that has waited for it in vain applies
it itself; but it leaves it in the slot while it does, where a context thread
finds it before, or after, and applies it too (`configured_twice`). It is
applied at most once, and the reply is what that came to, in every run where a
context thread applies a configuration only while the control thread waits for
it (`configured_once`).
-/
import RetailVision.ControlScores

set_option linter.all false

namespace RetailVision.NativeControls

open Lib Analyzers NativeAnalyzers

variable {F A : Type} {an : Analysis F A} {s t u : State F A} {a : Action} {as : List Action} {h n : Nat} {r : Reply F}
  {req name : String} {json err : Bytes} {ok : Bool}

/-- The calls of `configure` for a line. -/
def State.callsOf (s : State F A) (n : Nat) : List Call := s.calls.filter (·.line = n)

/-- The reply to what a call came to. -/
def replyOf (index : Nat) (name : String) : Outcome → Reply F
  | .returned true _ => .ok (.configured index name)
  | .returned false err => .failed err
  | .threw what => .failed (utf8 ("bad configure_analyzer: " ++ what))

/-- **A reply to a `configure_analyzer` is what its only call came to**: a call
of the analyzer and with the configuration the line asks for. With no call it
is a failure. -/
def Answered (an : Analysis F A) (s : State F A) (n : Nat) (r : Reply F) : Prop :=
  ∀ line, s.lines[n]? = some line → getStr line "op" = "configure_analyzer" →
    s.callsOf n = [] ∧ (∃ err, r = .failed err) ∨
      ∃ h name json o, AsksFor an line (s.heap h).index name json ∧ h < s.next ∧
        s.callsOf n = [⟨n, h, name, json, o⟩] ∧ r = replyOf (s.heap h).index name o

/-- A context thread applies a configuration of an analyzer the stream has only
while the control thread waits for it. -/
def Awaited (s : State F A) : Action → Prop
  | .applyPending c => ∀ h p, s.contexts c = .entered h → (s.heap h).pendingCfg = some p → p.done = false →
      (∃ x ∈ (s.heap h).analyzers, x.1 = p.name) → ∃ n req name json, s.control = .cfgWait h n req name json
  | _ => True

/-! ## The line the control thread is at -/

/-- It asks for this. -/
def Current (an : Analysis F A) (s : State F A) (h n : Nat) (name : String) (json : Bytes) : Prop :=
  h < s.next ∧ ∃ line, s.lines[n]? = some line ∧ AsksFor an line (s.heap h).index name json

/-- What is to be replied is what its only call came to. -/
def Result (s : State F A) (h n : Nat) (name : String) (json : Bytes) (ok : Bool) (err : Bytes) : Prop :=
  s.callsOf n = [] ∧ ok = false ∨ s.callsOf n = [⟨n, h, name, json, .returned ok err⟩]

/-- A line that is no `configure_analyzer`. -/
def NoConfigure (s : State F A) (n : Nat) : Prop :=
  ∀ line, s.lines[n]? = some line → getStr line "op" ≠ "configure_analyzer"

/-- The pending configuration is that of the line. -/
def Posted (s : State F A) (h n : Nat) (name : String) (json : Bytes) : Prop :=
  ∃ p, (s.heap h).pendingCfg = some p ∧ p.line = n ∧ p.name = name ∧ p.json = json ∧
    (p.done = false ∧ s.callsOf n = [] ∨ p.done = true ∧ Result s h n name json p.ok p.err)

def Configuring (an : Analysis F A) (s : State F A) : Prop :=
  match s.control with
  | .idle => True
  | .scoreWait _ n _ => NoConfigure s n
  | .inFlightWait h n _ name json | .direct h n _ name json => Current an s h n name json ∧ s.callsOf n = []
  | .cfgWait h n _ name json => Current an s h n name json ∧ Posted s h n name json
  | .closing h n _ name ok err => ∃ json, Current an s h n name json ∧ Result s h n name json ok err
  | .replying n _ r => Answered an s n r

/-- Nothing runs on after an exception in a context thread. -/
structure ConfigureInv (an : Analysis F A) (s : State F A) : Prop where
  calls : ∀ c ∈ s.calls, c.line < s.lines.length
  once : ∀ n, (s.callsOf n).length ≤ 1
  configuring : s.terminated = false → Configuring an s
  answered : ∀ r ∈ s.replies, Answered an s r.1 r.2.2

/-- A configuration that has just been posted. -/
theorem posted_post (hnone : s.callsOf n = []) : Posted (s.post h n req name json) h n name json :=
  ⟨⟨n, name, json, false, false, []⟩, by simp [State.post, State.modify], rfl, rfl, rfl, .inl ⟨rfl, hnone⟩⟩

theorem answered_of_noConfigure (hn : NoConfigure s n) : Answered an s n r :=
  fun line hline hop => absurd hop (hn line hline)

theorem Current.asks (hc : Current an s h n name json) {line : Json} (hline : s.lines[n]? = some line) :
    AsksFor an line (s.heap h).index name json := by
  obtain ⟨-, l, hl, hasks⟩ := hc
  rw [hl] at hline
  cases hline
  exact hasks

/-- The reply of a result. -/
theorem Result.answered (hr : Result s h n name json ok err) (hc : Current an s h n name json) :
    Answered an s n (if ok then .ok (.configured (s.heap h).index name) else .failed err) := by
  intro line hline _
  obtain ⟨hnone, hok⟩ | hone := hr
  · refine .inl ⟨hnone, err, ?_⟩
    rw [hok]
    rfl
  · refine .inr ⟨h, name, json, .returned ok err, hc.asks hline, hc.1, hone, ?_⟩
    cases ok <;> rfl

/-! ## Steps that call nothing -/

/-- A step that leaves lines, calls and indices alone. -/
structure Still (s t : State F A) : Prop where
  next : t.next = s.next
  lines : t.lines = s.lines
  index : ∀ h, (t.heap h).index = (s.heap h).index
  calls : t.calls = s.calls

namespace Still

theorem of_heap (hheap : t.heap = s.heap) (hrest : t.next = s.next ∧ t.lines = s.lines ∧ t.calls = s.calls) :
    Still s t :=
  ⟨hrest.1, hrest.2.1, fun h => by rw [hheap], hrest.2.2⟩

theorem update {h : Nat} {st : Stream F A} (hheap : t.heap = Function.update s.heap h st)
    (hst : st.index = (s.heap h).index) (hrest : t.next = s.next ∧ t.lines = s.lines ∧ t.calls = s.calls) :
    Still s t where
  next := hrest.1
  lines := hrest.2.1
  index k := by
    rw [hheap]
    by_cases hk : k = h
    · subst hk
      simpa using hst
    · simp [hk]
  calls := hrest.2.2

theorem callsOf (hs : Still s t) : t.callsOf n = s.callsOf n := by rw [State.callsOf, State.callsOf, hs.calls]

theorem answered (hs : Still s t) (ha : Answered an s n r) : Answered an t n r := by
  intro line hline hop
  rw [hs.lines] at hline
  obtain ⟨hnone, hr⟩ | ⟨h, name, json, o, hasks, hh, hone, hr⟩ := ha line hline hop
  · exact .inl ⟨hs.callsOf.trans hnone, hr⟩
  · refine .inr ⟨h, name, json, o, ?_, hs.next ▸ hh, hs.callsOf.trans hone, ?_⟩
    · rwa [hs.index]
    · rwa [hs.index]

theorem current (hs : Still s t) (hc : Current an s h n name json) : Current an t h n name json := by
  obtain ⟨hh, line, hline, hasks⟩ := hc
  refine ⟨hs.next ▸ hh, line, hs.lines ▸ hline, ?_⟩
  rwa [hs.index]

theorem result (hs : Still s t) (hr : Result s h n name json ok err) : Result t h n name json ok err := by
  rw [Result, hs.callsOf]
  exact hr

theorem noConfigure (hs : Still s t) (hn : NoConfigure s n) : NoConfigure t n :=
  fun line hline => hn line (hs.lines ▸ hline)

theorem posted (hs : Still s t) (hp : (t.heap h).pendingCfg = (s.heap h).pendingCfg) (hw : Posted s h n name json) :
    Posted t h n name json := by
  obtain ⟨p, hpend, hline, hname, hjson, hcase⟩ := hw
  refine ⟨p, hp.trans hpend, hline, hname, hjson, ?_⟩
  obtain ⟨hd, hnone⟩ | ⟨hd, hres⟩ := hcase
  · exact .inl ⟨hd, hs.callsOf.trans hnone⟩
  · exact .inr ⟨hd, hs.result hres⟩

/-- The control thread is where it was. -/
theorem configuring (hs : Still s t) (hc : t.control = s.control)
    (hp : ∀ h n req name json, s.control = .cfgWait h n req name json → Posted s h n name json → Posted t h n name json)
    (hw : Configuring an s) : Configuring an t := by
  unfold Configuring at hw ⊢
  rw [hc]
  split at hw
  · trivial
  · exact hs.noConfigure hw
  · exact ⟨hs.current hw.1, hs.callsOf.trans hw.2⟩
  · exact ⟨hs.current hw.1, hs.callsOf.trans hw.2⟩
  next hcontrol => exact ⟨hs.current hw.1, hp _ _ _ _ _ hcontrol hw.2⟩
  · obtain ⟨json, hcur, hres⟩ := hw
    exact ⟨json, hs.current hcur, hs.result hres⟩
  · exact hs.answered hw

end Still

theorem ConfigureInv.still (hi : ConfigureInv an s) (hs : Still s t) (hw : t.terminated = false → Configuring an t)
    (hr : ∀ r ∈ t.replies, r ∈ s.replies ∨ Answered an t r.1 r.2.2) : ConfigureInv an t where
  calls c hc := by
    rw [hs.lines]
    exact hi.calls c (hs.calls ▸ hc)
  once n := by
    rw [hs.callsOf]
    exact hi.once n
  configuring := hw
  answered r hr' := by
    obtain hmem | ha := hr r hr'
    · exact hs.answered (hi.answered r hmem)
    · exact ha

/-! ## Steps that call -/

/-- What has been replied stays so as the lines and the calls grow, if the new
calls are of other lines. -/
theorem Answered.grow {m : List Json} {w : List Call} (ha : Answered an s n r) (hn : n < s.lines.length)
    (hlines : t.lines = s.lines ++ m) (hnext : s.next ≤ t.next)
    (hindex : ∀ h < s.next, (t.heap h).index = (s.heap h).index) (hcalls : t.calls = s.calls ++ w)
    (hnew : ∀ c ∈ w, c.line ≠ n) : Answered an t n r := by
  have hsame : t.callsOf n = s.callsOf n := by
    have hnone : w.filter (·.line = n) = [] := List.filter_eq_nil_iff.mpr fun c hc => by simpa using hnew c hc
    rw [State.callsOf, hcalls, List.filter_append, hnone, List.append_nil]
    rfl
  intro line hline hop
  rw [hlines, List.getElem?_append_left hn] at hline
  obtain ⟨hnone, hr⟩ | ⟨h, name, json, o, hasks, hh, hone, hr⟩ := ha line hline hop
  · exact .inl ⟨hsame.trans hnone, hr⟩
  · refine .inr ⟨h, name, json, o, ?_, hh.trans_le hnext, hsame.trans hone, ?_⟩
    · rwa [hindex h hh]
    · rwa [hindex h hh]

/-- The calls of a line after a call of another, or its own. -/
theorem callsOf_call {c : Call} (hcalls : t.calls = s.calls ++ [c]) :
    t.callsOf n = if c.line = n then s.callsOf n ++ [c] else s.callsOf n := by
  rw [State.callsOf, hcalls, List.filter_append]
  by_cases hn : c.line = n
  · rw [if_pos hn, List.filter_cons_of_pos (by simpa using hn)]
    rfl
  · rw [if_neg hn, List.filter_cons_of_neg (by simpa using hn), List.filter_nil, List.append_nil]
    rfl

/-- A call for a line that has had none, and no reply. -/
theorem ConfigureInv.called (hi : ConfigureInv an s) {c : Call} (hcalls : t.calls = s.calls ++ [c])
    (hlines : t.lines = s.lines) (hnext : t.next = s.next) (hindex : ∀ h, (t.heap h).index = (s.heap h).index)
    (hline : c.line + 1 = s.lines.length) (htold : ∀ r ∈ s.replies, r.1 ≠ c.line)
    (hlt : ∀ r ∈ s.replies, r.1 < s.lines.length) (hnone : s.callsOf c.line = [])
    (hw : t.terminated = false → Configuring an t) (hr : t.replies = s.replies) : ConfigureInv an t where
  calls d hd := by
    rw [hcalls] at hd
    rw [hlines]
    obtain hd | hd := List.mem_append.mp hd
    · exact hi.calls d hd
    · cases List.mem_singleton.mp hd
      omega
  once n := by
    rw [callsOf_call hcalls]
    by_cases hn : c.line = n
    · rw [if_pos hn, ← hn, hnone]
      exact Nat.le_refl 1
    · rw [if_neg hn]
      exact hi.once n
  configuring := hw
  answered r hr' := by
    rw [hr] at hr'
    refine (hi.answered r hr').grow (m := []) (hlt r hr') (by rw [hlines, List.append_nil]) (Nat.le_of_eq hnext.symm)
      (fun h _ => hindex h) hcalls fun d hd => ?_
    cases List.mem_singleton.mp hd
    exact (htold r hr').symm

/-- A line is counted: nothing has been called for it. -/
theorem ConfigureInv.taken (hi : ConfigureInv an s) (hscore : ScoreInv an s) (hc : s.control = .idle) (line : Json) :
    ConfigureInv an (s.taken line) ∧ (s.taken line).callsOf s.lines.length = [] := by
  refine ⟨⟨?_, hi.once, ?_, ?_⟩, ?_⟩
  · intro c hc
    have hlt := hi.calls c hc
    simp only [State.taken, List.length_append, List.length_singleton]
    omega
  · intro _
    have hidle : (s.taken line).control = .idle := hc
    rw [Configuring, hidle]
    trivial
  · intro r hr
    exact (hi.answered r hr).grow (w := []) (hscore.told r hr).1 rfl (Nat.le_refl _) (fun _ _ => rfl)
      (List.append_nil _).symm fun _ hc => absurd hc List.not_mem_nil
  · refine List.filter_eq_nil_iff.mpr fun c hc => ?_
    have hlt := hi.calls c hc
    simp only [decide_eq_true_eq]
    omega

theorem ConfigureInv.handled (hi : ConfigureInv an s) (hscore : ScoreInv an s) (hc : s.control = .idle) {line : Json}
    (hl : Handled an s line t) : ConfigureInv an t := by
  obtain ⟨ht, hnone⟩ := hi.taken hscore hc line
  have hother : ∀ op, getStr line "op" = op → op ≠ "configure_analyzer" → NoConfigure (s.taken line) s.lines.length := by
    intro op hop hne l hl
    rw [getElem?_taken] at hl
    cases hl
    rwa [hop]
  have hcurrent : ∀ {index h name json}, AsksFor an line index name json → s.find index = some h →
      Current an (s.taken line) h s.lines.length name json := by
    intro index h name json hasks hfind
    obtain ⟨hmem, hindex⟩ := find_some hfind
    refine ⟨hscore.streams h hmem, line, getElem?_taken line, ?_⟩
    have hindex' : ((s.taken line).heap h).index = index := hindex
    rwa [hindex']
  cases hl with
  | refused err =>
    exact ht.still (.of_heap rfl ⟨rfl, rfl, rfl⟩) (fun _ _ _ _ => .inl ⟨hnone, err, rfl⟩) fun r hr => .inl hr
  | @added index score chain entries hop hbuild =>
    have hno := hother _ hop (by decide)
    refine ⟨ht.calls, ht.once, fun _ l hl hset => absurd hset (hno l hl), fun r hr => ?_⟩
    refine (ht.answered r hr).grow (m := []) (w := []) ?_ (List.append_nil _).symm (Nat.le_succ _) (fun h hh => ?_)
      (List.append_nil _).symm nofun
    · have hlt := (hscore.told r hr).1
      simp only [State.taken, List.length_append, List.length_singleton]
      omega
    · have hne : h ≠ s.next := Nat.ne_of_lt hh
      simp [State.answer, State.addStream, State.taken, hne]
  | removed index h hop hfree =>
    have hno := hother _ hop (by decide)
    exact ht.still (.of_heap rfl ⟨rfl, rfl, rfl⟩) (fun _ l hl hset => absurd hset (hno l hl)) fun r hr => .inl hr
  | threshold index h value hop hindex hvalue hfind =>
    exact ht.still (.update rfl rfl ⟨rfl, rfl, rfl⟩) (fun _ => hother _ hop (by decide)) fun r hr => .inl hr
  | inFlight index h name json hop hasks hfind =>
    exact ht.still (.of_heap rfl ⟨rfl, rfl, rfl⟩) (fun _ => ⟨hcurrent hasks hfind, hnone⟩) fun r hr => .inl hr
  | posted index h name json hop hasks hfind =>
    have hstill : Still (s.taken line) ((s.taken line).post h s.lines.length (getStr line "req") name json) :=
      .update rfl rfl ⟨rfl, rfl, rfl⟩
    exact ht.still hstill (fun _ => ⟨hstill.current (hcurrent hasks hfind), posted_post hnone⟩) fun r hr => .inl hr

/-- The call of a line the control thread is at, by either thread. -/
theorem call_facts {o : Outcome} (hcall : s.call an h n name json = some (o, t)) (hnone : s.callsOf n = []) :
    t.calls = s.calls ++ [⟨n, h, name, json, o⟩] ∧ t.callsOf n = [⟨n, h, name, json, o⟩] ∧ t.lines = s.lines ∧
      t.next = s.next ∧ t.replies = s.replies ∧ (∀ k, (t.heap k).index = (s.heap k).index) ∧
      (∀ k, (t.heap k).pendingCfg = (s.heap k).pendingCfg) ∧ t.control = s.control ∧ t.terminated = s.terminated := by
  obtain ⟨chain, rfl⟩ := call_eq_some hcall
  refine ⟨rfl, ?_, rfl, rfl, rfl, ?_, ?_, rfl, rfl⟩
  · rw [callsOf_call (s := s) rfl, if_pos rfl, hnone]
    rfl
  · intro k
    by_cases hk : k = h <;> simp [State.modify, hk]
  · intro k
    by_cases hk : k = h <;> simp [State.modify, hk]

theorem ConfigureInv.direct (hi : ConfigureInv an s) (hscore : ScoreInv an s) (ht : s.terminated = false)
    (hs : Stepped an s .applyDirect t) : ConfigureInv an t := by
  have hw := hi.configuring ht
  cases hs with
  | @noAnalyzer h n req name json hc hcall =>
    rw [Configuring, hc] at hw
    exact hi.still (.of_heap rfl ⟨rfl, rfl, rfl⟩) (fun _ => ⟨json, hw.1, .inl ⟨hw.2, rfl⟩⟩) fun r hr => .inl hr
  | @returned h n req name json ok err u hc hcall =>
    rw [Configuring, hc] at hw
    obtain ⟨⟨hh, line, hline, hasks⟩, hnone⟩ := hw
    obtain ⟨hlast, htold⟩ := hscore.at_line (n := n) (by rw [hc]; rfl)
    obtain ⟨hcalls, hof, hlines, hnext, hreplies, hindex, -⟩ := call_facts hcall hnone
    refine hi.called hcalls hlines hnext hindex hlast htold (fun r hr => (hscore.told r hr).1) hnone (fun _ => ?_) hreplies
    refine ⟨json, ⟨?_, line, ?_, ?_⟩, .inr hof⟩
    · exact hnext ▸ hh
    · exact hlines ▸ hline
    · exact (hindex h).symm ▸ hasks
  | @threw h n req name json what u hc hcall =>
    rw [Configuring, hc] at hw
    obtain ⟨hcurrent, hnone⟩ := hw
    obtain ⟨hlast, htold⟩ := hscore.at_line (n := n) (by rw [hc]; rfl)
    obtain ⟨hcalls, hof, hlines, hnext, hreplies, hindex, -⟩ := call_facts hcall hnone
    refine hi.called hcalls hlines hnext hindex hlast htold (fun r hr => (hscore.told r hr).1) hnone (fun _ => ?_) hreplies
    intro l hl _
    have hasks := hcurrent.asks (hlines ▸ hl)
    refine .inr ⟨h, name, json, .threw what, ?_, hnext ▸ hcurrent.1, hof, rfl⟩
    exact (hindex h).symm ▸ hasks

theorem ConfigureInv.wake (hi : ConfigureInv an s) (ht : s.terminated = false) (timeout : Bool)
    (hs : Stepped an s (.wake timeout) t) : ConfigureInv an t := by
  have hw := hi.configuring ht
  cases hs with
  | @scoreApplied _ h n req hc hp =>
    rw [Configuring, hc] at hw
    exact hi.still (.of_heap rfl ⟨rfl, rfl, rfl⟩) (fun _ => answered_of_noConfigure hw) fun r hr => .inl hr
  | @scoreGivenUp _ h n req err hc hp =>
    rw [Configuring, hc] at hw
    exact hi.still (.update rfl rfl ⟨rfl, rfl, rfl⟩) (fun _ => answered_of_noConfigure hw) fun r hr => .inl hr
  | @slotTaken _ h n req name json hc =>
    rw [Configuring, hc] at hw
    have hstill : Still s (s.post h n req name json) := .update rfl rfl ⟨rfl, rfl, rfl⟩
    exact hi.still hstill (fun _ => ⟨hstill.current hw.1, posted_post hw.2⟩) fun r hr => .inl hr
  | @cfgDone _ h n req name json p hc hp hd =>
    rw [Configuring, hc] at hw
    obtain ⟨hcurrent, q, hq, -, -, -, ⟨hlive, -⟩ | ⟨-, hres⟩⟩ := hw
    · rw [hp] at hq
      cases hq
      rw [hd] at hlive
      cases hlive
    · rw [hp] at hq
      cases hq
      have hstill : Still s { s.modify h fun st => { st with pendingCfg := none } with
          control := .idle
          replies := s.replies ++
            [(n, req, if p.ok then .ok (.configured (s.heap h).index name) else .failed p.err)] } :=
        .update rfl rfl ⟨rfl, rfl, rfl⟩
      refine hi.still hstill (fun _ => trivial) (reply_cases (hstill.answered (hres.answered hcurrent)))
  | @cfgGivenUp _ h n req name json p hc hp hd =>
    rw [Configuring, hc] at hw
    obtain ⟨hcurrent, q, hq, -, -, -, ⟨-, hnone⟩ | ⟨hdone, -⟩⟩ := hw
    · exact hi.still (.of_heap rfl ⟨rfl, rfl, rfl⟩) (fun _ => ⟨hcurrent, hnone⟩) fun r hr => .inl hr
    · rw [hp] at hq
      cases hq
      rw [hd] at hdone
      cases hdone

/-- **A context thread applies what the control thread waits for**, or nothing
that concerns an analyzer. -/
theorem ConfigureInv.applyCfg (hi : ConfigureInv an s) (hscore : ScoreInv an s) (ht : s.terminated = false)
    (hawaited : ∀ p, (s.heap h).pendingCfg = some p → p.done = false → (∃ x ∈ (s.heap h).analyzers, x.1 = p.name) →
      ∃ n req name json, s.control = .cfgWait h n req name json) : ConfigureInv an (applyCfg an s h) := by
  have hw := hi.configuring ht
  unfold NativeControls.applyCfg
  cases hp : (s.heap h).pendingCfg with
  | none => exact hi
  | some p =>
    dsimp only
    by_cases hd : p.done = true
    · rw [if_pos hd]
      exact hi
    · rw [if_neg hd]
      have hlive : p.done = false := by simpa using hd
      cases hcall : s.call an h p.line p.name p.json with
      | none =>
        have hstill : Still s (s.modify h fun st =>
            { st with pendingCfg := some { p with done := true, ok := false, err := noAnalyzer p.name st.index } }) :=
          .update rfl rfl ⟨rfl, rfl, rfl⟩
        refine hi.still hstill (fun _ => hstill.configuring rfl ?_ hw) fun r hr => .inl hr
        intro k n req name json _ hposted
        by_cases hk : k = h
        · subst hk
          obtain ⟨q, hq, rfl, rfl, rfl, ⟨-, hnone⟩ | ⟨hdone, -⟩⟩ := hposted
          · rw [hp] at hq
            cases hq
            exact ⟨{ p with done := true, ok := false, err := noAnalyzer p.name (s.heap k).index },
              by simp [State.modify], rfl, rfl, rfl, .inr ⟨rfl, .inl ⟨hstill.callsOf.trans hnone, rfl⟩⟩⟩
          · rw [hp] at hq
            cases hq
            rw [hlive] at hdone
            cases hdone
        · exact hstill.posted (by simp [State.modify, hk]) hposted
      | some r =>
        have hname : ∃ x ∈ (s.heap h).analyzers, x.1 = p.name := by
          by_contra hno
          have hnone := (@call_eq_none F A an s h p.line p.name p.json).mpr fun x hx he => hno ⟨x, hx, he⟩
          rw [hnone] at hcall
          cases hcall
        obtain ⟨n, req, name, json, hc⟩ := hawaited p hp hlive hname
        rw [Configuring, hc] at hw
        obtain ⟨hcurrent, q, hq, rfl, rfl, rfl, hcase⟩ := hw
        rw [hp] at hq
        cases hq
        obtain ⟨-, hnone⟩ | ⟨hdone, -⟩ := hcase
        · obtain ⟨hlast, htold⟩ := hscore.at_line (n := p.line) (by rw [hc]; rfl)
          obtain ⟨o, u⟩ := r
          obtain ⟨hcalls, hof, hlines, hnext, hreplies, hindex, hpending, hcontrol, -⟩ := call_facts hcall hnone
          cases o with
          | returned ok err =>
            have hindex' : ∀ k, ((u.modify h fun st =>
                { st with pendingCfg := some { p with done := true, ok := ok, err := err } }).heap k).index =
                  (s.heap k).index := by
              intro k
              by_cases hk : k = h <;> simp [State.modify, hk, hindex]
            refine hi.called hcalls hlines hnext hindex' hlast htold (fun r hr => (hscore.told r hr).1) hnone
              (fun _ => ?_) hreplies
            obtain ⟨hh, line, hline, hasks⟩ := hcurrent
            rw [Configuring, show (u.modify h _).control = _ from hcontrol.trans hc]
            refine ⟨⟨hnext ▸ hh, line, hlines ▸ hline, (hindex' h).symm ▸ hasks⟩, ?_⟩
            exact ⟨{ p with done := true, ok := ok, err := err }, by simp [State.modify], rfl, rfl, rfl,
              .inr ⟨rfl, .inr hof⟩⟩
          | threw what =>
            exact hi.called hcalls hlines hnext hindex hlast htold (fun r hr => (hscore.told r hr).1) hnone
              (fun ht => by cases ht) hreplies
        · rw [hlive] at hdone
          cases hdone

/-- **What a step preserves**, if it meets the condition. -/
theorem ConfigureInv.step (hi : ConfigureInv an s) (hscore : ScoreInv an s) (ht : s.terminated = false)
    (hawaited : Awaited s a) (hs : Stepped an s a t) : ConfigureInv an t := by
  have hw := hi.configuring ht
  cases hs with
  | handled hc hl => exact hi.handled hscore hc hl
  | scoreApplied hc hp => exact hi.wake ht true (.scoreApplied hc hp)
  | scoreGivenUp err hc hp => exact hi.wake ht true (.scoreGivenUp err hc hp)
  | slotTaken hc => exact hi.wake ht true (.slotTaken hc)
  | cfgDone hc hp hd => exact hi.wake ht true (.cfgDone hc hp hd)
  | cfgGivenUp hc hp hd => exact hi.wake ht true (.cfgGivenUp hc hp hd)
  | noAnalyzer hc hcall => exact hi.direct hscore ht (.noAnalyzer hc hcall)
  | returned hc hcall => exact hi.direct hscore ht (.returned hc hcall)
  | threw hc hcall => exact hi.direct hscore ht (.threw hc hcall)
  | @closed h n req name ok err hc =>
    rw [Configuring, hc] at hw
    obtain ⟨json, hcurrent, hres⟩ := hw
    have hstill : Still s { s.modify h fun st => { st with pendingCfg := none } with
        control := .idle
        replies := s.replies ++ [(n, req, if ok then .ok (.configured (s.heap h).index name) else .failed err)] } :=
      .update rfl rfl ⟨rfl, rfl, rfl⟩
    refine hi.still hstill (fun _ => trivial) (reply_cases (hstill.answered (hres.answered hcurrent)))
  | @replied n req r hc =>
    rw [Configuring, hc] at hw
    refine hi.still (.of_heap rfl ⟨rfl, rfl, rfl⟩) (fun _ => trivial) (reply_cases hw)
  | stopped => exact hi.still (.of_heap rfl ⟨rfl, rfl, rfl⟩) (fun _ => hw) fun r hr => .inl hr
  | @entered c h hin =>
    have hstill : Still s { s.modify h fun st => { st with holder := some c } with
        contexts := Function.update s.contexts c (.entered h) } := .update rfl rfl ⟨rfl, rfl, rfl⟩
    refine hi.still hstill (fun _ => hstill.configuring rfl (fun k _ _ _ _ _ hp => hstill.posted ?_ hp) hw)
      fun r hr => .inl hr
    by_cases hk : k = h <;> simp [State.modify, hk]
  | @applied c h hx =>
    obtain ⟨hcontrol, hreplies, hterminated, hcalls, ⟨hnext, hlines, -⟩, hheap⟩ := applyScore_same (s := s) (h := h)
    have hscored : ConfigureInv an (applyScore s h) := by
      have hstill : Still s (applyScore s h) := ⟨hnext, hlines, fun k => (hheap k).1, hcalls⟩
      exact hi.still hstill (fun _ => hstill.configuring hcontrol
        (fun k _ _ _ _ _ hp => hstill.posted (hheap k).2.2 hp) hw) fun r hr => .inl (hreplies ▸ hr)
    have hcfg : ConfigureInv an (NativeControls.applyCfg an (applyScore s h) h) := by
      refine hscored.applyCfg hscore.applyScore (hterminated.trans ht) fun p hp hlive hname => ?_
      rw [(hheap h).2.2] at hp
      rw [(hheap h).2.1] at hname
      rw [hcontrol]
      exact hawaited h p hx hp hlive hname
    have hstill : Still (NativeControls.applyCfg an (applyScore s h) h)
        { NativeControls.applyCfg an (applyScore s h) h with contexts := Function.update s.contexts c (.applied h) } :=
      .of_heap rfl ⟨rfl, rfl, rfl⟩
    exact hcfg.still hstill (fun hterm => hstill.configuring rfl (fun _ _ _ _ _ _ hp => hstill.posted rfl hp)
      (hcfg.configuring hterm)) fun r hr => .inl hr
  | @ended c h hx =>
    have hstill : Still s { s.modify h fun st => { st with holder := none } with
        contexts := Function.update s.contexts c .idle } := .update rfl rfl ⟨rfl, rfl, rfl⟩
    refine hi.still hstill (fun _ => hstill.configuring rfl (fun k _ _ _ _ _ hp => hstill.posted ?_ hp) hw)
      fun r hr => .inl hr
    by_cases hk : k = h <;> simp [State.modify, hk]

theorem ConfigureInv.start : ConfigureInv an (start an) where
  calls := nofun
  once _ := Nat.zero_le 1
  configuring _ := trivial
  answered := nofun

/-- **A configuration is applied at most once**, and the reply is what that
came to, in every run where a context thread applies one only while the control
thread waits for it. -/
theorem configured_once (hm : Meets (step an) Awaited (start an) as) (hr : run (step an) (start an) as = some t) :
    (∀ n, (t.callsOf n).length ≤ 1) ∧ ∀ r ∈ t.replies, Answered an t r.1 r.2.2 := by
  have hi : ScoreInv an t ∧ ConfigureInv an t := by
    refine run_invariant (I := fun s => ScoreInv an s ∧ ConfigureInv an s) ?_ hm ⟨.start, .start⟩ hr
    intro s a t hawaited ⟨hscore, hi⟩ hs
    have hterminated : s.terminated = false := by
      unfold NativeControls.step at hs
      split at hs
      · cases hs
      next h => simpa using h
    have hstepped := step_cases hs
    exact ⟨hscore.step hstepped, hi.step hscore hterminated hawaited hstepped⟩
  exact ⟨hi.2.once, hi.2.answered⟩

def configureLine : Json :=
  .obj [("op", .str "configure_analyzer"), ("req", .str "2"), ("stream_index", .int 0), ("name", .str "pose_angle")]

/-- No frame comes for a second: the control thread gives up, a context thread
applies the configuration, and the control thread applies it again. -/
def lateFrame : List Action :=
  [.line addLine .opened false, .pushReply, .line configureLine .opened false, .wake true, .enterFrame 0 0,
    .applyPending 0, .endFrame 0, .applyDirect, .close]

theorem configured_twice : ¬ ∀ as t, run (step bareAnalysis) (start bareAnalysis) as = some t →
    (∀ n, (t.callsOf n).length ≤ 1) ∧ ∀ r ∈ t.replies, Answered bareAnalysis t r.1 r.2.2 := by
  intro hall
  have hrun : ∃ t, run (step bareAnalysis) (start bareAnalysis) lateFrame = some t ∧ (t.callsOf 1).length = 2 :=
    ⟨_, rfl, rfl⟩
  obtain ⟨t, ht, htwice⟩ := hrun
  have honce := (hall lateFrame t ht).1 1
  omega

/-- A frame in time. -/
def frameInTime : List Action :=
  [.line addLine .opened false, .pushReply, .line configureLine .opened false, .enterFrame 0 0, .applyPending 0,
    .wake false]

theorem configured_once_in_time : ∃ t, run (step bareAnalysis) (start bareAnalysis) frameInTime = some t ∧
    (t.callsOf 1).length = 1 ∧ (∀ n, (t.callsOf n).length ≤ 1) ∧
    ∀ r ∈ t.replies, Answered bareAnalysis t r.1 r.2.2 := by
  have hm : Meets (step bareAnalysis) Awaited (start bareAnalysis) frameInTime := by
    refine ⟨trivial, fun _ h₁ => ?_⟩
    cases h₁
    refine ⟨trivial, fun _ h₂ => ?_⟩
    cases h₂
    refine ⟨trivial, fun _ h₃ => ?_⟩
    cases h₃
    refine ⟨trivial, fun _ h₄ => ?_⟩
    cases h₄
    refine ⟨?_, fun _ h₅ => ?_⟩
    · intro h p hx _ _ _
      cases hx
      exact ⟨_, _, _, _, rfl⟩
    · cases h₅
      exact ⟨trivial, fun _ _ => trivial⟩
  have hrun : ∃ t, run (step bareAnalysis) (start bareAnalysis) frameInTime = some t ∧ (t.callsOf 1).length = 1 :=
    ⟨_, rfl, rfl⟩
  obtain ⟨t, ht, hcalls⟩ := hrun
  exact ⟨t, ht, hcalls, configured_once hm ht⟩

end RetailVision.NativeControls
