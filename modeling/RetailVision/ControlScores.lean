/-
`op_set_threshold` tells the truth: of every control line that has been
replied, the reply says ok exactly if the line wrote its value to the
stream's threshold, and says that value; if it says failure the line wrote
nothing, and never does from there on (`set_threshold_truthful`).

A value is pending only while the control thread waits for it: it withdraws
the value under the same `ctl_mu` it gives up the wait with.
-/
import RetailVision.NativeControls
import RetailVision.AnalyzerConfigure

set_option linter.all false

namespace RetailVision.NativeControls

open Lib Analyzers NativeAnalyzers

variable {F A : Type} {an : Analysis F A} {s t u : State F A} {a : Action} {as bs : List Action} {n : Nat} {r : Reply F}

/-- The line the control thread is at. -/
def Control.line : Control F → Option Nat
  | .idle => none
  | .scoreWait _ n _ | .inFlightWait _ n _ _ _ | .cfgWait _ n _ _ _ | .direct _ n _ _ _ | .closing _ n _ _ _ _
  | .replying n _ _ => some n

/-- The writes of a line. -/
def State.written (s : State F A) (n : Nat) : List (Score F) := s.scores.filter (·.line = n)

/-- The last write of a stream's threshold is what it is. -/
def State.LastScore (s : State F A) (h : Nat) : Prop :=
  (s.scores.filter (·.stream = h)).getLast?.map (·.value) = some (s.heap h).scoreThreshold

/-- **A reply to a `set_threshold` is the truth.** -/
def Truthful (an : Analysis F A) (s : State F A) (n : Nat) (r : Reply F) : Prop :=
  ∀ line, s.lines[n]? = some line → getStr line "op" = "set_threshold" →
    match r with
    | .ok applied => ∃ h index value, needU32 line "stream_index" = .ok index ∧
        needNumber an.ar line "value" = .ok value ∧ h < s.next ∧ (s.heap h).index = index ∧
        applied = .threshold index (an.ar.toFloat value) ∧ s.written n = [⟨n, h, an.ar.toFloat value⟩]
    | .failed _ => s.written n = []

/-- A line that is no `set_threshold`. -/
def OtherOp (s : State F A) (n : Nat) : Prop :=
  ∀ line, s.lines[n]? = some line → getStr line "op" ≠ "set_threshold"

/-- What holds of the line the control thread is at. -/
def Waiting (an : Analysis F A) (s : State F A) : Prop :=
  match s.control with
  | .idle => True
  | .scoreWait h n _ => ∃ line index value, s.lines[n]? = some line ∧ needU32 line "stream_index" = .ok index ∧
      needNumber an.ar line "value" = .ok value ∧ h < s.next ∧ (s.heap h).index = index ∧
      ((s.heap h).pendingScore = some (n, an.ar.toFloat value) ∧ s.written n = [] ∨
        (s.heap h).pendingScore = none ∧ s.written n = [⟨n, h, an.ar.toFloat value⟩] ∧
          (s.heap h).scoreThreshold = an.ar.toFloat value)
  | .inFlightWait _ n _ _ _ | .cfgWait _ n _ _ _ | .direct _ n _ _ _ | .closing _ n _ _ _ _ => OtherOp s n
  | .replying n _ r => Truthful an s n r

structure ScoreInv (an : Analysis F A) (s : State F A) : Prop where
  current : ∀ n, s.control.line = some n → n + 1 = s.lines.length
  told : ∀ r ∈ s.replies, r.1 < s.lines.length ∧ s.control.line ≠ some r.1
  scores : ∀ sc ∈ s.scores, sc.line < s.lines.length ∧ sc.stream < s.next
  streams : ∀ h ∈ s.streams, h < s.next
  threshold : ∀ h < s.next, s.LastScore h
  pending : ∀ h p, (s.heap h).pendingScore = some p → ∃ req, s.control = .scoreWait h p.1 req
  waiting : Waiting an s
  truthful : ∀ r ∈ s.replies, Truthful an s r.1 r.2.2

/-- A step that leaves the thresholds alone. -/
structure Quiet (s t : State F A) : Prop where
  next : t.next = s.next
  lines : t.lines = s.lines
  heap : ∀ h, (t.heap h).index = (s.heap h).index ∧ (t.heap h).scoreThreshold = (s.heap h).scoreThreshold ∧
    (t.heap h).pendingScore = (s.heap h).pendingScore
  scores : t.scores = s.scores
  streams : ∀ h ∈ t.streams, h ∈ s.streams

/-! ## Steps that leave the thresholds alone -/

namespace Quiet

theorem refl : Quiet s s := ⟨rfl, rfl, fun _ => ⟨rfl, rfl, rfl⟩, rfl, fun _ => id⟩

theorem trans (h₁ : Quiet s t) (h₂ : Quiet t u) : Quiet s u where
  next := h₂.next.trans h₁.next
  lines := h₂.lines.trans h₁.lines
  heap h := by
    obtain ⟨hi, hs, hp⟩ := h₁.heap h
    obtain ⟨hi', hs', hp'⟩ := h₂.heap h
    exact ⟨hi'.trans hi, hs'.trans hs, hp'.trans hp⟩
  scores := h₂.scores.trans h₁.scores
  streams h hh := h₁.streams h (h₂.streams h hh)

/-- A step that leaves the streams alone. -/
theorem of_heap (hheap : t.heap = s.heap)
    (hrest : t.next = s.next ∧ t.lines = s.lines ∧ t.scores = s.scores ∧ ∀ h ∈ t.streams, h ∈ s.streams) : Quiet s t :=
  ⟨hrest.1, hrest.2.1, fun h => by rw [hheap]; exact ⟨rfl, rfl, rfl⟩, hrest.2.2.1, hrest.2.2.2⟩

/-- An update of a stream that leaves these fields alone. -/
theorem update {h : Nat} {st : Stream F A} (hheap : t.heap = Function.update s.heap h st)
    (hst : st.index = (s.heap h).index ∧ st.scoreThreshold = (s.heap h).scoreThreshold ∧
      st.pendingScore = (s.heap h).pendingScore)
    (hrest : t.next = s.next ∧ t.lines = s.lines ∧ t.scores = s.scores ∧ ∀ h ∈ t.streams, h ∈ s.streams) : Quiet s t where
  next := hrest.1
  lines := hrest.2.1
  heap k := by
    rw [hheap]
    by_cases hk : k = h
    · subst hk
      simpa using hst
    · simp [hk]
  scores := hrest.2.2.1
  streams := hrest.2.2.2

theorem post {h n : Nat} {req name : String} {json : Bytes} : Quiet s (s.post h n req name json) :=
  update rfl ⟨rfl, rfl, rfl⟩ ⟨rfl, rfl, rfl, fun _ => id⟩

theorem call {h n : Nat} {name : String} {json : Bytes} {o : Outcome} (hcall : s.call an h n name json = some (o, t)) :
    Quiet s t := by
  obtain ⟨chain, rfl⟩ := call_eq_some hcall
  exact update rfl ⟨rfl, rfl, rfl⟩ ⟨rfl, rfl, rfl, fun _ => id⟩

theorem applyCfg {h : Nat} : Quiet s (applyCfg an s h) := by
  unfold NativeControls.applyCfg
  split
  · split
    · exact refl
    · split
      next => exact update rfl ⟨rfl, rfl, rfl⟩ ⟨rfl, rfl, rfl, fun _ => id⟩
      next hcall => exact (call hcall).trans (update rfl ⟨rfl, rfl, rfl⟩ ⟨rfl, rfl, rfl, fun _ => id⟩)
      next hcall => exact (call hcall).trans (of_heap rfl ⟨rfl, rfl, rfl, fun _ => id⟩)
  · exact refl

theorem written (hq : Quiet s t) : t.written n = s.written n := by rw [State.written, State.written, hq.scores]

theorem truthful (hq : Quiet s t) (h : Truthful an s n r) : Truthful an t n r := by
  intro line hline hop
  rw [hq.lines] at hline
  have hr := h line hline hop
  cases r with
  | ok applied =>
    obtain ⟨k, index, value, hindex, hvalue, hk, hkindex, happlied, hw⟩ := hr
    exact ⟨k, index, value, hindex, hvalue, hq.next ▸ hk, (hq.heap k).1.trans hkindex, happlied, hq.written.trans hw⟩
  | failed err => exact hq.written.trans hr

theorem otherOp (hq : Quiet s t) (h : OtherOp s n) : OtherOp t n := fun line hline => h line (hq.lines ▸ hline)

theorem waiting (hq : Quiet s t) (hc : t.control = s.control) (hw : Waiting an s) : Waiting an t := by
  unfold Waiting at hw ⊢
  rw [hc]
  split at hw
  · trivial
  · obtain ⟨line, index, value, hline, hindex, hvalue, hh, hkindex, hcase⟩ := hw
    refine ⟨line, index, value, hq.lines ▸ hline, hindex, hvalue, hq.next ▸ hh, (hq.heap _).1.trans hkindex, ?_⟩
    rw [(hq.heap _).2.1, (hq.heap _).2.2, hq.written]
    exact hcase
  · exact hq.otherOp hw
  · exact hq.otherOp hw
  · exact hq.otherOp hw
  · exact hq.otherOp hw
  · exact hq.truthful hw

end Quiet

theorem truthful_of_otherOp (h : OtherOp s n) : Truthful an s n r := fun line hline hop => absurd hop (h line hline)

theorem ScoreInv.none_pending (hi : ScoreInv an s) (hc : ∀ h n req, s.control ≠ .scoreWait h n req) (h : Nat) :
    (s.heap h).pendingScore = none := by
  cases hp : (s.heap h).pendingScore with
  | none => rfl
  | some p =>
    obtain ⟨req, hreq⟩ := hi.pending h p hp
    exact absurd hreq (hc h p.1 req)

/-- Nothing is pending for the streams the control thread does not wait for. -/
theorem ScoreInv.others_none (hi : ScoreInv an s) {h k : Nat} {req : String} (hc : s.control = .scoreWait h n req)
    (hk : k ≠ h) : (s.heap k).pendingScore = none := by
  cases hq : (s.heap k).pendingScore with
  | none => rfl
  | some q =>
    obtain ⟨req', hc'⟩ := hi.pending k q hq
    rw [hc] at hc'
    cases hc'
    exact absurd rfl hk

/-- The line the control thread is at is the last one, and has not been replied. -/
theorem ScoreInv.at_line (hi : ScoreInv an s) (hc : s.control.line = some n) :
    n + 1 = s.lines.length ∧ ∀ r ∈ s.replies, r.1 ≠ n := by
  refine ⟨hi.current n hc, fun r hr he => ?_⟩
  rw [← he] at hc
  exact (hi.told r hr).2 hc

/-- The control thread stays where it is, or was not waiting for a threshold. -/
theorem ScoreInv.elsewhere (hi : ScoreInv an s) {c : Control F} (hc : s.control = c) (hne : ∀ h n req, c ≠ .scoreWait h n req) :
    t.control = s.control ∨ ∀ h, (s.heap h).pendingScore = none :=
  .inr (hi.none_pending (hc ▸ hne))

/-- A reply is an earlier one, or the one that is given now. -/
theorem reply_cases {α : Type} {P : α → Prop} {rs : List α} {x : α} (hx : P x) : ∀ r ∈ rs ++ [x], r ∈ rs ∨ P r := by
  intro r hr
  obtain hr | hr := List.mem_append.mp hr
  · exact .inl hr
  · cases List.mem_singleton.mp hr
    exact .inr hx

/-- A quiet step, which may reply the last line. -/
theorem ScoreInv.quiet (hi : ScoreInv an s) (hq : Quiet s t)
    (hline : ∀ n, t.control.line = some n → n + 1 = s.lines.length ∧ ∀ r ∈ t.replies, r.1 ≠ n)
    (hpending : t.control = s.control ∨ ∀ h, (s.heap h).pendingScore = none) (hwaiting : Waiting an t)
    (hreplies : ∀ r ∈ t.replies, r ∈ s.replies ∨ r.1 + 1 = s.lines.length ∧ Truthful an t r.1 r.2.2) :
    ScoreInv an t where
  current n hn := by
    rw [hq.lines]
    exact (hline n hn).1
  told r hr := by
    rw [hq.lines]
    refine ⟨?_, fun hn => (hline r.1 hn).2 r hr rfl⟩
    obtain hr | ⟨hlast, -⟩ := hreplies r hr
    · exact (hi.told r hr).1
    · omega
  scores sc hsc := by
    rw [hq.lines, hq.next]
    exact hi.scores sc (hq.scores ▸ hsc)
  streams h hh := by
    rw [hq.next]
    exact hi.streams h (hq.streams h hh)
  threshold h hh := by
    rw [State.LastScore, hq.scores, (hq.heap h).2.1]
    exact hi.threshold h (hq.next ▸ hh)
  pending h p hp := by
    rw [(hq.heap h).2.2] at hp
    obtain hc | hnone := hpending
    · rw [hc]
      exact hi.pending h p hp
    · rw [hnone h] at hp
      cases hp
  waiting := hwaiting
  truthful r hr := by
    obtain hr | ⟨-, htrue⟩ := hreplies r hr
    · exact hq.truthful (hi.truthful r hr)
    · exact htrue

/-! ## Steps of the thresholds -/

/-- What has been replied stays the truth as the lines and the writes grow, if
the new writes are of other lines. -/
theorem Truthful.grow {m : List Json} {w : List (Score F)} (h : Truthful an s n r) (hn : n < s.lines.length)
    (hlines : t.lines = s.lines ++ m) (hnext : s.next ≤ t.next)
    (hindex : ∀ h < s.next, (t.heap h).index = (s.heap h).index) (hscores : t.scores = s.scores ++ w)
    (hnew : ∀ sc ∈ w, sc.line ≠ n) : Truthful an t n r := by
  have hwritten : t.written n = s.written n := by
    have hnone : w.filter (·.line = n) = [] := List.filter_eq_nil_iff.mpr fun sc hsc => by simpa using hnew sc hsc
    rw [State.written, hscores, List.filter_append, hnone, List.append_nil]
    rfl
  intro line hline hop
  rw [hlines, List.getElem?_append_left hn] at hline
  have hr := h line hline hop
  cases r with
  | ok applied =>
    obtain ⟨k, index, value, hi, hv, hk, hkindex, happlied, hw⟩ := hr
    exact ⟨k, index, value, hi, hv, hk.trans_le hnext, (hindex k hk).trans hkindex, happlied, hwritten.trans hw⟩
  | failed err => exact hwritten.trans hr

/-- A line is counted: nothing has been written or replied for it. -/
theorem ScoreInv.taken (hi : ScoreInv an s) (hc : s.control = .idle) (line : Json) :
    ScoreInv an (s.taken line) ∧ (s.taken line).written s.lines.length = [] ∧
      (∀ r ∈ s.replies, r.1 ≠ s.lines.length) ∧ ∀ h, (s.heap h).pendingScore = none := by
  have hlen : (s.taken line).lines.length = s.lines.length + 1 := by simp [State.taken]
  have hcontrol : (s.taken line).control = .idle := hc
  refine ⟨⟨?_, ?_, ?_, hi.streams, hi.threshold, ?_, ?_, ?_⟩, ?_, ?_, ?_⟩
  · intro n hn
    rw [hcontrol] at hn
    cases hn
  · intro r hr
    obtain ⟨hlt, hne⟩ := hi.told r hr
    exact ⟨by omega, hne⟩
  · intro sc hsc
    obtain ⟨hlt, hstream⟩ := hi.scores sc hsc
    exact ⟨by omega, hstream⟩
  · exact hi.pending
  · rw [Waiting, hcontrol]
    trivial
  · intro r hr
    exact (hi.truthful r hr).grow (w := []) (hi.told r hr).1 rfl (Nat.le_refl _) (fun _ _ => rfl)
      (List.append_nil _).symm nofun
  · refine List.filter_eq_nil_iff.mpr fun sc hsc => ?_
    have hlt := (hi.scores sc hsc).1
    simp only [decide_eq_true_eq]
    omega
  · intro r hr he
    have hlt := (hi.told r hr).1
    omega
  · exact hi.none_pending (hc ▸ fun h n req he => by cases he)

theorem getElem?_taken (line : Json) : (s.taken line).lines[s.lines.length]? = some line := by simp [State.taken]

/-- A write to another stream leaves the last one of a stream. -/
theorem LastScore.of_other {h : Nat} {sc : Score F} (hl : s.LastScore h) (hscores : t.scores = s.scores ++ [sc])
    (hne : sc.stream ≠ h) (hheap : (t.heap h).scoreThreshold = (s.heap h).scoreThreshold) : t.LastScore h := by
  rw [State.LastScore, hscores, List.filter_append, List.filter_cons_of_neg (by simpa using hne), List.filter_nil,
    List.append_nil, hheap]
  exact hl

/-- A write to a stream is its last one. -/
theorem lastScore_of_write {h : Nat} {sc : Score F} (hscores : t.scores = s.scores ++ [sc]) (hstream : sc.stream = h)
    (hheap : (t.heap h).scoreThreshold = sc.value) : t.LastScore h := by
  rw [State.LastScore, hscores, List.filter_append, List.filter_cons_of_pos (by simpa using hstream), List.filter_nil,
    List.getLast?_concat, hheap]
  rfl

/-- A step that writes a stream's pending value, and its threshold with it if
the write is of the line the control thread is at. -/
structure Scored (s t : State F A) (h : Nat) (pending : Option (Nat × F)) (new : List (Score F)) : Prop where
  next : t.next = s.next
  lines : t.lines = s.lines
  here : (t.heap h).index = (s.heap h).index ∧ (t.heap h).pendingScore = pending
  there : ∀ k ≠ h, t.heap k = s.heap k
  scores : t.scores = s.scores ++ new
  threshold : new = [] ∧ (t.heap h).scoreThreshold = (s.heap h).scoreThreshold ∨
    ∃ n, n + 1 = s.lines.length ∧ (∀ r ∈ s.replies, r.1 ≠ n) ∧ new = [⟨n, h, (t.heap h).scoreThreshold⟩]
  streams : t.streams = s.streams
  replies : t.replies = s.replies

theorem ScoreInv.scored (hi : ScoreInv an s) {h : Nat} {p : Option (Nat × F)} {w : List (Score F)}
    (hs : Scored s t h p w) (hh : h < s.next)
    (hline : ∀ n, t.control.line = some n → n + 1 = s.lines.length ∧ ∀ r ∈ s.replies, r.1 ≠ n)
    (hpending : ∀ x, p = some x → ∃ req, t.control = .scoreWait h x.1 req)
    (hnone : ∀ k ≠ h, (s.heap k).pendingScore = none) (hwaiting : Waiting an t) : ScoreInv an t := by
  have hnew : ∀ sc ∈ w, sc.stream = h ∧ sc.line + 1 = s.lines.length ∧ ∀ r ∈ s.replies, sc.line ≠ r.1 := by
    intro sc hsc
    obtain ⟨hnil, -⟩ | ⟨n, hn, htold, hone⟩ := hs.threshold
    · rw [hnil] at hsc
      exact absurd hsc List.not_mem_nil
    · rw [hone] at hsc
      cases List.mem_singleton.mp hsc
      exact ⟨rfl, hn, fun r hr => (htold r hr).symm⟩
  have hindex : ∀ k < s.next, (t.heap k).index = (s.heap k).index := by
    intro k _
    by_cases hk : k = h
    · rw [hk, hs.here.1]
    · rw [hs.there k hk]
  refine ⟨?_, ?_, ?_, ?_, ?_, ?_, hwaiting, ?_⟩
  · intro n hn
    rw [hs.lines]
    exact (hline n hn).1
  · intro r hr
    rw [hs.replies] at hr
    rw [hs.lines]
    exact ⟨(hi.told r hr).1, fun hn => (hline r.1 hn).2 r hr rfl⟩
  · intro sc hsc
    rw [hs.scores] at hsc
    rw [hs.lines, hs.next]
    obtain hsc | hsc := List.mem_append.mp hsc
    · exact hi.scores sc hsc
    · obtain ⟨hstream, hlast, -⟩ := hnew sc hsc
      exact ⟨by omega, hstream ▸ hh⟩
  · intro k hk
    rw [hs.next]
    exact hi.streams k (hs.streams ▸ hk)
  · intro k hk
    rw [hs.next] at hk
    obtain ⟨hnil, hsame⟩ | ⟨n, -, -, hone⟩ := hs.threshold
    · have hscore : (t.heap k).scoreThreshold = (s.heap k).scoreThreshold := by
        by_cases he : k = h
        · rw [he, hsame]
        · rw [hs.there k he]
      rw [State.LastScore, hs.scores, hnil, List.append_nil, hscore]
      exact hi.threshold k hk
    · by_cases he : k = h
      · exact lastScore_of_write (s := s) (by rw [hs.scores, hone]) he.symm (by rw [he])
      · exact LastScore.of_other (hi.threshold k hk) (by rw [hs.scores, hone]) (Ne.symm he) (by rw [hs.there k he])
  · intro k p hp
    by_cases he : k = h
    · rw [he, hs.here.2] at hp
      rw [he]
      exact hpending p hp
    · rw [hs.there k he, hnone k he] at hp
      cases hp
  · intro r hr
    rw [hs.replies] at hr
    refine (hi.truthful r hr).grow (m := []) (hi.told r hr).1 (by rw [hs.lines, List.append_nil])
      (Nat.le_of_eq hs.next.symm) hindex hs.scores fun sc hsc => (hnew sc hsc).2.2 r hr

theorem ScoreInv.added (hi : ScoreInv an s) (hc : s.control = .idle) {line : Json} (hop : getStr line "op" = "add")
    (index : Nat) (score : F) (chain : List (String × A)) :
    ScoreInv an (((s.taken line).addStream s.lines.length index score chain).answer s.lines.length
      (getStr line "req") (.ok (.stream index))) := by
  obtain ⟨ht, -, htold, hnone⟩ := hi.taken hc line
  have hlen : (s.taken line).lines.length = s.lines.length + 1 := by simp [State.taken]
  set t := ((s.taken line).addStream s.lines.length index score chain).answer s.lines.length
      (getStr line "req") (.ok (.stream index)) with hdef
  have hnew : (t.heap s.next).scoreThreshold = score ∧ (t.heap s.next).pendingScore = none := by
    simp [hdef, State.answer, State.addStream, State.taken]
  have hold : ∀ h, h ≠ s.next → t.heap h = s.heap h := by
    intro h hh
    simp [hdef, State.answer, State.addStream, State.taken, hh]
  have hnext : t.next = s.next + 1 := rfl
  have hscores : t.scores = s.scores ++ [⟨s.lines.length, s.next, score⟩] := rfl
  refine ⟨?_, ?_, ?_, ?_, ?_, ?_, ?_, ?_⟩
  · intro n hn
    cases hn
    exact hlen.symm
  · intro r hr
    refine ⟨(ht.told r hr).1, fun hn => ?_⟩
    exact htold r hr (Option.some.inj hn).symm
  · intro sc hsc
    rw [hscores] at hsc
    rw [hnext]
    obtain hsc | hsc := List.mem_append.mp hsc
    · obtain ⟨hline, hstream⟩ := ht.scores sc hsc
      exact ⟨hline, Nat.lt_succ_of_lt hstream⟩
    · cases List.mem_singleton.mp hsc
      exact ⟨Nat.lt_of_lt_of_eq (Nat.lt_succ_self _) hlen.symm, Nat.lt_succ_self _⟩
  · intro h hh
    obtain hh | hh := List.mem_append.mp hh
    · exact Nat.lt_succ_of_lt (hi.streams h hh)
    · cases List.mem_singleton.mp hh
      exact Nat.lt_succ_self _
  · intro h hh
    by_cases he : h = s.next
    · exact lastScore_of_write (s := s) hscores he.symm (by rw [he]; exact hnew.1)
    · exact LastScore.of_other (s := s) (hi.threshold h (by omega)) hscores (Ne.symm he) (by rw [hold h he])
  · intro h p hp
    by_cases he : h = s.next
    · rw [he, hnew.2] at hp
      cases hp
    · rw [hold h he, hnone h] at hp
      cases hp
  · intro l hl hset
    have hl' : (s.taken line).lines[s.lines.length]? = some l := hl
    rw [getElem?_taken] at hl'
    cases hl'
    rw [hop] at hset
    exact absurd hset (by decide)
  · intro r hr
    refine (ht.truthful r hr).grow (m := []) (ht.told r hr).1 (List.append_nil _).symm (Nat.le_succ _)
      (fun h hh => ?_) hscores ?_
    · rw [hold h (Nat.ne_of_lt hh)]
      rfl
    · intro sc hsc
      cases List.mem_singleton.mp hsc
      exact (htold r hr).symm

theorem ScoreInv.handled (hi : ScoreInv an s) (hc : s.control = .idle) {line : Json} (hl : Handled an s line t) :
    ScoreInv an t := by
  obtain ⟨ht, hwritten, htold, hnone⟩ := hi.taken hc line
  have hlen : (s.taken line).lines.length = s.lines.length + 1 := by simp [State.taken]
  have hline : ∀ n, some s.lines.length = some n → n + 1 = (s.taken line).lines.length ∧ ∀ r ∈ s.replies, r.1 ≠ n := by
    intro n hn
    cases hn
    exact ⟨hlen.symm, htold⟩
  have hother : ∀ op, getStr line "op" = op → op ≠ "set_threshold" → OtherOp (s.taken line) s.lines.length := by
    intro op hop hne l hl
    rw [getElem?_taken] at hl
    cases hl
    rwa [hop]
  cases hl with
  | refused err =>
    exact ht.quiet (.of_heap rfl ⟨rfl, rfl, rfl, fun _ => id⟩) hline (.inr hnone) (fun _ _ _ => hwritten)
      fun r hr => .inl hr
  | added index score chain entries hop hbuild => exact hi.added hc hop index score chain
  | removed index h hop hfree =>
    have hremove := hother _ hop (by decide)
    exact ht.quiet (.of_heap rfl ⟨rfl, rfl, rfl, fun _ => List.mem_of_mem_erase⟩) hline (.inr hnone)
      (fun l hl hset => absurd hset (hremove l hl)) fun r hr => .inl hr
  | inFlight index h name json hop hasks hfind =>
    exact ht.quiet (.of_heap rfl ⟨rfl, rfl, rfl, fun _ => id⟩) hline (.inr hnone) (hother _ hop (by decide))
      fun r hr => .inl hr
  | posted index h name json hop hasks hfind =>
    exact ht.quiet .post hline (.inr hnone) (hother _ hop (by decide)) fun r hr => .inl hr
  | threshold index h value hop hindex hvalue hfind =>
    obtain ⟨hmem, hh⟩ := find_some hfind
    have hlt := hi.streams h hmem
    refine ht.scored (h := h) (p := some (s.lines.length, an.ar.toFloat value)) (w := []) ?_ hlt hline
      (fun p hp => ?_) (fun k _ => hnone k) ?_
    · refine ⟨rfl, rfl, ?_, ?_, (List.append_nil _).symm, .inl ⟨rfl, ?_⟩, rfl, rfl⟩
      · simp [State.modify]
      · intro k hk
        simp [State.modify, hk]
      · simp [State.modify]
    · cases hp
      exact ⟨_, rfl⟩
    · refine ⟨line, index, value, getElem?_taken line, hindex, hvalue, hlt, ?_, .inl ⟨?_, hwritten⟩⟩
      · simpa [State.modify, State.taken] using hh
      · simp [State.modify]

theorem ScoreInv.applyScore (hi : ScoreInv an s) {h : Nat} : ScoreInv an (applyScore s h) := by
  unfold NativeControls.applyScore
  cases hp : (s.heap h).pendingScore with
  | none => exact hi
  | some p =>
    obtain ⟨n, v⟩ := p
    obtain ⟨req, hc⟩ := hi.pending h (n, v) hp
    have hw := hi.waiting
    rw [Waiting, hc] at hw
    obtain ⟨line, index, value, hline, hindex, hvalue, hlt, hh, hcase⟩ := hw
    rw [hp] at hcase
    obtain ⟨hv, hwritten⟩ | ⟨hnone, -⟩ := hcase
    · obtain rfl : v = an.ar.toFloat value := by cases hv; rfl
      obtain ⟨hlast, htold⟩ := hi.at_line (n := n) (by rw [hc]; rfl)
      refine hi.scored (h := h) (p := none) (w := [⟨n, h, an.ar.toFloat value⟩]) ?_ hlt ?_ nofun ?_ ?_
      · refine ⟨rfl, rfl, ?_, ?_, rfl, .inr ⟨n, hlast, htold, ?_⟩, rfl, rfl⟩
        · simp [State.modify]
        · intro k hk
          simp [State.modify, hk]
        · simp [State.modify]
      · intro m hm
        have hcontrol : s.control.line = some m := hm
        exact hi.at_line hcontrol
      · exact fun k hk => hi.others_none hc hk
      · dsimp only [Waiting, State.modify]
        rw [hc]
        refine ⟨line, index, value, hline, hindex, hvalue, hlt, ?_, .inr ⟨?_, ?_, ?_⟩⟩
        · simpa using hh
        · simp
        · rw [State.written] at hwritten ⊢
          rw [List.filter_append, hwritten]
          simp
        · simp
    · cases hnone

theorem ScoreInv.wake (hi : ScoreInv an s) (timeout : Bool) (hs : Stepped an s (.wake timeout) t) : ScoreInv an t := by
  cases hs with
  | @scoreApplied _ h n req hc hp =>
    have hw := hi.waiting
    rw [Waiting, hc] at hw
    obtain ⟨line, index, value, hline, hindex, hvalue, hlt, hh, hcase⟩ := hw
    rw [hp] at hcase
    obtain ⟨hsome, -⟩ | ⟨-, hwritten, hscore⟩ := hcase
    · cases hsome
    · refine hi.quiet (.of_heap rfl ⟨rfl, rfl, rfl, fun _ => id⟩) (fun m hm => hi.at_line (by rw [hc]; exact hm))
        (.inr fun k => ?_) ?_ fun r hr => .inl hr
      · by_cases hk : k = h
        · rw [hk, hp]
        · exact hi.others_none hc hk
      · intro l hl hset
        have hl' : s.lines[n]? = some l := hl
        rw [hline] at hl'
        cases hl'
        exact ⟨h, index, value, hindex, hvalue, hlt, hh, by rw [hh, hscore], hwritten⟩
  | @scoreGivenUp _ h n req err hc hp =>
    have hw := hi.waiting
    rw [Waiting, hc] at hw
    obtain ⟨line, index, value, hline, hindex, hvalue, hlt, hh, hcase⟩ := hw
    obtain ⟨hsome, hwritten⟩ | ⟨hnone, -⟩ := hcase
    · refine hi.scored (h := h) (p := none) (w := []) ?_ hlt ?_ (fun x hx => by cases hx) ?_ fun _ _ _ => hwritten
      · refine ⟨rfl, rfl, ?_, ?_, (List.append_nil _).symm, .inl ⟨rfl, ?_⟩, rfl, rfl⟩
        · simp [State.modify, State.refuse, State.answer]
        · intro k hk
          simp [State.modify, State.refuse, State.answer, hk]
        · simp [State.modify, State.refuse, State.answer]
      · exact fun m hm => hi.at_line (by rw [hc]; exact hm)
      · exact fun k hk => hi.others_none hc hk
    · exact absurd hnone hp
  | @slotTaken _ h n req name json hc =>
    have hw := hi.waiting
    rw [Waiting, hc] at hw
    exact hi.quiet .post (fun m hm => hi.at_line (by rw [hc]; exact hm))
      (hi.elsewhere hc fun h n req he => by cases he) hw fun r hr => .inl hr
  | @cfgDone _ h n req name json p hc hp hd =>
    have hw := hi.waiting
    rw [Waiting, hc] at hw
    obtain ⟨hlast, -⟩ := hi.at_line (n := n) (by rw [hc]; rfl)
    refine hi.quiet (.update rfl ⟨rfl, rfl, rfl⟩ ⟨rfl, rfl, rfl, fun _ => id⟩) (fun m hm => by cases hm)
      (hi.elsewhere hc fun h n req he => by cases he) trivial (reply_cases ?_)
    exact ⟨hlast, fun l hl hset => absurd hset (hw l hl)⟩
  | @cfgGivenUp _ h n req name json p hc hp hd =>
    have hw := hi.waiting
    rw [Waiting, hc] at hw
    exact hi.quiet (.of_heap rfl ⟨rfl, rfl, rfl, fun _ => id⟩) (fun m hm => hi.at_line (by rw [hc]; exact hm))
      (hi.elsewhere hc fun h n req he => by cases he) hw fun r hr => .inl hr

/-- **What a step preserves.** -/
theorem ScoreInv.step (hi : ScoreInv an s) (hs : Stepped an s a t) : ScoreInv an t := by
  cases hs with
  | handled hc hl => exact hi.handled hc hl
  | scoreApplied hc hp => exact hi.wake true (.scoreApplied hc hp)
  | scoreGivenUp err hc hp => exact hi.wake true (.scoreGivenUp err hc hp)
  | slotTaken hc => exact hi.wake true (.slotTaken hc)
  | cfgDone hc hp hd => exact hi.wake true (.cfgDone hc hp hd)
  | cfgGivenUp hc hp hd => exact hi.wake true (.cfgGivenUp hc hp hd)
  | @noAnalyzer h n req name json hc hcall =>
    have hw := hi.waiting
    rw [Waiting, hc] at hw
    exact hi.quiet (.of_heap rfl ⟨rfl, rfl, rfl, fun _ => id⟩) (fun m hm => hi.at_line (by rw [hc]; exact hm))
      (hi.elsewhere hc fun h n req he => by cases he) hw fun r hr => .inl hr
  | @returned h n req name json ok err u hc hcall =>
    have hw := hi.waiting
    rw [Waiting, hc] at hw
    obtain ⟨chain, rfl⟩ := call_eq_some hcall
    exact hi.quiet (.update rfl ⟨rfl, rfl, rfl⟩ ⟨rfl, rfl, rfl, fun _ => id⟩)
      (fun m hm => hi.at_line (by rw [hc]; exact hm))
      (hi.elsewhere hc fun h n req he => by cases he) hw fun r hr => .inl hr
  | @threw h n req name json what u hc hcall =>
    have hw := hi.waiting
    rw [Waiting, hc] at hw
    obtain ⟨chain, rfl⟩ := call_eq_some hcall
    exact hi.quiet (.update rfl ⟨rfl, rfl, rfl⟩ ⟨rfl, rfl, rfl, fun _ => id⟩)
      (fun m hm => hi.at_line (by rw [hc]; exact hm))
      (hi.elsewhere hc fun h n req he => by cases he)
      (fun l hl hset => absurd hset (hw l hl)) fun r hr => .inl hr
  | @closed h n req name ok err hc =>
    have hw := hi.waiting
    rw [Waiting, hc] at hw
    obtain ⟨hlast, -⟩ := hi.at_line (n := n) (by rw [hc]; rfl)
    refine hi.quiet (.update rfl ⟨rfl, rfl, rfl⟩ ⟨rfl, rfl, rfl, fun _ => id⟩) nofun
      (hi.elsewhere hc fun h n req he => by cases he) trivial (reply_cases ?_)
    exact ⟨hlast, fun l hl hset => absurd hset (hw l hl)⟩
  | @replied n req r hc =>
    have hw := hi.waiting
    rw [Waiting, hc] at hw
    obtain ⟨hlast, -⟩ := hi.at_line (n := n) (by rw [hc]; rfl)
    refine hi.quiet (.of_heap rfl ⟨rfl, rfl, rfl, fun _ => id⟩) nofun
      (hi.elsewhere hc fun h n req he => by cases he) trivial (reply_cases ?_)
    exact ⟨hlast, hw⟩
  | stopped =>
    exact hi.quiet (.of_heap rfl ⟨rfl, rfl, rfl, fun _ => id⟩) (fun m hm => hi.at_line hm) (.inl rfl) hi.waiting
      fun r hr => .inl hr
  | @entered c h hin =>
    have hq : Quiet s { s.modify h fun st => { st with holder := some c } with
        contexts := Function.update s.contexts c (.entered h) } :=
      .update rfl ⟨rfl, rfl, rfl⟩ ⟨rfl, rfl, rfl, fun _ => id⟩
    exact hi.quiet hq (fun m hm => hi.at_line hm) (.inl rfl) (hq.waiting rfl hi.waiting) fun r hr => .inl hr
  | @applied c h hx =>
    have hscored := hi.applyScore (h := h)
    obtain ⟨hcontrol, hreplies⟩ := @applyCfg_same F A an (NativeControls.applyScore s h) h
    have hq : Quiet (NativeControls.applyScore s h)
        { applyCfg an (NativeControls.applyScore s h) h with contexts := Function.update s.contexts c (.applied h) } :=
      Quiet.applyCfg.trans (.of_heap rfl ⟨rfl, rfl, rfl, fun _ => id⟩)
    refine hscored.quiet hq (fun m hm => ?_) (.inl hcontrol) (hq.waiting hcontrol hscored.waiting) fun r hr => ?_
    · have hm' : (NativeControls.applyScore s h).control.line = some m := hcontrol ▸ hm
      obtain ⟨hlast, htold⟩ := hscored.at_line hm'
      exact ⟨hlast, fun r hr => htold r (hreplies ▸ hr)⟩
    · exact .inl (hreplies ▸ hr)
  | @ended c h hx =>
    have hq : Quiet s { s.modify h fun st => { st with holder := none } with
        contexts := Function.update s.contexts c .idle } :=
      .update rfl ⟨rfl, rfl, rfl⟩ ⟨rfl, rfl, rfl, fun _ => id⟩
    exact hi.quiet hq (fun m hm => hi.at_line hm) (.inl rfl) (hq.waiting rfl hi.waiting) fun r hr => .inl hr

theorem ScoreInv.start : ScoreInv an (start an) where
  current := nofun
  told := nofun
  scores := nofun
  streams := nofun
  threshold h hh := absurd hh (Nat.not_lt_zero h)
  pending := nofun
  waiting := trivial
  truthful := nofun

theorem scoreInv_run (hi : ScoreInv an s) (hr : run (step an) s as = some t) : ScoreInv an t :=
  run_invariant' (fun _ _ _ hi hs => hi.step (step_cases hs)) hi hr

/-- A reply is not taken back. -/
theorem replies_step (hs : Stepped an s a t) : ∀ r ∈ s.replies, r ∈ t.replies := by
  intro r hr
  cases hs with
  | handled hc hl => cases hl <;> exact hr
  | cfgDone hc hp hd => exact List.mem_append_left _ hr
  | closed hc => exact List.mem_append_left _ hr
  | replied hc => exact List.mem_append_left _ hr
  | @returned _ _ _ _ _ _ _ u hc hcall =>
    obtain ⟨chain, rfl⟩ := call_eq_some hcall
    exact hr
  | @threw _ _ _ _ _ _ u hc hcall =>
    obtain ⟨chain, rfl⟩ := call_eq_some hcall
    exact hr
  | @applied c h hx =>
    have hcfg := (@applyCfg_same F A an (applyScore s h) h).2
    have hscore : (applyScore s h).replies = s.replies := applyScore_same.2.1
    exact (hcfg.trans hscore).symm ▸ hr
  | _ => exact hr

/-- **`set_threshold` tells the truth**, at once and ever after: whatever has
been replied of a line in a run is so in every state the run goes on to. The
writes are all there are of a stream's threshold: the last one is what it is. -/
theorem set_threshold_truthful (ht : run (step an) (start an) as = some t) (hu : run (step an) t bs = some u) :
    (∀ r ∈ t.replies, Truthful an u r.1 r.2.2) ∧ ∀ h < u.next, u.LastScore h := by
  have hi : ScoreInv an u := scoreInv_run (scoreInv_run .start ht) hu
  have hreplies : ∀ r ∈ t.replies, r ∈ u.replies := by
    intro r hr
    exact run_invariant' (I := fun s => r ∈ s.replies) (fun _ _ _ hr hs => replies_step (step_cases hs) r hr) hr hu
  exact ⟨fun r hr => hi.truthful r (hreplies r hr), hi.threshold⟩

/-- A runtime with no plugins, where every configuration is an empty object. -/
def bare : Native Rat Unit where
  ar := exact
  lib := { parse := fun _ => .ok (.obj []), dumpError := fun _ => "" }
  dump _ := utf8 "\x7b\x7d"
  plugins := []
  create _ _ := .error []
  trackEnabled := true
  keypoints := 17

abbrev bareAnalysis : Analysis Rat (StreamAnalyzer Rat Unit Unit Unit) := analysis bare

def addLine : Json :=
  .obj [("op", .str "add"), ("req", .str "1"), ("stream", .obj [("index", .int 0), ("url", .str "rtsp://camera")]),
    ("analyzers", .arr [.obj [("name", .str "pose_angle")]])]

/-- A threshold that is applied before a frame. -/
def thresholdRun : List Action :=
  let line := .obj [("op", .str "set_threshold"), ("req", .str "2"), ("stream_index", .int 0), ("value", .int 1)]
  [.line addLine .opened false, .pushReply, .line line .opened false, .enterFrame 0 0, .applyPending 0, .wake false,
    .pushReply]

theorem set_threshold_truthful_bare : ∃ t u, run (step bareAnalysis) (start bareAnalysis) thresholdRun = some t ∧
    run (step bareAnalysis) t [.endFrame 0] = some u ∧ t.replies.length = 2 ∧
    (∀ r ∈ t.replies, Truthful bareAnalysis u r.1 r.2.2) ∧ ∀ h < u.next, u.LastScore h := by
  have hrun : ∃ t, run (step bareAnalysis) (start bareAnalysis) thresholdRun = some t ∧ t.replies.length = 2 ∧
      (run (step bareAnalysis) t [.endFrame 0]).isSome = true := ⟨_, rfl, rfl, rfl⟩
  obtain ⟨t, ht, hreplies, hu⟩ := hrun
  obtain ⟨u, hu⟩ := Option.isSome_iff_exists.mp hu
  exact ⟨t, u, ht, hu, hreplies, set_threshold_truthful ht hu⟩

end RetailVision.NativeControls
