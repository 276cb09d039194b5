/-
The events of the zone analyzer for one track and one zone. A stay is what a
history of the track ends with: the frames, one after the other, in which it
was processed and was in the zone. The log is that of stays that have ended,
each an enter, at most one dwell and an exit that says how long it was, and of
the one that goes on (`stays_lawful`).
-/
import RetailVision.ZoneAnalyzer

set_option linter.all false

namespace RetailVision.Vb.ZoneAnalyzer

open Lib (after after_snoc)
open RetailVision.Analyzers (Zone)
open Loops (acts acts_append acts_times)

variable {F D : Type}

/-- The events of a stay that has ended. -/
structure Stay (F D : Type) [Num D] where
  enter : D × Event F D
  dwell : Option (D × Event F D)
  exit : D × Event F D
  enter_type : enter.2.type = .zoneEnter
  dwell_type : ∀ d ∈ dwell, d.2.type = .zoneDwell
  exit_type : exit.2.type = .zoneExit
  dwell_s : exit.2.dwellS = some (exit.1 - enter.1)

/-- The events of a stay that goes on. -/
structure OpenStay (F D : Type) where
  enter : D × Event F D
  dwell : Option (D × Event F D)
  enter_type : enter.2.type = .zoneEnter
  dwell_type : ∀ d ∈ dwell, d.2.type = .zoneDwell

def Stay.log [Num D] (s : Stay F D) : List (D × Event F D) := s.enter :: s.dwell.toList ++ [s.exit]

def OpenStay.log (s : OpenStay F D) : List (D × Event F D) := s.enter :: s.dwell.toList

/-- Every enter has its exit. -/
def Closed [Num D] (log : List (D × Event F D)) : Prop := ∃ stays : List (Stay F D), log = stays.flatMap Stay.log

/-- All but the last have. -/
def Grammar [Num D] (log : List (D × Event F D)) : Prop :=
  Closed log ∨ ∃ (stays : List (Stay F D)) (s : OpenStay F D), log = stays.flatMap Stay.log ++ s.log

section

variable [Num F] [Num D] (cfg : Cfg F D) (z : Zone F)

/-- The stay that a history ends with. -/
def stay (h : List (Act F D)) : List (Act F D) := h.rtakeWhile (inside z)

/-- A stay of this length is told of. -/
def Due (d : D) : Prop := cfg.minDwellS > 0.0 ∧ d ≥ cfg.minDwellS

/-- A dwell is told of with `a`, the first of its stay that is long enough. -/
def FirstDue (before : List (Act F D)) (a : Act F D) : Prop :=
  ∃ first rest, stay z (before ++ [a]) = first :: rest ∧ Due cfg (a.time - first.time) ∧
    ∀ v ∈ stay z before, ¬ Due cfg (v.time - first.time)

/-- What is kept of a stay that goes on. -/
structure Keeps (h : List (Act F D)) (first : Act F D) (s : ZState F D) : Prop where
  inside : s.inside = true
  enteredAt : s.enteredAt = first.time
  dwellFired : s.dwellFired = true ↔ ∃ v ∈ stay z h, Due cfg (v.time - first.time)

/-- What is kept, and has been told, after a history. -/
structure Inv (h : List (Act F D)) (x : Option (ZState F D) × List (D × Event F D)) : Prop where
  gone : stay z h = [] → (∀ s, x.1 = some s → s.inside = false) ∧ Closed x.2
  stays : ∀ first rest, stay z h = first :: rest → ∃ s, x.1 = some s ∧ Keeps cfg z h first s ∧
    ∃ (stays : List (Stay F D)) (now : OpenStay F D), x.2 = stays.flatMap Stay.log ++ now.log ∧
      now.enter.1 = first.time ∧ (now.dwell = none ↔ s.dwellFired = false)

variable {cfg z} {hist : List (Act F D)} {a first : Act F D} {x : Option (ZState F D) × List (D × Event F D)} {s : ZState F D}

omit [Num D] in
theorem stay_in (hin : inside z a = true) : stay z (hist ++ [a]) = stay z hist ++ [a] := List.rtakeWhile_concat_pos _ _ _ hin

omit [Num D] in
theorem stay_out (hout : inside z a = false) : stay z (hist ++ [a]) = [] := List.rtakeWhile_concat_neg _ _ _ (by simp [hout])

omit [Num D] in
theorem mem_of_stay {v : Act F D} (hv : v ∈ stay z hist) : v ∈ hist := (List.rtakeWhile_suffix _ _).subset hv

theorem inv_nil : Inv cfg z [] (none, []) where
  gone := fun _ => ⟨fun s hs => (by cases hs), [], rfl⟩
  stays := fun first rest hst => by cases hst

omit [Num F] in
theorem Closed.snoc {log : List (D × Event F D)} {stays : List (Stay F D)} {now : OpenStay F D}
    (hlog : log = stays.flatMap Stay.log ++ now.log) {t : D} {ev : Event F D} (htype : ev.type = .zoneExit)
    (hdwell : ev.dwellS = some (t - now.enter.1)) : Closed (log ++ [(t, ev)]) := by
  refine ⟨stays ++ [⟨now.enter, now.dwell, (t, ev), now.enter_type, now.dwell_type, htype, hdwell⟩], ?_⟩
  rw [hlog]
  simp [Stay.log, OpenStay.log]

/-! ## What a visit does -/

omit [Num F] in
theorem dwells_inside (hs : s.inside = true) (tr : Track F D) (now : D) : ∃ dwell : Option (Event F D),
    (∀ d ∈ dwell, d.type = .zoneDwell) ∧ (dwell.isSome = true ↔ s.dwellFired = false ∧ Due cfg (now - s.enteredAt)) ∧
      dwells cfg z s tr now = ({ s with dwellFired := s.dwellFired || dwell.isSome }, dwell.toList) := by
  by_cases hdue : s.dwellFired = false ∧ Due cfg (now - s.enteredAt)
  · refine ⟨some (emit z tr .zoneDwell (now - s.enteredAt)), fun d hd => by cases hd; rfl, by simpa using hdue, ?_⟩
    simp only [dwells]
    rw [if_pos ⟨hs, hdue.1, hdue.2.1, hdue.2.2⟩]
    simp
  · refine ⟨none, fun d hd => (by cases hd), by simpa using hdue, ?_⟩
    simp only [dwells]
    rw [if_neg fun hall => hdue ⟨hall.2.1, hall.2.2.1, hall.2.2.2⟩]
    simp

/-- The dwell of a frame, if there is one, is told of with the time of the frame. -/
def Dwells (t : D) (dwell : Option (D × Event F D)) : Prop := ∀ d ∈ dwell, d.1 = t ∧ d.2.type = .zoneDwell

omit [Num F] [Num D] in
theorem Dwells.of_event {t : D} {dwell : Option (Event F D)} (h : ∀ d ∈ dwell, d.type = .zoneDwell) :
    Dwells t (dwell.map (t, ·)) := by
  intro d hd
  obtain ⟨e, he, rfl⟩ := Option.map_eq_some_iff.mp hd
  exact ⟨rfl, h e he⟩

variable (cfg) in
/-- A track comes in. -/
theorem visit_enters (hin : inside z a = true) {o : Option (ZState F D)} (ho : ∀ s, o = some s → s.inside = false) :
    ∃ s' enter dwell, visit cfg z o a = (some s', (a.time, enter) :: dwell.toList) ∧ enter.type = .zoneEnter ∧
      Dwells a.time dwell ∧ s'.inside = true ∧ s'.enteredAt = a.time ∧ s'.dwellFired = dwell.isSome ∧
      (dwell.isSome = true ↔ Due cfg (a.time - a.time)) := by
  cases a with
  | remove tid t => cases hin
  | observe m tr =>
    have hnot : (o.getD (.new F D)).inside = false := by
      cases o with
      | none => rfl
      | some s => exact ho s rfl
    obtain ⟨s₁, hs₁⟩ : ∃ s₁ : ZState F D, s₁ = { o.getD (.new F D) with
      classId := tr.det.classId
      score := tr.det.score
      inside := true
      enteredAt := m.tMonoS
      dwellFired := false } := ⟨_, rfl⟩
    have hcrosses : crosses z { o.getD (.new F D) with classId := tr.det.classId, score := tr.det.score } tr true m.tMonoS =
        (s₁, [emit z tr .zoneEnter (-1.0)]) := by
      rw [crosses, if_pos ⟨rfl, hnot⟩, hs₁]
    obtain ⟨dwell, htype, hdue, hdwells⟩ := @dwells_inside F D _ cfg z s₁ (by rw [hs₁]) tr m.tMonoS
    have hentered : s₁.enteredAt = m.tMonoS := by rw [hs₁]
    have hfired : s₁.dwellFired = false := by rw [hs₁]
    refine ⟨{ s₁ with dwellFired := s₁.dwellFired || dwell.isSome }, emit z tr .zoneEnter (-1.0), dwell.map (m.tMonoS, ·),
      ?_, rfl, Dwells.of_event htype, by rw [hs₁], hentered, by simp [hfired], ?_⟩
    · simp only [visit, step, hin, hcrosses, hdwells, List.map_append, List.map_cons, List.map_nil, Option.toList_map]
      rfl
    · simpa [hentered, hfired, Act.time] using hdue

variable (cfg) in
/-- A track that is inside stays. -/
theorem visit_stays (hin : inside z a = true) (hs : s.inside = true) :
    ∃ s' dwell, visit cfg z (some s) a = (some s', dwell.toList) ∧ Dwells a.time dwell ∧ s'.inside = true ∧
      s'.enteredAt = s.enteredAt ∧ s'.dwellFired = (s.dwellFired || dwell.isSome) ∧
      (dwell.isSome = true ↔ s.dwellFired = false ∧ Due cfg (a.time - s.enteredAt)) := by
  cases a with
  | remove tid t => cases hin
  | observe m tr =>
    obtain ⟨s₁, hs₁⟩ : ∃ s₁ : ZState F D, s₁ = { s with classId := tr.det.classId, score := tr.det.score } := ⟨_, rfl⟩
    have hcrosses : crosses z s₁ tr true m.tMonoS = (s₁, []) := by simp [crosses, hs₁, hs]
    obtain ⟨dwell, htype, hdue, hdwells⟩ := @dwells_inside F D _ cfg z s₁ (by rw [hs₁]; exact hs) tr m.tMonoS
    have hentered : s₁.enteredAt = s.enteredAt := by rw [hs₁]
    have hfired : s₁.dwellFired = s.dwellFired := by rw [hs₁]
    refine ⟨{ s₁ with dwellFired := s₁.dwellFired || dwell.isSome }, dwell.map (m.tMonoS, ·),
      ?_, Dwells.of_event htype, by rw [hs₁]; exact hs, hentered, by simp [hfired], ?_⟩
    · simp only [visit, step, hin, Option.getD_some]
      rw [← hs₁, hcrosses]
      simp only [hdwells, List.nil_append, Option.toList_map]
    · simpa [hentered, hfired, Act.time] using hdue

variable (cfg) in
/-- A track that is inside goes out, or is removed. -/
theorem visit_leaves (hout : inside z a = false) (hs : s.inside = true) (htime : 0.0 ≤ a.time - s.enteredAt) :
    ∃ o ev, visit cfg z (some s) a = (o, [(a.time, ev)]) ∧ (∀ s', o = some s' → s'.inside = false) ∧
      ev.type = .zoneExit ∧ ev.dwellS = some (a.time - s.enteredAt) := by
  cases a with
  | remove tid t =>
    refine ⟨none, ⟨.zoneExit, z.id, some (t - s.enteredAt), s.classId, s.score⟩, ?_, fun s' hs' => (by cases hs'), rfl, rfl⟩
    simp only [visit, remove, hs, if_true]
    rfl
  | observe m tr =>
    refine ⟨some { s with classId := tr.det.classId, score := tr.det.score, inside := false },
      emit z tr .zoneExit (m.tMonoS - s.enteredAt), ?_, ?_, rfl, ?_⟩
    · simp only [visit, step, crosses, dwells, hout, hs, Option.getD_some, Bool.false_eq_true, false_and, if_false, and_self, if_true]
      rfl
    · intro s' hs'
      cases hs'
      rfl
    · exact if_pos htime

variable (cfg) in
/-- A track that is outside stays there, or is removed. -/
theorem visit_passes (hout : inside z a = false) {o : Option (ZState F D)} (ho : ∀ s, o = some s → s.inside = false) :
    ∃ o', visit cfg z o a = (o', []) ∧ ∀ s, o' = some s → s.inside = false := by
  cases a with
  | remove tid t =>
    refine ⟨none, ?_, fun s hs => by cases hs⟩
    cases o with
    | none => rfl
    | some s => simp [visit, remove, ho s rfl]
  | observe m tr =>
    have hnot : (o.getD (.new F D)).inside = false := by
      cases o with
      | none => rfl
      | some s => exact ho s rfl
    refine ⟨some { o.getD (.new F D) with classId := tr.det.classId, score := tr.det.score }, ?_, fun s hs => ?_⟩
    · simp only [visit, step, crosses, dwells, hout, hnot, Bool.false_eq_true, false_and, and_true, if_false]
      rfl
    · cases hs
      exact hnot

/-! ## Runs -/

omit [Num F] [Num D] in
theorem Dwells.told {t : D} {dwell : Option (D × Event F D)} (h : Dwells t dwell) :
    (∃ ev ∈ dwell.toList, ev.2.type = .zoneDwell) ↔ dwell.isSome = true := by
  cases dwell with
  | none => simp
  | some d => simpa using (h d rfl).2

theorem Keeps.length_nonneg (hkeeps : Keeps cfg z hist first s) (hord : Num.Ordered D) (htimes : ∀ v ∈ hist, v.time ≤ a.time) {rest : List (Act F D)}
    (hst : stay z hist = first :: rest) : 0.0 ≤ a.time - s.enteredAt := by
  have hmem : first ∈ hist := mem_of_stay (by rw [hst]; exact List.mem_cons_self)
  rw [hkeeps.enteredAt]
  exact hord.sub_nonneg _ _ (htimes first hmem)

/-- When a visit is told of as a dwell. -/
theorem Inv.visit_dwell (hord : Num.Ordered D) (h : Inv cfg z hist x) (htimes : ∀ v ∈ hist, v.time ≤ a.time) :
    (∃ ev ∈ (visit cfg z x.1 a).2, ev.2.type = .zoneDwell) ↔ FirstDue cfg z hist a := by
  cases hin : inside z a with
  | true =>
    have hstay : stay z (hist ++ [a]) = stay z hist ++ [a] := stay_in hin
    cases hst : stay z hist with
    | nil =>
      obtain ⟨s', enter, dwell, hvisit, htype, hdwell, -, -, -, hdue⟩ := visit_enters cfg hin (h.gone hst).1
      rw [hst, List.nil_append] at hstay
      have htold : (∃ ev ∈ (visit cfg z x.1 a).2, ev.2.type = .zoneDwell) ↔ dwell.isSome = true := by
        rw [hvisit, ← hdwell.told]
        simp [htype]
      rw [htold, hdue]
      simp only [FirstDue, hstay, hst]
      constructor
      · intro hd
        exact ⟨a, [], rfl, hd, fun v hv => by cases hv⟩
      · intro hfirst
        obtain ⟨first, rest, he, hd, -⟩ := hfirst
        cases he
        exact hd
    | cons first rest =>
      obtain ⟨s, hx, hkeeps, -⟩ := h.stays first rest hst
      obtain ⟨s', dwell, hvisit, hdwell, -, -, -, hdue⟩ := visit_stays cfg hin hkeeps.inside
      rw [hx, hvisit, hdwell.told, hdue, hkeeps.enteredAt]
      have hfired : s.dwellFired = false ↔ ∀ v ∈ stay z hist, ¬ Due cfg (v.time - first.time) := by
        rw [← Bool.not_eq_true, hkeeps.dwellFired]
        simp
      rw [hfired]
      simp only [FirstDue, hstay, hst]
      constructor
      · intro hd
        exact ⟨first, rest ++ [a], rfl, hd.2, hd.1⟩
      · intro hfirst
        obtain ⟨first', rest', he, hd, hnone⟩ := hfirst
        cases he
        exact ⟨hnone, hd⟩
  | false =>
    have hstay : stay z (hist ++ [a]) = [] := stay_out hin
    have hnot : ¬ FirstDue cfg z hist a := by
      intro hfirst
      obtain ⟨first, rest, he, -⟩ := hfirst
      rw [hstay] at he
      cases he
    refine iff_of_false (fun htold => ?_) hnot
    obtain ⟨ev, hev, htype⟩ := htold
    cases hst : stay z hist with
    | nil =>
      obtain ⟨o, hvisit, -⟩ := visit_passes cfg hin (h.gone hst).1
      rw [hvisit] at hev
      cases hev
    | cons first rest =>
      obtain ⟨s, hx, hkeeps, -⟩ := h.stays first rest hst
      obtain ⟨o, exit, hvisit, -, hexit, -⟩ := visit_leaves cfg hin hkeeps.inside (hkeeps.length_nonneg hord htimes hst)
      rw [hx, hvisit, List.mem_singleton] at hev
      rw [hev, hexit] at htype
      cases htype

/-- **One visit** keeps what is remembered in step with the history. -/
theorem Inv.visit (hord : Num.Ordered D) (h : Inv cfg z hist x) (htimes : ∀ v ∈ hist, v.time ≤ a.time) :
    Inv cfg z (hist ++ [a]) ((visit cfg z x.1 a).1, x.2 ++ (visit cfg z x.1 a).2) := by
  cases hin : inside z a with
  | true =>
    have hstay : stay z (hist ++ [a]) = stay z hist ++ [a] := stay_in hin
    cases hst : stay z hist with
    | nil =>
      obtain ⟨hgone, stays, hlog⟩ := h.gone hst
      obtain ⟨s', enter, dwell, hvisit, htype, hdwell, hs', hentered, hfired, hdue⟩ := visit_enters cfg hin hgone
      rw [hst, List.nil_append] at hstay
      refine ⟨fun hnil => (by rw [hstay] at hnil; cases hnil), fun first rest hfirst => ?_⟩
      rw [hstay] at hfirst
      cases hfirst
      rw [hvisit]
      refine ⟨s', rfl, ⟨hs', hentered, ?_⟩, stays, ⟨(a.time, enter), dwell, htype, fun d hd => (hdwell d hd).2⟩, ?_, rfl, ?_⟩
      · rw [hstay, hfired, hdue]
        simp
      · rw [hlog]
        rfl
      · rw [hfired]
        cases dwell <;> simp
    | cons first rest =>
      obtain ⟨s, hx, hkeeps, stays, now, hlog, hnow, hopen⟩ := h.stays first rest hst
      obtain ⟨s', dwell, hvisit, hdwell, hs', hentered, hfired, hdue⟩ := visit_stays cfg hin hkeeps.inside
      rw [hst, List.cons_append] at hstay
      refine ⟨fun hnil => (by rw [hstay] at hnil; cases hnil), fun first' rest' hfirst => ?_⟩
      rw [hstay] at hfirst
      cases hfirst
      rw [hx, hvisit]
      have hkeeps' : s'.dwellFired = true ↔ ∃ v ∈ stay z (hist ++ [a]), Due cfg (v.time - first.time) := by
        rw [hfired, Bool.or_eq_true, hkeeps.dwellFired, hdue, hkeeps.enteredAt, stay_in hin, ← Bool.not_eq_true, hkeeps.dwellFired]
        simp only [List.mem_append, List.mem_singleton]
        constructor
        · intro hd
          obtain ⟨v, hv, hd⟩ | ⟨-, hd⟩ := hd
          · exact ⟨v, .inl hv, hd⟩
          · exact ⟨a, .inr rfl, hd⟩
        · intro hd
          obtain ⟨v, hv | rfl, hd⟩ := hd
          · exact .inl ⟨v, hv, hd⟩
          · exact or_iff_not_imp_left.mpr fun hnone => ⟨hnone, hd⟩
      refine ⟨s', rfl, ⟨hs', hentered.trans hkeeps.enteredAt, hkeeps'⟩, stays, ?_⟩
      cases dwell with
      | none =>
        refine ⟨now, ?_, hnow, ?_⟩
        · simpa using hlog
        · rw [hfired]
          simpa using hopen
      | some d =>
        have hnone : now.dwell = none := hopen.mpr (hdue.mp rfl).1
        refine ⟨⟨now.enter, some d, now.enter_type, fun e he => ?_⟩, ?_, hnow, ?_⟩
        · cases he
          exact (hdwell d rfl).2
        · rw [hlog]
          simp [OpenStay.log, hnone]
        · rw [hfired]
          simp
  | false =>
    have hstay : stay z (hist ++ [a]) = [] := stay_out hin
    refine ⟨fun _ => ?_, fun first rest hfirst => by rw [hstay] at hfirst; cases hfirst⟩
    cases hst : stay z hist with
    | nil =>
      obtain ⟨hgone, hclosed⟩ := h.gone hst
      obtain ⟨o, hvisit, ho⟩ := visit_passes cfg hin hgone
      rw [hvisit, List.append_nil]
      exact ⟨ho, hclosed⟩
    | cons first rest =>
      obtain ⟨s, hx, hkeeps, stays, now, hlog, hnow, -⟩ := h.stays first rest hst
      obtain ⟨o, exit, hvisit, ho, hexit, hlength⟩ :=
        visit_leaves cfg hin hkeeps.inside (hkeeps.length_nonneg hord htimes hst)
      rw [hx, hvisit]
      refine ⟨ho, Closed.snoc hlog hexit ?_⟩
      rw [hlength, hkeeps.enteredAt, hnow]

/-- What is remembered after a run of visits. -/
theorem inv_after (hord : Num.Ordered D) {as : List (Act F D)} (htimes : as.Pairwise (·.time ≤ ·.time)) :
    Inv cfg z as (after (visit cfg z) (none, []) as) := by
  induction as using List.reverseRecOn with
  | nil => exact inv_nil
  | append_singleton as a ih =>
    obtain ⟨hbefore, -, hlast⟩ := List.pairwise_append.mp htimes
    rw [after_snoc]
    exact (ih hbefore).visit hord fun v hv => hlast v hv a (List.mem_singleton_self a)

omit [Num F] in
/-- The times of the visits are those of the calls. -/
theorem times_visits (hord : Num.Ordered D) {calls : List (AnalyzerCall F D)}
    (htimes : (calls.map AnalyzerCall.time).Pairwise (· ≤ ·)) (tid : UInt32) :
    (visits cfg tid calls).Pairwise (·.time ≤ ·.time) :=
  List.Pairwise.filter _ (acts_times hord.refl htimes)

/-- **The events of a track in a zone** are those of stays: each an enter, at
most one dwell, and an exit that says how long the stay was; a dwell is told of
with the first frame of the stay that makes it long enough, and with no other;
and once the track is removed, the last of them has its exit. -/
theorem stays_lawful (hord : Num.Ordered D) {zi : Nat} (hz : cfg.zones[zi]? = some z) {calls : List (AnalyzerCall F D)}
    (htimes : (calls.map AnalyzerCall.time).Pairwise (· ≤ ·)) (tid : UInt32) :
    let log := logOf zi tid (run cfg (start cfg, []) calls).2
    log = (after (visit cfg z) (none, []) (visits cfg tid calls)).2 ∧ Grammar log ∧
      (∀ before a more, visits cfg tid calls = before ++ a :: more →
        ((∃ ev ∈ (visit cfg z (after (visit cfg z) (none, []) before).1 a).2, ev.2.type = .zoneDwell) ↔ FirstDue cfg z before a)) ∧
      ((∃ init t, calls = init ++ [.onTrackRemoved tid t]) → Closed log) := by
  intro log
  have hvisits : (visits cfg tid calls).Pairwise (·.time ≤ ·.time) := times_visits hord htimes tid
  have hlog : log = (after (visit cfg z) (none, []) (visits cfg tid calls)).2 := run_visits hz tid calls
  have hinv : Inv cfg z (visits cfg tid calls) (after (visit cfg z) (none, []) (visits cfg tid calls)) := inv_after hord hvisits
  refine ⟨hlog, ?_, fun before a more he => ?_, fun hremoved => ?_⟩
  · rw [hlog]
    cases hst : stay z (visits cfg tid calls) with
    | nil => exact .inl (hinv.gone hst).2
    | cons first rest =>
      obtain ⟨s, -, -, stays, now, hopen, -⟩ := hinv.stays first rest hst
      exact .inr ⟨stays, now, hopen⟩
  · rw [he] at hvisits
    obtain ⟨hbefore, -, hlast⟩ := List.pairwise_append.mp hvisits
    exact (inv_after hord hbefore).visit_dwell hord fun v hv => hlast v hv a List.mem_cons_self
  · obtain ⟨init, t, rfl⟩ := hremoved
    have hlast : visits cfg tid (init ++ [.onTrackRemoved tid t]) = visits cfg tid init ++ [.remove tid t] := by
      simp [visits, acts_append, acts, Act.tid]
    rw [hlog]
    rw [hlast] at hinv ⊢
    exact (hinv.gone (stay_out rfl)).2

end

/-- One zone, which is the whole frame. -/
def lobby : Cfg ℚ ℚ where
  zones := [{ id := "lobby", poly := [(0, 0), (1, 0), (1, 1), (0, 1)] }]
  minDwellS := 5
  classes := []

/-- A track that is there for eight seconds, in three frames. -/
def comesAndGoes : List (AnalyzerCall ℚ ℚ) :=
  [frameAt 1 [trackAt 7 1 0.5 0.5], frameAt 4 [trackAt 7 4 0.5 0.5], frameAt 7 [trackAt 7 7 0.5 0.5], .onTrackRemoved 7 9]

theorem stays_lawful_lobby : Closed (logOf 0 7 (run lobby (start lobby, []) comesAndGoes).2) ∧
    (logOf 0 7 (run lobby (start lobby, []) comesAndGoes).2).map (fun ev => (ev.1, ev.2.type, ev.2.dwellS)) =
      [(1, .zoneEnter, none), (7, .zoneDwell, some 6), (9, .zoneExit, some 8)] :=
  ⟨(stays_lawful Num.ordered_rat rfl (by decide +kernel) 7).2.2.2 ⟨comesAndGoes.take 3, 9, rfl⟩, by decide +kernel⟩

end RetailVision.Vb.ZoneAnalyzer
