/-
The events of the dwell analyzer for one track. A stay is what a history of the
track ends with: a frame, its entry, and the frames since, in which the track
was in the entry's zone and within the radius of it. The log is that of dwells
that have ended, each a start, updates and an end, and of the one that goes on;
a start is told of in a stay that is long enough, and the end with what breaks
the stay (`dwells_lawful`).
-/
import RetailVision.DwellAnalyzer
import Mathlib.Data.List.Chain

set_option linter.all false

namespace RetailVision.Vb.DwellAnalyzer

open Lib (after after_snoc)
open Motion (Root visits timed run_visits times_visits)

variable {F D : Type}

section

variable [Num D] (repeatS : D)

/-- The events of a dwell that goes on. -/
structure OpenDwell (F : Type) where
  start : D × Event F D
  updates : List (D × Event F D)
  start_type : start.2.type = .dwellStart
  update_type : ∀ ev ∈ updates, ev.2.type = .dwellUpdate
  /-- one that is told of after another is later by `repeatS` -/
  spaced : (start :: updates).IsChain fun ev next => repeatS ≤ next.1 - ev.1

/-- The events of a dwell that has ended. -/
structure Dwell (F : Type) extends OpenDwell repeatS F where
  finish : D × Event F D
  finish_type : finish.2.type = .dwellEnd

variable {repeatS}

def OpenDwell.log (w : OpenDwell repeatS F) : List (D × Event F D) := w.start :: w.updates

def Dwell.log (w : Dwell repeatS F) : List (D × Event F D) := w.toOpenDwell.log ++ [w.finish]

/-- The event that was told of last. -/
def OpenDwell.latest (w : OpenDwell repeatS F) : D × Event F D := (w.start :: w.updates).getLast (by simp)

variable (repeatS)

/-- Every start has its end. -/
def Closed (log : List (D × Event F D)) : Prop := ∃ dwells : List (Dwell repeatS F), log = dwells.flatMap Dwell.log

/-- All but the last have. -/
def Opened (log : List (D × Event F D)) : Prop := ∃ (dwells : List (Dwell repeatS F)) (w : OpenDwell repeatS F),
  log = dwells.flatMap Dwell.log ++ w.log

/-- The dwell that goes on was told of as one that began with `entry`. -/
def OpenedIn (entry : Act F D) (log : List (D × Event F D)) : Prop := ∃ (dwells : List (Dwell repeatS F)) (w : OpenDwell repeatS F),
  log = dwells.flatMap Dwell.log ++ w.log ∧ w.start.2.dwellS = w.start.1 - entry.time

def Grammar (log : List (D × Event F D)) : Prop := Closed repeatS log ∨ Opened repeatS log

variable {repeatS} {log : List (D × Event F D)} {dwells : List (Dwell repeatS F)} {w : OpenDwell repeatS F} {ev : D × Event F D}

theorem closed_nil : Closed repeatS ([] : List (D × Event F D)) := ⟨[], rfl⟩

variable (ev) in
theorem Closed.start (h : Closed repeatS log) (htype : ev.2.type = .dwellStart) : ∃ (dwells : List (Dwell repeatS F))
    (w : OpenDwell repeatS F), log ++ [ev] = dwells.flatMap Dwell.log ++ w.log ∧ w.latest = ev ∧ w.start = ev := by
  obtain ⟨dwells, rfl⟩ := h
  refine ⟨dwells, ⟨ev, [], htype, fun u hu => ?_, .singleton ev⟩, rfl, rfl, rfl⟩
  cases hu

variable (ev) in
theorem OpenDwell.update (hlog : log = dwells.flatMap Dwell.log ++ w.log) (htype : ev.2.type = .dwellUpdate)
    (hspaced : repeatS ≤ ev.1 - w.latest.1) :
    ∃ w' : OpenDwell repeatS F, log ++ [ev] = dwells.flatMap Dwell.log ++ w'.log ∧ w'.latest = ev ∧ w'.start = w.start := by
  have hchain : (w.start :: (w.updates ++ [ev])).IsChain fun ev next => repeatS ≤ next.1 - ev.1 := by
    rw [← List.cons_append]
    refine List.isChain_append.mpr ⟨w.spaced, .singleton ev, fun u hu v hv => ?_⟩
    obtain rfl : w.latest = u := by
      rw [List.getLast?_eq_some_getLast (by simp)] at hu
      exact Option.some.inj hu
    cases hv
    exact hspaced
  refine ⟨⟨w.start, w.updates ++ [ev], w.start_type, fun u hu => ?_, hchain⟩, ?_, ?_, rfl⟩
  · obtain hu | hu := List.mem_append.mp hu
    · exact w.update_type u hu
    · rw [List.mem_singleton.mp hu]
      exact htype
  · rw [hlog]
    simp [OpenDwell.log]
  · simp [OpenDwell.latest]

theorem Opened.finish (h : Opened repeatS log) (htype : ev.2.type = .dwellEnd) : Closed repeatS (log ++ [ev]) := by
  obtain ⟨dwells, w, rfl⟩ := h
  refine ⟨dwells ++ [⟨w, ev, htype⟩], ?_⟩
  simp [Dwell.log]

/-- A log is of one kind or the other. -/
theorem Closed.not_opened (h : Closed repeatS log) : ¬ Opened repeatS log := by
  intro hopened
  obtain ⟨dwells', w, hw⟩ := hopened
  obtain ⟨dwells, hlog⟩ := h
  have hlast : w.latest.2.type ≠ .dwellEnd := by
    obtain hmem | hmem := List.mem_cons.mp (List.getLast_mem (by simp : w.start :: w.updates ≠ []))
    · rw [OpenDwell.latest, hmem, w.start_type]
      decide
    · rw [OpenDwell.latest, w.update_type _ hmem]
      decide
  have hopen : log.getLast? = some w.latest := by
    rw [hw, List.getLast?_append_of_ne_nil _ (by simp [OpenDwell.log])]
    exact List.getLast?_eq_some_getLast _
  cases dwells using List.reverseRecOn with
  | nil =>
    rw [hlog] at hopen
    cases hopen
  | append_singleton dwells d =>
    have hend : log.getLast? = some d.finish := by
      rw [hlog]
      simp [Dwell.log]
    rw [hend] at hopen
    exact hlast (Option.some.inj hopen ▸ d.finish_type)

end

section

variable [Num F] [Root F] [Num D] (cfg : Cfg F D)

/-- The place of a track, in a frame in which it is processed. -/
def place : Act F D → Option (Place F)
  | .observe m tr => some (placeOf cfg m tr)
  | .remove _ _ => none

/-- A visit that a stay with this entry does not go on with: the track is
removed, has left the zone, or has moved. -/
def Breaks (entry a : Act F D) : Prop :=
  match place cfg entry, place cfg a with
  | some p, some q => Left cfg p q ∨ Moved cfg p q
  | _, _ => True

instance (entry a : Act F D) : Decidable (Breaks cfg entry a) := by
  unfold Breaks
  split <;> infer_instance

/-- In the entry's zone, and not beyond the radius of it. -/
def Near (entry a : Act F D) : Prop :=
  ∃ p q, place cfg entry = some p ∧ place cfg a = some q ∧ q.zone = p.zone ∧ ¬ distance p q > cfg.radius

/-- The stay that begins with a visit; a removal is not the beginning of one. -/
def opens : Act F D → Option (Act F D × List (Act F D))
  | .observe m tr => some (.observe m tr, [])
  | .remove _ _ => none

def stayStep (st : Option (Act F D × List (Act F D))) (a : Act F D) : Option (Act F D × List (Act F D)) :=
  match st with
  | none => opens a
  | some (entry, rest) => if Breaks cfg entry a then opens a else some (entry, rest ++ [a])

/-- The stay that a history ends with: its entry, and the frames since. -/
def stay (h : List (Act F D)) : Option (Act F D × List (Act F D)) := h.foldl (stayStep cfg) none

/-- A stay of which it is told with `a` that it has lasted for `d`. -/
def Stayed (before : List (Act F D)) (a : Act F D) (d : D) : Prop :=
  ∃ earlier entry rest, before = earlier ++ entry :: rest ∧ (∀ v ∈ earlier, v.time ≤ entry.time) ∧
    (∀ v ∈ rest ++ [a], Near cfg entry v) ∧ d = a.time - entry.time ∧ cfg.minDwellS ≤ d

/-- What is kept, and has been told, after a history. -/
structure Inv (h : List (Act F D)) (x : Option (St F D) × List (D × Event F D)) : Prop where
  gone : stay cfg h = none → x.1 = none ∧ Closed cfg.repeatS x.2
  stays : ∀ entry rest, stay cfg h = some (entry, rest) → ∃ s, x.1 = some s ∧ place cfg entry = some s.entry ∧ s.t0 = entry.time ∧
    (s.active = false → Closed cfg.repeatS x.2) ∧
    (s.active = true → ∃ (dwells : List (Dwell cfg.repeatS F)) (w : OpenDwell cfg.repeatS F),
      x.2 = dwells.flatMap Dwell.log ++ w.log ∧ w.start.2.dwellS = w.start.1 - entry.time ∧ w.latest.1 = s.last)

variable {cfg} {hist : List (Act F D)} {entry a : Act F D} {rest : List (Act F D)} {s : St F D}
  {x : Option (St F D) × List (D × Event F D)}

omit [Num D] in
theorem stay_snoc : stay cfg (hist ++ [a]) = stayStep cfg (stay cfg hist) a := by
  rw [stay, List.foldl_append]
  rfl

omit [Num D] in
theorem stay_begins (h : stay cfg hist = none) : stay cfg (hist ++ [a]) = opens a := by
  rw [stay_snoc, h]
  rfl

omit [Num D] in
theorem stay_breaks (h : stay cfg hist = some (entry, rest)) (hb : Breaks cfg entry a) : stay cfg (hist ++ [a]) = opens a := by
  rw [stay_snoc, h]
  exact if_pos hb

omit [Num D] in
theorem stay_goes_on (h : stay cfg hist = some (entry, rest)) (hb : ¬ Breaks cfg entry a) :
    stay cfg (hist ++ [a]) = some (entry, rest ++ [a]) := by
  rw [stay_snoc, h]
  exact if_neg hb

omit [Num D] in
theorem breaks_observe {p : Place F} (hplace : place cfg entry = some p) {m : FrameMeta F D} {tr : Track F D} :
    Breaks cfg entry (.observe m tr) ↔ Left cfg p (placeOf cfg m tr) ∨ Moved cfg p (placeOf cfg m tr) := by
  rw [Breaks, hplace]
  rfl

omit [Num D] in
theorem near_of_not_breaks (h : ¬ Breaks cfg entry a) : Near cfg entry a := by
  rw [Breaks] at h
  split at h
  · next p q hp hq =>
    obtain ⟨hleft, hmoved⟩ := not_or.mp h
    exact ⟨p, q, hp, hq, not_not.mp fun hzone => hleft (.inr hzone), hmoved⟩
  · exact absurd trivial h

omit [Num F] [Root F] [Num D] in
theorem opens_spec (h : opens a = some (entry, rest)) : entry = a ∧ rest = [] := by
  cases a with
  | remove tid t => cases h
  | observe m tr =>
    cases h
    exact ⟨rfl, rfl⟩

omit [Num D] in
/-- The frames of a stay are near its entry, one after the other. -/
theorem stay_spec (h : stay cfg hist = some (entry, rest)) : ∃ earlier, hist = earlier ++ entry :: rest ∧ ∀ v ∈ rest, Near cfg entry v := by
  induction hist using List.reverseRecOn generalizing entry rest with
  | nil => cases h
  | append_singleton init b ih =>
    cases hst : stay cfg init with
    | none =>
      rw [stay_begins hst] at h
      obtain ⟨rfl, rfl⟩ := opens_spec h
      exact ⟨init, rfl, fun v hv => by cases hv⟩
    | some st =>
      obtain ⟨entry', rest'⟩ := st
      by_cases hb : Breaks cfg entry' b
      · rw [stay_breaks hst hb] at h
        obtain ⟨rfl, rfl⟩ := opens_spec h
        exact ⟨init, rfl, fun v hv => by cases hv⟩
      · rw [stay_goes_on hst hb] at h
        cases h
        obtain ⟨earlier, rfl, hnear⟩ := ih hst
        refine ⟨earlier, by simp, fun v hv => ?_⟩
        obtain hv | hv := List.mem_append.mp hv
        · exact hnear v hv
        · rw [List.mem_singleton.mp hv]
          exact near_of_not_breaks hb

/-! ## What a visit does -/

variable (cfg) in
/-- What is kept of a track that comes into the picture, or begins a new stay. -/
def entered (a : Act F D) : Option (St F D) := (place cfg a).map fun p => .enter p a.time

theorem visit_none (a : Act F D) : visit cfg none a = (entered cfg a, []) := by
  cases a <;> rfl

theorem visit_breaks (hplace : place cfg entry = some s.entry) (h : Breaks cfg entry a) :
    ∃ reason, visit cfg (some s) a = (entered cfg a, s.ends a.time reason) := by
  cases a with
  | remove tid t => exact ⟨.lost, rfl⟩
  | observe m tr =>
    have hbreaks := (breaks_observe hplace).mp h
    by_cases hleft : Left cfg s.entry (placeOf cfg m tr)
    · exact ⟨.leftZone, by simp [visit, observe, hleft, entered, place, Act.time]⟩
    · have hmoved := hbreaks.resolve_left hleft
      exact ⟨.moved, by simp [visit, observe, hleft, hmoved, entered, place, Act.time]⟩

/-- A track that stays: a dwell is told of first, or again, or nothing is. -/
theorem visit_stays (hplace : place cfg entry = some s.entry) (h : ¬ Breaks cfg entry a) :
    (s.active = false ∧ cfg.minDwellS ≤ a.time - s.t0 ∧ ∃ ev, ev.type = .dwellStart ∧ ev.dwellS = a.time - s.t0 ∧
        visit cfg (some s) a = (some { s with active := true, last := a.time }, [ev])) ∨
      (s.active = true ∧ cfg.repeatS ≤ a.time - s.last ∧ ∃ ev, ev.type = .dwellUpdate ∧
        visit cfg (some s) a = (some { s with last := a.time }, [ev])) ∨
      visit cfg (some s) a = (some s, []) := by
  cases a with
  | remove tid t => exact absurd (by rw [Breaks, hplace]; trivial) h
  | observe m tr =>
    obtain ⟨hleft, hmoved⟩ := not_or.mp ((breaks_observe hplace).not.mp h)
    have hvisit : visit cfg (some s) (.observe m tr) =
        (some (s.stay cfg (placeOf cfg m tr) tr m.tMonoS).1, (s.stay cfg (placeOf cfg m tr) tr m.tMonoS).2) := by
      simp [visit, observe, hleft, hmoved]
    rw [hvisit, St.stay]
    split
    · next hstart => exact .inl ⟨hstart.1, hstart.2, _, rfl, rfl, rfl⟩
    · split
      · next hupdate => exact .inr (.inl ⟨hupdate.1, hupdate.2.2, _, rfl, rfl⟩)
      · exact .inr (.inr rfl)

/-! ## Runs -/

omit [Num F] [Root F] in
theorem ends_inactive {t : D} {reason : Reason} (h : s.active = false) : s.ends t reason = [] := by
  simp [St.ends, h]

omit [Num F] [Root F] in
theorem ends_active {t : D} {reason : Reason} (h : s.active = true) : s.ends t reason = [.dwellEnd (t - s.t0) reason] := by
  simp [St.ends, h]

theorem inv_opens {log : List (D × Event F D)} (hst : stay cfg hist = opens a) (hclosed : Closed cfg.repeatS log) :
    Inv cfg hist (entered cfg a, log) := by
  cases a with
  | remove tid t =>
    refine ⟨fun _ => ⟨rfl, hclosed⟩, fun entry rest h => ?_⟩
    rw [hst] at h
    cases h
  | observe m tr =>
    refine ⟨fun h => ?_, fun entry rest h => ?_⟩
    · rw [hst] at h
      cases h
    · rw [hst] at h
      cases h
      refine ⟨.enter (placeOf cfg m tr) m.tMonoS, rfl, rfl, rfl, fun _ => hclosed, fun hactive => ?_⟩
      cases hactive

/-- **One visit** keeps what is remembered in step with the history. -/
theorem Inv.visit (h : Inv cfg hist x) : Inv cfg (hist ++ [a])
    ((timed (visit cfg) x.1 a).1, x.2 ++ (timed (visit cfg) x.1 a).2) := by
  cases hst : stay cfg hist with
  | none =>
    obtain ⟨hgone, hclosed⟩ := h.gone hst
    rw [timed, hgone, visit_none]
    simpa using inv_opens (stay_begins hst) hclosed
  | some st =>
    obtain ⟨entry, rest⟩ := st
    obtain ⟨s, hx, hplace, ht0, hinactive, hactive⟩ := h.stays entry rest hst
    rw [hx]
    by_cases hb : Breaks cfg entry a
    · obtain ⟨reason, hvisit⟩ := visit_breaks hplace hb
      rw [timed, hvisit]
      refine inv_opens (stay_breaks hst hb) ?_
      cases ha : s.active with
      | false => simpa [ends_inactive ha] using hinactive ha
      | true =>
        obtain ⟨dwells, w, hlog, -⟩ := hactive ha
        rw [ends_active ha]
        exact Opened.finish ⟨dwells, w, hlog⟩ rfl
    · have hst' := stay_goes_on hst hb
      refine ⟨fun hnone => (by rw [hst'] at hnone; cases hnone), fun entry' rest' hsome => ?_⟩
      rw [hst'] at hsome
      cases hsome
      obtain ⟨ha, -, ev, htype, hlength, hvisit⟩ | ⟨ha, hlater, ev, htype, hvisit⟩ | hvisit := visit_stays hplace hb
      · rw [timed, hvisit]
        obtain ⟨dwells, w, hlog, hlatest, hstart⟩ := (hinactive ha).start (a.time, ev) htype
        refine ⟨{ s with active := true, last := a.time }, rfl, hplace, ht0, fun hfalse => (by cases hfalse), fun _ => ?_⟩
        exact ⟨dwells, w, hlog, by rw [hstart, hlength, ht0], by rw [hlatest]⟩
      · rw [timed, hvisit]
        obtain ⟨dwells, w, hlog, hsince, hlast⟩ := hactive ha
        obtain ⟨w', hlog', hlatest, hstart⟩ := OpenDwell.update (a.time, ev) hlog htype (by rw [hlast]; exact hlater)
        refine ⟨{ s with last := a.time }, rfl, hplace, ht0, fun hfalse => ?_, fun _ => ?_⟩
        · exact absurd (ha.symm.trans hfalse) (by simp)
        · exact ⟨dwells, w', hlog', by rw [hstart]; exact hsince, by rw [hlatest]⟩
      · rw [timed, hvisit]
        exact ⟨s, rfl, hplace, ht0, by simpa using hinactive, by simpa using hactive⟩

theorem inv_after (as : List (Act F D)) : Inv cfg as (after (timed (visit cfg)) (none, []) as) := by
  induction as using List.reverseRecOn with
  | nil => exact ⟨fun _ => ⟨rfl, closed_nil⟩, fun entry rest h => by cases h⟩
  | append_singleton as a ih =>
    rw [after_snoc]
    exact ih.visit

theorem Inv.grammar (h : Inv cfg hist x) : Grammar cfg.repeatS x.2 := by
  cases hst : stay cfg hist with
  | none => exact .inl (h.gone hst).2
  | some st =>
    obtain ⟨s, -, -, -, hinactive, hactive⟩ := h.stays st.1 st.2 hst
    cases ha : s.active with
    | false => exact .inl (hinactive ha)
    | true =>
      obtain ⟨dwells, w, hlog, -⟩ := hactive ha
      exact .inr ⟨dwells, w, hlog⟩

/-- What a start says. -/
theorem Inv.told_start (h : Inv cfg hist x) (htimes : hist.Pairwise (·.time ≤ ·.time)) {ev : Event F D}
    (hev : ev ∈ (DwellAnalyzer.visit cfg x.1 a).2) (htype : ev.type = .dwellStart) : Stayed cfg hist a ev.dwellS := by
  cases hst : stay cfg hist with
  | none =>
    rw [(h.gone hst).1, visit_none] at hev
    cases hev
  | some st =>
    obtain ⟨entry, rest⟩ := st
    obtain ⟨s, hx, hplace, ht0, -, -⟩ := h.stays entry rest hst
    rw [hx] at hev
    by_cases hb : Breaks cfg entry a
    · obtain ⟨reason, hvisit⟩ := visit_breaks hplace hb
      rw [hvisit, St.ends] at hev
      split at hev
      · rw [List.mem_singleton.mp hev] at htype
        cases htype
      · cases hev
    · obtain ⟨-, hlong, ev', -, hlength, hvisit⟩ | ⟨-, -, ev', hupdate, hvisit⟩ | hvisit := visit_stays hplace hb
      · rw [hvisit] at hev
        obtain rfl := List.mem_singleton.mp hev
        obtain ⟨earlier, rfl, hnear⟩ := stay_spec hst
        refine ⟨earlier, entry, rest, rfl, fun v hv => ?_, fun v hv => ?_, by rw [hlength, ht0], by rw [hlength]; exact hlong⟩
        · exact (List.pairwise_append.mp htimes).2.2 v hv entry List.mem_cons_self
        · obtain hv | hv := List.mem_append.mp hv
          · exact hnear v hv
          · rw [List.mem_singleton.mp hv]
            exact near_of_not_breaks hb
      · rw [hvisit] at hev
        rw [List.mem_singleton.mp hev, hupdate] at htype
        cases htype
      · rw [hvisit] at hev
        cases hev

/-- When an end is told of. -/
theorem Inv.told_end (h : Inv cfg hist x) : (∃ ev ∈ (DwellAnalyzer.visit cfg x.1 a).2, ev.type = .dwellEnd) ↔
    ∃ entry rest, stay cfg hist = some (entry, rest) ∧ Breaks cfg entry a ∧ OpenedIn cfg.repeatS entry x.2 := by
  cases hst : stay cfg hist with
  | none =>
    rw [(h.gone hst).1, visit_none]
    simp
  | some st =>
    obtain ⟨entry, rest⟩ := st
    obtain ⟨s, hx, hplace, ht0, hinactive, hactive⟩ := h.stays entry rest hst
    rw [hx]
    by_cases hb : Breaks cfg entry a
    · obtain ⟨reason, hvisit⟩ := visit_breaks hplace hb
      rw [hvisit]
      cases ha : s.active with
      | false =>
        refine iff_of_false (by simp [ends_inactive ha]) fun hend => ?_
        obtain ⟨-, -, -, -, dwells, w, hlog, -⟩ := hend
        exact (hinactive ha).not_opened ⟨dwells, w, hlog⟩
      | true =>
        obtain ⟨dwells, w, hlog, hsince, -⟩ := hactive ha
        refine iff_of_true ⟨.dwellEnd (a.time - s.t0) reason, ?_, rfl⟩ ⟨entry, rest, rfl, hb, dwells, w, hlog, hsince⟩
        simp [ends_active ha]
    · refine iff_of_false (fun hend => ?_) fun hend => ?_
      · obtain ⟨ev, hev, htype⟩ := hend
        obtain ⟨-, -, ev', hstart, -, hvisit⟩ | ⟨-, -, ev', hupdate, hvisit⟩ | hvisit := visit_stays hplace hb
        · rw [hvisit] at hev
          rw [List.mem_singleton.mp hev, hstart] at htype
          cases htype
        · rw [hvisit] at hev
          rw [List.mem_singleton.mp hev, hupdate] at htype
          cases htype
        · rw [hvisit] at hev
          cases hev
      · obtain ⟨entry', rest', hsome, hbreaks, -⟩ := hend
        cases hsome
        exact hb hbreaks

/-- **The events of a track** are those of dwells: each a start, updates and an
end, `repeat_s` apart but for the end. A start says for how long the track has
been in its entry's zone and within the radius of it, for long enough; and an
end is told of with what breaks the stay of the start, and with nothing else. -/
theorem dwells_lawful (hord : Num.Ordered D) {calls : List (AnalyzerCall F D)}
    (htimes : (calls.map AnalyzerCall.time).Pairwise (· ≤ ·)) (tid : UInt32) :
    let log := logOf cfg tid calls
    log = (after (timed (visit cfg)) (none, []) (visits cfg.classes tid calls)).2 ∧ Grammar cfg.repeatS log ∧
      ∀ before a more, visits cfg.classes tid calls = before ++ a :: more →
        let was := after (timed (visit cfg)) (none, []) before
        (∀ ev ∈ (visit cfg was.1 a).2, ev.type = .dwellStart → Stayed cfg before a ev.dwellS) ∧
          ((∃ ev ∈ (visit cfg was.1 a).2, ev.type = .dwellEnd) ↔
            ∃ entry rest, stay cfg before = some (entry, rest) ∧ Breaks cfg entry a ∧ OpenedIn cfg.repeatS entry was.2) := by
  intro log
  have hlog : log = (after (timed (visit cfg)) (none, []) (visits cfg.classes tid calls)).2 := run_visits tid calls
  refine ⟨hlog, hlog ▸ (inv_after _).grammar, fun before a more he => ⟨fun ev hev htype => ?_, (inv_after before).told_end⟩⟩
  have hvisits : (visits cfg.classes tid calls).Pairwise (·.time ≤ ·.time) := times_visits hord.refl htimes tid
  rw [he] at hvisits
  exact (inv_after before).told_start (List.pairwise_append.mp hvisits).1 hev htype

end

/-- Ten seconds within a tenth of the picture's height. -/
def loitering : Cfg ℚ ℚ where
  radius := 1 / 10
  minDwellS := 10
  repeatS := 4
  zones := []
  anchor := "bottom_center"
  classes := []

/-- A track that stays where it is for a while, and moves away. -/
def waits : List (AnalyzerCall ℚ ℚ) :=
  [frameAt 1 [trackAt 7 1 0.5 0.5], frameAt 6 [trackAt 7 6 0.55 0.5], frameAt 12 [trackAt 7 12 0.5 0.55],
    frameAt 14 [trackAt 7 14 0.5 0.5], frameAt 17 [trackAt 7 17 0.5 0.5], frameAt 19 [trackAt 7 19 0.8 0.5], .onTrackRemoved 7 20]

theorem dwells_lawful_waits : Grammar loitering.repeatS (logOf loitering 7 waits) ∧
    (logOf loitering 7 waits).map (fun ev => (ev.1, ev.2.type, ev.2.dwellS)) =
      [(12, .dwellStart, 11), (17, .dwellUpdate, 16), (19, .dwellEnd, 18)] :=
  ⟨(dwells_lawful Num.ordered_rat (by decide +kernel) 7).2.1, by decide +kernel⟩

end RetailVision.Vb.DwellAnalyzer
