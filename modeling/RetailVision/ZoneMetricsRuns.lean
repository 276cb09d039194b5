/-
Over a run of calls in the order of their times, what the zone metrics keep in
queues and running sums is, after each update, what a look through all that
there has been finds in the window (`metrics_lawful`). The invariant ties each
queue to the end of its record, the sums to the queue, and the time of the last
sample to the last of all samples.
-/
import RetailVision.ZoneMetrics
import RetailVision.Lib.Ordered
import Mathlib.Algebra.Order.Ring.Rat

set_option linter.all false

namespace RetailVision.Metrics

open Lib (sorted IsUpperMedian upperMedian_spec Window)
open PersonTracker (StateCount TrackRecord)
open scoped RetailVision.Lib.Ordered

variable {K : Type} [Field K] [LinearOrder K]

/-- The running sums are those of the queue. -/
structure Sums (m : ZoneMetrics K) (queue : List (TrackRecord K)) : Prop where
  dwell : m.sumDwell = (queue.map (·.dwellTime)).sum
  engagement : m.sumEngagement = (queue.map (·.engagementTime)).sum
  speed : m.sumSpeed = (queue.map (·.avgSpeed)).sum
  count : m.removedCount = queue.length

/-- What is kept after calls up to the time `t`. -/
structure Inv (window t : K) (p : Past K) (m : ZoneMetrics K) : Prop where
  duration : m.windowDuration = window
  records : Window TrackRecord.removalTime (t - window) p.records m.removed
  samples : Window Prod.fst (t - window) p.samples m.occupancySamples
  recordsBy : ∀ r ∈ p.records, r.removalTime ≤ t
  samplesBy : ∀ s ∈ p.samples, s.1 ≤ t
  sums : Sums m m.removed
  lastSample : m.lastSampleTime = p.lastSample
  history : m.history = lastFive p.totals
  spaced : p.samples.IsChain fun s next => 1 ≤ next.1 - s.1

variable {m : ZoneMetrics K} {p : Past K} {window t now cutoff : K} {calls : List (Call K)} {queue : List (TrackRecord K)}

omit [LinearOrder K] in
/-- Only the sums matter. -/
theorem Sums.same {m' : ZoneMetrics K} (h : Sums m queue) (heq : (m'.sumDwell, m'.sumEngagement, m'.sumSpeed, m'.removedCount) =
    (m.sumDwell, m.sumEngagement, m.sumSpeed, m.removedCount)) : Sums m' queue := by
  obtain ⟨hdwell, hengagement, hspeed, hcount⟩ : m'.sumDwell = m.sumDwell ∧ m'.sumEngagement = m.sumEngagement ∧
      m'.sumSpeed = m.sumSpeed ∧ m'.removedCount = m.removedCount := by simpa using heq
  exact ⟨hdwell ▸ h.dwell, hengagement ▸ h.engagement, hspeed ▸ h.speed, hcount ▸ h.count⟩

/-! ## The loops -/

variable (cutoff) in
/-- The loop over the records keeps the sums in step with what is left, and
everything else as it was. -/
theorem popRecords_spec (h : Sums m queue) : ∃ dwell engagement speed count,
    popRecords cutoff m queue = { m with
      removed := queue.dropWhile (·.removalTime < cutoff)
      sumDwell := dwell
      sumEngagement := engagement
      sumSpeed := speed
      removedCount := count } ∧ Sums (popRecords cutoff m queue) (queue.dropWhile (·.removalTime < cutoff)) := by
  induction queue generalizing m with
  | nil => exact ⟨m.sumDwell, m.sumEngagement, m.sumSpeed, m.removedCount, rfl, h.same rfl⟩
  | cons old rest ih =>
    by_cases hold : old.removalTime < cutoff
    · rw [popRecords, if_pos hold, List.dropWhile_cons_of_pos (by simpa using hold)]
      have hrest : Sums { m with
          sumDwell := m.sumDwell - old.dwellTime
          sumEngagement := m.sumEngagement - old.engagementTime
          sumSpeed := m.sumSpeed - old.avgSpeed
          removedCount := m.removedCount - 1 } rest := by
        refine ⟨?_, ?_, ?_, ?_⟩
        · simp [h.dwell]
        · simp [h.engagement]
        · simp [h.speed]
        · simp [h.count]
      obtain ⟨dwell, engagement, speed, count, heq, hsums⟩ := ih hrest
      exact ⟨dwell, engagement, speed, count, heq, hsums⟩
    · rw [popRecords, if_neg hold, List.dropWhile_cons_of_neg (by simpa using hold)]
      exact ⟨m.sumDwell, m.sumEngagement, m.sumSpeed, m.removedCount, rfl, h.same rfl⟩

/-- After `pruneWindow` the queues hold what is in the window. -/
theorem pruneWindow_spec (h : Inv window now p m) : Inv window now p (Cpp.pruneWindow m now) ∧
    (Cpp.pruneWindow m now).removed = p.recent window now ∧
    (Cpp.pruneWindow m now).occupancySamples = p.samples.filter (now - window ≤ ·.1) ∧
    (Cpp.pruneWindow m now).smoothed = m.smoothed := by
  have hpopped : Sums (popSamples (now - window) m) m.removed := h.sums.same rfl
  have hprune : Cpp.pruneWindow m now = popRecords (now - window) (popSamples (now - window) m) m.removed := by
    rw [← h.duration]
    rfl
  obtain ⟨dwell, engagement, speed, count, heq, hsums⟩ := popRecords_spec (now - window) hpopped
  obtain ⟨hrecent, hrecords⟩ := h.records.prune
  obtain ⟨hsampled, hsamples⟩ := h.samples.prune
  rw [hprune]
  rw [heq] at hsums ⊢
  exact ⟨⟨h.duration, hrecords, hsamples, h.recordsBy, h.samplesBy, hsums, h.lastSample, h.history, h.spaced⟩, hrecent, hsampled, rfl⟩

/-! ## The calls -/

theorem lastFive_snoc (l : List Nat) (a : Nat) : lastFive (lastFive l ++ [a]) = lastFive (l ++ [a]) := by
  have hlength : (lastFive l).length = l.length - (l.length - 5) := List.length_drop
  simp only [lastFive, List.length_append, List.length_singleton] at hlength ⊢
  rw [hlength, ← List.drop_append_of_le_length (by omega), List.drop_drop]
  congr 1
  omega

theorem lastFive_ne_nil (l : List Nat) (a : Nat) : lastFive (l ++ [a]) ≠ [] := by
  intro h
  have hlength := congrArg List.length h
  simp only [lastFive, List.length_drop, List.length_append, List.length_singleton, List.length_nil] at hlength
  omega

variable [IsStrictOrderedRing K]

omit [IsStrictOrderedRing K] in
/-- An update, up to the samples. -/
theorem Inv.sampled (h : Inv window now p m) (counts : StateCount) (entry exit : Nat) :
    let m₁ := Cpp.smoothOccupancy { m with counts, entry, exit } counts.total
    let m₂ := if now - m₁.lastSampleTime ≥ 1 then
        { m₁ with occupancySamples := m₁.occupancySamples ++ [(now, m₁.smoothed)], lastSampleTime := now }
      else m₁
    Inv window now (p.step (.update counts entry exit now)) m₂ ∧
      m₂.smoothed = middle (lastFive (p.step (.update counts entry exit now)).totals) := by
  intro m₁ m₂
  have hhistory : m₁.history = lastFive (p.totals ++ [counts.total]) := by
    have : m₁.history = lastFive (m.history ++ [counts.total]) := rfl
    rw [this, h.history, lastFive_snoc]
  have hsmoothed : m₁.smoothed = middle (lastFive (p.totals ++ [counts.total])) := by
    rw [← hhistory]
    rfl
  have hlast : m₁.lastSampleTime = p.lastSample := h.lastSample
  by_cases hdue : now - p.lastSample ≥ 1
  · have hm : m₂ = { m₁ with occupancySamples := m₁.occupancySamples ++ [(now, m₁.smoothed)], lastSampleTime := now } :=
      if_pos (by rw [hlast]; exact hdue)
    have hp : p.step (.update counts entry exit now) = { p with
        totals := p.totals ++ [counts.total]
        samples := p.samples ++ [(now, middle (lastFive (p.totals ++ [counts.total])))] } := by
      simp only [Past.step, if_pos hdue]
    rw [hm, hp, hsmoothed]
    refine ⟨⟨h.duration, h.records, h.samples.record fun s hs => h.samplesBy s hs, h.recordsBy, fun s hs => ?_,
      h.sums.same rfl, ?_, hhistory, ?_⟩, rfl⟩
    · obtain hs | hs := List.mem_append.mp hs
      · exact h.samplesBy s hs
      · rw [List.mem_singleton.mp hs]
    · simp [Past.lastSample]
    · refine List.isChain_append.mpr ⟨h.spaced, .singleton _, fun a ha b hb => ?_⟩
      cases hb
      have hlastSample : p.lastSample = a.1 := by simp [Past.lastSample, Option.mem_def.mp ha]
      rw [← hlastSample]
      exact hdue
  · have hm : m₂ = m₁ := if_neg (by rw [hlast]; exact hdue)
    have hp : p.step (.update counts entry exit now) = { p with totals := p.totals ++ [counts.total] } := by
      simp only [Past.step, if_neg hdue]
    rw [hm, hp]
    exact ⟨⟨h.duration, h.records, h.samples, h.recordsBy, h.samplesBy, h.sums.same rfl, h.lastSample, hhistory, h.spaced⟩, hsmoothed⟩

/-- Time goes on. -/
theorem Inv.later (h : Inv window t p m) (hle : t ≤ now) : Inv window now p m where
  duration := h.duration
  records := h.records.later (sub_le_sub_right hle window)
  samples := h.samples.later (sub_le_sub_right hle window)
  recordsBy := fun r hr => (h.recordsBy r hr).trans hle
  samplesBy := fun s hs => (h.samplesBy s hs).trans hle
  sums := h.sums
  lastSample := h.lastSample
  history := h.history
  spaced := h.spaced

omit [IsStrictOrderedRing K] in
theorem Inv.record {record : TrackRecord K} (h : Inv window record.removalTime p m) :
    Inv window record.removalTime (p.step (.onTrackRemoved record)) (Cpp.onTrackRemoved m record) where
  duration := h.duration
  records := h.records.record fun r hr => h.recordsBy r hr
  samples := h.samples
  recordsBy := fun r hr => by
    obtain hr | hr := List.mem_append.mp hr
    · exact h.recordsBy r hr
    · rw [List.mem_singleton.mp hr]
  samplesBy := h.samplesBy
  sums := by
    refine ⟨?_, ?_, ?_, ?_⟩
    · simp [Cpp.onTrackRemoved, h.sums.dwell]
    · simp [Cpp.onTrackRemoved, h.sums.engagement]
    · simp [Cpp.onTrackRemoved, h.sums.speed]
    · simp [Cpp.onTrackRemoved, h.sums.count]
  lastSample := h.lastSample
  history := h.history
  spaced := h.spaced

omit [IsStrictOrderedRing K] in
/-- **One call** keeps what is kept in step with the past. -/
theorem Inv.step {c : Call K} (h : Inv window c.time p m) : Inv window c.time (p.step c) (Cpp.step m c) := by
  cases c with
  | onTrackRemoved record => exact h.record
  | update counts entry exit now => exact (pruneWindow_spec (h.sampled counts entry exit).1).1

omit [IsStrictOrderedRing K] in
theorem inv_init : Inv window t (past []) (init window) where
  duration := rfl
  records := .nil
  samples := .nil
  recordsBy := by simp [past]
  samplesBy := by simp [past]
  sums := ⟨rfl, rfl, rfl, rfl⟩
  lastSample := rfl
  history := rfl
  spaced := .nil

theorem inv_run (htimes : (calls.map Call.time).Pairwise (· ≤ ·)) (hby : ∀ c ∈ calls, c.time ≤ t) :
    Inv window t (past calls) (Cpp.run window calls) := by
  induction calls using List.reverseRecOn generalizing t with
  | nil => exact inv_init
  | append_singleton calls c ih =>
    rw [List.map_append, List.pairwise_append] at htimes
    obtain ⟨hbefore, -, hlast⟩ := htimes
    have hc : Inv window c.time (past calls) (Cpp.run window calls) :=
      ih hbefore fun b hb => hlast _ (List.mem_map_of_mem hb) _ (by simp)
    rw [past, Cpp.run, List.foldl_append, List.foldl_append]
    exact hc.step.later (hby c (by simp))

/-! ## What is told -/

omit [Field K] [LinearOrder K] [IsStrictOrderedRing K] in
theorem peak_cpp (l : List (K × Nat)) (a : Nat) :
    l.foldl (fun peak s => if s.2 > peak then s.2 else peak) a = max a ((l.map (·.2)).foldr max 0) := by
  induction l generalizing a with
  | nil => simp
  | cons s l ih =>
    rw [List.foldl_cons, ih, List.map_cons, List.foldr_cons]
    split <;> omega

omit [Field K] [LinearOrder K] [IsStrictOrderedRing K] in
theorem peak_py (l : List (K × Nat)) : ((l.map (·.2)).max?).getD 0 = (l.map (·.2)).foldr max 0 := by
  induction l with
  | nil => rfl
  | cons s l ih =>
    rw [List.map_cons, List.max?_cons, List.foldr_cons, ← ih]
    cases (l.map (·.2)).max? <;> simp

theorem middle_spec {l : List Nat} (h : l ≠ []) : IsUpperMedian l (middle l) := by
  have hlength : 0 < l.length := List.length_pos_of_ne_nil h
  have hin : l.length / 2 < (sorted l).length := by
    rw [(Lib.sorted_perm l).length_eq]
    omega
  have hsome : (sorted l)[l.length / 2]? = some (middle l) := by
    rw [middle, List.getElem?_eq_getElem hin]
    rfl
  exact upperMedian_spec hsome

omit [IsStrictOrderedRing K] in
/-- The two are the same, call by call. -/
theorem py_run (window : K) (calls : List (Call K)) : Py.run window calls = Cpp.run window calls := by
  have hstep : (Py.step : ZoneMetrics K → Call K → ZoneMetrics K) = Cpp.step := by
    funext m c
    cases c <;> rfl
  rw [Py.run, Cpp.run, hstep]

omit [IsStrictOrderedRing K] in
theorem snapshot_eq (h : Inv window t p m) : Py.snapshot (fun x _ => x) m = Cpp.getSnapshot m := by
  have hpeak : ((m.occupancySamples.map (·.2)).max?).getD 0 =
      m.occupancySamples.foldl (fun peak s => if s.2 > peak then s.2 else peak) 0 := by
    rw [peak_py, peak_cpp, Nat.zero_max]
  have hcount : m.removedCount ≠ 0 ↔ m.removedCount > 0 := by
    have := h.sums.count
    omega
  simp only [Py.snapshot, Cpp.getSnapshot, hpeak, hcount]

/-- **The zone metrics** of both classes, after an update: the sums and the
number of the records in the window, the greatest sample in it, and the upper
median of the last five totals, of all that there has been. -/
theorem metrics_lawful (window : K) {calls : List (Call K)} {counts : StateCount} {entry exit : Nat} {now : K}
    (htimes : ((calls ++ [Call.update counts entry exit now]).map Call.time).Pairwise (· ≤ ·)) :
    let p := past (calls ++ [.update counts entry exit now])
    let m := Cpp.run window (calls ++ [.update counts entry exit now])
    (m.sumDwell = ((p.recent window now).map (·.dwellTime)).sum ∧ m.sumEngagement = ((p.recent window now).map (·.engagementTime)).sum ∧
      m.sumSpeed = ((p.recent window now).map (·.avgSpeed)).sum ∧ m.removedCount = (p.recent window now).length) ∧
    ((Cpp.getSnapshot m).peakCustomer = p.peak window now ∧ p.samples.IsChain fun s next => 1 ≤ next.1 - s.1) ∧
    IsUpperMedian (lastFive p.totals) (Cpp.getSnapshot m).occupancyCount ∧
    Py.run window (calls ++ [.update counts entry exit now]) = m ∧ Py.snapshot (fun x _ => x) m = Cpp.getSnapshot m := by
  intro p m
  have hlast := htimes
  rw [List.map_append, List.pairwise_append] at hlast
  have hbefore : Inv window now (past calls) (Cpp.run window calls) :=
    inv_run hlast.1 fun c hc => hlast.2.2 _ (List.mem_map_of_mem hc) _ (by simp)
  obtain ⟨hsampled, hsmoothed⟩ := hbefore.sampled counts entry exit
  obtain ⟨hinv, hremoved, hsamples, hoccupancy⟩ := pruneWindow_spec hsampled
  have hp : p = (past calls).step (.update counts entry exit now) := by
    simp only [p, past, List.foldl_append]
    rfl
  have hm : m = Cpp.update (Cpp.run window calls) counts entry exit now := by
    simp only [m, Cpp.run, List.foldl_append]
    rfl
  have hkept : Inv window now p m := by
    rw [hp, hm]
    exact hinv
  have hqueue : m.removed = p.recent window now := by
    rw [hp, hm]
    exact hremoved
  have hpeak : m.occupancySamples = p.samples.filter (now - window ≤ ·.1) := by
    rw [hp, hm]
    exact hsamples
  have hmiddle : m.smoothed = middle (lastFive p.totals) := by
    rw [hp, hm]
    exact hoccupancy.trans hsmoothed
  have htotals : lastFive p.totals ≠ [] := by
    have htotals : p.totals = (past calls).totals ++ [counts.total] := by rw [hp]; rfl
    rw [htotals]
    exact lastFive_ne_nil _ _
  obtain ⟨hdwell, hengagement, hspeed, hcount⟩ := hkept.sums
  rw [hqueue] at hdwell hengagement hspeed hcount
  refine ⟨⟨hdwell, hengagement, hspeed, hcount⟩, ⟨?_, hkept.spaced⟩, ?_, py_run window _, snapshot_eq hkept⟩
  · rw [Cpp.getSnapshot, Past.peak, ← hpeak, peak_cpp, Nat.zero_max]
  · rw [Cpp.getSnapshot, hmiddle]
    exact middle_spec htotals

/-- Two removals, of which one is older than the window in the end, and as many
totals as the median is of. -/
def visitsOfTwo : List (Call ℚ) :=
  [.onTrackRemoved ⟨1, 5, 2, 1 / 2, 1, true⟩, .update ⟨4, 4, 0, 0⟩ 0 0 1, .update ⟨3, 3, 0, 0⟩ 0 0 2,
    .onTrackRemoved ⟨2, 8, 3, 1 / 4, 30, false⟩, .update ⟨9, 9, 0, 0⟩ 1 0 30]

theorem metrics_lawful_two :
    let m := Cpp.run 60 (visitsOfTwo ++ [.update ⟨0, 0, 0, 0⟩ 1 1 (65 : ℚ)])
    (m.sumDwell = 8 ∧ m.removedCount = 1) ∧ (Cpp.getSnapshot m).peakCustomer = 4 ∧ (Cpp.getSnapshot m).occupancyCount = 4 := by
  intro m
  have htimes : ((visitsOfTwo ++ [Call.update ⟨0, 0, 0, 0⟩ 1 1 (65 : ℚ)]).map Call.time).Pairwise (· ≤ ·) := by decide +kernel
  obtain ⟨⟨hdwell, -, -, hcount⟩, ⟨hpeak, -⟩, -, -⟩ := metrics_lawful 60 htimes
  exact ⟨⟨hdwell.trans (by decide +kernel), hcount.trans (by decide +kernel)⟩, hpeak.trans (by decide +kernel), by decide +kernel⟩

end RetailVision.Metrics
