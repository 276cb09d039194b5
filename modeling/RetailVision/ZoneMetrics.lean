/-
The rolling-window zone metrics, `core-cpp/zone_metrics.cpp` and
`core-py/retail_core/zone_metrics.py`, on the same record under the same names.
The numbers are those of an ordered field, so that arithmetic is exact.

What both keep in queues and running sums is set against `Past`, in which
nothing is ever dropped.
-/
import RetailVision.PersonTracker
import RetailVision.Lib.Median
import RetailVision.Lib.Window
import Mathlib.Algebra.BigOperators.Group.List.Basic
import Mathlib.Algebra.Order.Field.Basic
import Mathlib.Data.List.Chain

set_option linter.all false

namespace RetailVision.Metrics

open Lib (sorted IsUpperMedian upperMedian_spec Window)
open PersonTracker (StateCount TrackRecord)

structure ZoneMetrics (K : Type) where
  windowDuration : K
  occupancySamples : List (K × Nat)
  lastSampleTime : K
  removed : List (TrackRecord K)
  sumDwell : K
  sumEngagement : K
  sumSpeed : K
  removedCount : Int
  history : List Nat
  counts : StateCount
  smoothed : Nat
  entry : Nat
  exit : Nat

structure ZoneSnapshot (K : Type) where
  occupancyCount : Nat
  browsingCount : Nat
  engagedCount : Nat
  assistCount : Nat
  peakCustomer : Nat
  avgDwellTime : K
  avgEngagementTime : K
  avgVelocity : K
  entryCount : Nat
  exitCount : Nat

inductive Call (K : Type)
  | onTrackRemoved (record : TrackRecord K)
  | update (counts : StateCount) (entryCount exitCount : Nat) (now : K)

/-- A track is removed at the time of the call. -/
def Call.time {K : Type} : Call K → K
  | .onTrackRemoved record => record.removalTime
  | .update _ _ _ now => now

@[simp] theorem time_onTrackRemoved {K : Type} (record : TrackRecord K) : (Call.onTrackRemoved record).time = record.removalTime := rfl
@[simp] theorem time_update {K : Type} (counts : StateCount) (entry exit : Nat) (now : K) :
    (Call.update counts entry exit now).time = now := rfl

variable {K : Type} [Field K] [LinearOrder K]

/-- `SMOOTHING_WINDOW`: the last five. -/
def lastFive (totals : List Nat) : List Nat := totals.drop (totals.length - 5)

/-- `sorted[sorted.size() / 2]` -/
def middle (history : List Nat) : Nat := ((sorted history)[history.length / 2]?).getD 0

def init (window : K) : ZoneMetrics K where
  windowDuration := window
  occupancySamples := []
  lastSampleTime := 0
  removed := []
  sumDwell := 0
  sumEngagement := 0
  sumSpeed := 0
  removedCount := 0
  history := []
  counts := .zero
  smoothed := 0
  entry := 0
  exit := 0

/-- The loop over the occupancy samples, from the front. -/
def popSamples (cutoff : K) (m : ZoneMetrics K) : ZoneMetrics K :=
  { m with occupancySamples := m.occupancySamples.dropWhile (·.1 < cutoff) }

/-- The loop over the records, from the front, and the running sums. -/
def popRecords (cutoff : K) (m : ZoneMetrics K) : List (TrackRecord K) → ZoneMetrics K
  | [] => { m with removed := [] }
  | old :: rest =>
    if old.removalTime < cutoff then
      popRecords cutoff { m with
        sumDwell := m.sumDwell - old.dwellTime
        sumEngagement := m.sumEngagement - old.engagementTime
        sumSpeed := m.sumSpeed - old.avgSpeed
        removedCount := m.removedCount - 1 } rest
    else { m with removed := old :: rest }

namespace Cpp

def pruneWindow (m : ZoneMetrics K) (now : K) : ZoneMetrics K :=
  let cutoff := now - m.windowDuration
  let m := popSamples cutoff m
  popRecords cutoff m m.removed

def smoothOccupancy (m : ZoneMetrics K) (raw : Nat) : ZoneMetrics K :=
  let history := lastFive (m.history ++ [raw])
  { m with history, smoothed := middle history }

def update (m : ZoneMetrics K) (counts : StateCount) (entryCount exitCount : Nat) (now : K) : ZoneMetrics K :=
  let m := { m with counts, entry := entryCount, exit := exitCount }
  let m := smoothOccupancy m counts.total
  let m :=
    if now - m.lastSampleTime ≥ 1 then
      { m with occupancySamples := m.occupancySamples ++ [(now, m.smoothed)], lastSampleTime := now }
    else m
  pruneWindow m now

def onTrackRemoved (m : ZoneMetrics K) (record : TrackRecord K) : ZoneMetrics K :=
  { m with
    removed := m.removed ++ [record]
    sumDwell := m.sumDwell + record.dwellTime
    sumEngagement := m.sumEngagement + record.engagementTime
    sumSpeed := m.sumSpeed + record.avgSpeed
    removedCount := m.removedCount + 1 }

def getSnapshot (m : ZoneMetrics K) : ZoneSnapshot K where
  occupancyCount := m.smoothed
  browsingCount := m.counts.browsing
  engagedCount := m.counts.engaged
  assistCount := m.counts.assistance
  peakCustomer := m.occupancySamples.foldl (fun peak s => if s.2 > peak then s.2 else peak) 0
  avgDwellTime := if m.removedCount > 0 then m.sumDwell / m.removedCount else 0
  avgEngagementTime := if m.removedCount > 0 then m.sumEngagement / m.removedCount else 0
  avgVelocity := if m.removedCount > 0 then m.sumSpeed / m.removedCount else 0
  entryCount := m.entry
  exitCount := m.exit

def step (m : ZoneMetrics K) : Call K → ZoneMetrics K
  | .onTrackRemoved record => onTrackRemoved m record
  | .update counts entryCount exitCount now => update m counts entryCount exitCount now

/-- The calls in order, with a window that is set before. -/
def run (window : K) (calls : List (Call K)) : ZoneMetrics K := calls.foldl step (init window)

end Cpp

namespace Py

/-- `_prune` -/
def prune (m : ZoneMetrics K) (now : K) : ZoneMetrics K :=
  let cutoff := now - m.windowDuration
  let m := popSamples cutoff m
  popRecords cutoff m m.removed

/-- `_smooth` -/
def smooth (m : ZoneMetrics K) (raw : Nat) : ZoneMetrics K × Nat :=
  let history := lastFive (m.history ++ [raw])
  ({ m with history }, middle history)

def update (m : ZoneMetrics K) (counts : StateCount) (entryCount exitCount : Nat) (now : K) : ZoneMetrics K :=
  let m := { m with counts, entry := entryCount, exit := exitCount }
  let (m, smoothed) := smooth m counts.total
  let m := { m with smoothed }
  let m :=
    if now - m.lastSampleTime ≥ 1 then
      { m with occupancySamples := m.occupancySamples ++ [(now, m.smoothed)], lastSampleTime := now }
    else m
  prune m now

def onTrackRemoved (m : ZoneMetrics K) (record : TrackRecord K) : ZoneMetrics K :=
  { m with
    removed := m.removed ++ [record]
    sumDwell := m.sumDwell + record.dwellTime
    sumEngagement := m.sumEngagement + record.engagementTime
    sumSpeed := m.sumSpeed + record.avgSpeed
    removedCount := m.removedCount + 1 }

/-- `round(x, digits)` is a parameter. -/
def snapshot (round : K → Nat → K) (m : ZoneMetrics K) : ZoneSnapshot K where
  occupancyCount := m.smoothed
  browsingCount := m.counts.browsing
  engagedCount := m.counts.engaged
  assistCount := m.counts.assistance
  peakCustomer := ((m.occupancySamples.map (·.2)).max?).getD 0
  avgDwellTime := if m.removedCount ≠ 0 then round (m.sumDwell / m.removedCount) 1 else 0
  avgEngagementTime := if m.removedCount ≠ 0 then round (m.sumEngagement / m.removedCount) 1 else 0
  avgVelocity := if m.removedCount ≠ 0 then round (m.sumSpeed / m.removedCount) 2 else 0
  entryCount := m.entry
  exitCount := m.exit

def step (m : ZoneMetrics K) : Call K → ZoneMetrics K
  | .onTrackRemoved record => onTrackRemoved m record
  | .update counts entryCount exitCount now => update m counts entryCount exitCount now

def run (window : K) (calls : List (Call K)) : ZoneMetrics K := calls.foldl step (init window)

end Py

/-! ## What the metrics are of -/

/-- Everything that there has been: the totals, the records of removed tracks,
and the samples of the occupancy, at least a second apart, with their times. -/
structure Past (K : Type) where
  totals : List Nat
  records : List (TrackRecord K)
  samples : List (K × Nat)

def Past.lastSample (p : Past K) : K := (p.samples.getLast?.map (·.1)).getD 0

def Past.step (p : Past K) : Call K → Past K
  | .onTrackRemoved record => { p with records := p.records ++ [record] }
  | .update counts _ _ now =>
    let totals := p.totals ++ [counts.total]
    { p with
      totals
      samples := if now - p.lastSample ≥ 1 then p.samples ++ [(now, middle (lastFive totals))] else p.samples }

def past (calls : List (Call K)) : Past K := calls.foldl Past.step ⟨[], [], []⟩

/-- The records that are not older than the window. -/
def Past.recent (p : Past K) (window now : K) : List (TrackRecord K) := p.records.filter (now - window ≤ ·.removalTime)

/-- The greatest of the samples that are not; `0` where there is none. -/
def Past.peak (p : Past K) (window now : K) : Nat := ((p.samples.filter (now - window ≤ ·.1)).map (·.2)).foldr max 0

end RetailVision.Metrics
