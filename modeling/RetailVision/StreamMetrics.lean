/-
The metrics of a stream (`core-cpp/vb/src/stats.cpp`): what the contexts record of
its frames, and what the stats record tells of them. `mu_` makes each call one step.
The numbers are exact, the clock is the wall's; the state, the error and the path of
the decoder are in `NativeHealth`.
-/
import RetailVision.Lib.Interpolate
import RetailVision.Lib.Window
import RetailVision.Lib.Ordered
import Mathlib.Data.List.Sort
import Mathlib.Data.Rat.Floor

set_option linter.all false

namespace RetailVision.StreamMetrics

open RetailVision.Lib
open scoped RetailVision.Lib.Ordered

variable {K : Type}

structure Metrics (K : Type) where
  processed : Nat
  dropped : Nat
  rateSkipped : Nat
  infMs : List K
  qdMs : List K
  frameWalls : List K
  lastWall : K

structure Stats (K : Type) where
  fps : K
  inferenceMsP50 : K
  inferenceMsP95 : K
  queueDelayMsP95 : K
  droppedFrames : Nat
  rateSkipped : Nat

inductive Act (K : Type)
  | recordFrame (inferenceMs queueDelayMs wallMs : K)
  | addDropped (n : Nat)
  | addRateSkipped (n : Nat)
  | toJson (now : K)

/-- No more than `cap` are kept. -/
def pushRecent (cap : Nat) (l : List K) (x : K) : List K :=
  let l := l ++ [x]
  if l.length > cap then l.tail else l

section

variable [Field K] [LinearOrder K]

def Metrics.init : Metrics K := ⟨0, 0, 0, [], [], [], 0⟩

/-- The frames of more than a second ago go. -/
def prune (now : K) (walls : List K) : List K := walls.dropWhile fun w => now - w > 1000

def Metrics.recordFrame (s : Metrics K) (inferenceMs queueDelayMs wallMs : K) : Metrics K :=
  { s with
    processed := s.processed + 1
    infMs := pushRecent 256 s.infMs inferenceMs
    qdMs := pushRecent 256 s.qdMs queueDelayMs
    frameWalls := prune wallMs (s.frameWalls ++ [wallMs])
    lastWall := wallMs }

def percentile [FloorSemiring K] (values : List K) (p : K) : K :=
  if values = [] then 0
  else interpolate (values.insertionSort (· ≤ ·)) (p * ((values.length - 1 : Nat) : K))

/-- The rate, where there are frames in the window. -/
def fps (now : K) : List K → K
  | [] => 0
  | first :: walls =>
    let span := (now - first) / 1000
    if span > 0.05 then (walls.length + 1 : Nat) / span else (walls.length + 1 : Nat)

def Metrics.toJson [FloorSemiring K] (s : Metrics K) (now : K) : Metrics K × Stats K :=
  let frameWalls := prune now s.frameWalls
  ({ s with frameWalls := frameWalls },
    { fps := fps now frameWalls
      inferenceMsP50 := percentile s.infMs 0.5
      inferenceMsP95 := percentile s.infMs 0.95
      queueDelayMsP95 := percentile s.qdMs 0.95
      droppedFrames := s.dropped
      rateSkipped := s.rateSkipped })

def Metrics.step [FloorSemiring K] (s : Metrics K) : Act K → Metrics K
  | .recordFrame inferenceMs queueDelayMs wallMs => s.recordFrame inferenceMs queueDelayMs wallMs
  | .addDropped n => { s with dropped := s.dropped + n }
  | .addRateSkipped n => { s with rateSkipped := s.rateSkipped + n }
  | .toJson now => (s.toJson now).1

def run [FloorSemiring K] (acts : List (Act K)) : Metrics K := acts.foldl Metrics.step Metrics.init

end

/-! ## What was recorded -/

def Act.inferences : Act K → List K
  | .recordFrame inferenceMs _ _ => [inferenceMs]
  | _ => []

def Act.delays : Act K → List K
  | .recordFrame _ queueDelayMs _ => [queueDelayMs]
  | _ => []

def Act.walls : Act K → List K
  | .recordFrame _ _ wallMs => [wallMs]
  | _ => []

/-- When it was, if that makes a difference. -/
def Act.times : Act K → List K
  | .recordFrame _ _ wallMs => [wallMs]
  | .toJson now => [now]
  | _ => []

def Act.drops : Act K → Nat
  | .addDropped n => n
  | _ => 0

def Act.skips : Act K → Nat
  | .addRateSkipped n => n
  | _ => 0

/-- The last of them, and no more than `cap`. -/
def recent (cap : Nat) (l : List K) : List K := l.drop (l.length - cap)

section

variable [LinearOrder K]

/-- What is told of the values: neither percentile beyond them, and the lower one not
above the other. -/
structure Between (values : List K) (low high : K) : Prop where
  above : ∃ a ∈ values, a ≤ low
  rises : low ≤ high
  below : ∃ b ∈ values, high ≤ b

/-- Each counter counts all that was recorded, and the queues have the last of it. -/
structure Recorded (acts : List (Act K)) (s : Metrics K) : Prop where
  processed : s.processed = (acts.flatMap Act.walls).length
  infMs : s.infMs = recent 256 (acts.flatMap Act.inferences)
  qdMs : s.qdMs = recent 256 (acts.flatMap Act.delays)
  dropped : s.dropped = (acts.map Act.drops).sum
  rateSkipped : s.rateSkipped = (acts.map Act.skips).sum

end

/-! ## The counters and the queues -/

theorem pushRecent_recent {cap : Nat} (hcap : 0 < cap) (l : List K) (x : K) : pushRecent cap (recent cap l) x = recent cap (l ++ [x]) := by
  have hlen : (recent cap l ++ [x]).length = l.length - (l.length - cap) + 1 := by simp [recent]
  by_cases hfull : cap ≤ l.length
  · have hne : recent cap l ≠ [] := List.ne_nil_of_length_pos (by simp only [recent, List.length_drop]; omega)
    have hnext : (l ++ [x]).length - cap = l.length - cap + 1 := by
      rw [List.length_append, List.length_singleton]
      omega
    rw [pushRecent, if_pos (by omega), List.tail_append_of_ne_nil hne, recent, List.tail_drop, recent, hnext,
      List.drop_append_of_le_length (by omega)]
  · have hall : recent cap l = l := by simp [recent, Nat.sub_eq_zero_of_le (Nat.le_of_not_le hfull)]
    have hnone : (l ++ [x]).length - cap = 0 := by
      rw [List.length_append, List.length_singleton]
      omega
    rw [pushRecent, if_neg (by omega), hall, recent, hnone, List.drop_zero]

section

variable [Field K] [LinearOrder K] [FloorSemiring K] {acts : List (Act K)} {s : Metrics K} {a : Act K}

theorem run_concat : run (acts ++ [a]) = (run acts).step a := by simp [run]

omit [LinearOrder K] [FloorSemiring K] in
theorem Recorded.init : Recorded [] (Metrics.init : Metrics K) := by
  constructor <;> simp [Metrics.init, recent]

theorem Recorded.step (h : Recorded acts s) (a : Act K) : Recorded (acts ++ [a]) (s.step a) := by
  cases a with
  | recordFrame inferenceMs queueDelayMs wallMs =>
    have hcap : 0 < 256 := Nat.zero_lt_succ 255
    constructor
    · simp [Metrics.step, Metrics.recordFrame, h.processed, Act.walls]
    · simp only [Metrics.step, Metrics.recordFrame, h.infMs, pushRecent_recent hcap, List.flatMap_append, List.flatMap_singleton,
        Act.inferences]
    · simp only [Metrics.step, Metrics.recordFrame, h.qdMs, pushRecent_recent hcap, List.flatMap_append, List.flatMap_singleton, Act.delays]
    · simp [Metrics.step, Metrics.recordFrame, h.dropped, Act.drops]
    · simp [Metrics.step, Metrics.recordFrame, h.rateSkipped, Act.skips]
  | addDropped n | addRateSkipped n | toJson now =>
    constructor <;>
      simp [Metrics.step, Metrics.toJson, h.processed, h.infMs, h.qdMs, h.dropped, h.rateSkipped, Act.walls, Act.inferences, Act.delays,
        Act.drops, Act.skips]

theorem run_recorded (acts : List (Act K)) : Recorded acts (run acts) := by
  induction acts using List.reverseRecOn with
  | nil => exact Recorded.init
  | append_singleton acts a ih =>
    rw [run_concat]
    exact ih.step a

end

/-! ## The percentiles -/

section

variable [Field K] [LinearOrder K] [IsStrictOrderedRing K] [FloorSemiring K] {values : List K}

theorem percentile_between (hne : values ≠ []) {p q : K} (hp : 0 ≤ p) (hpq : p ≤ q) (hq : q ≤ 1) :
    Between values (percentile values p) (percentile values q) := by
  let sorted := values.insertionSort (· ≤ ·)
  have hsorted : sorted.Pairwise (· ≤ ·) := List.pairwise_insertionSort _ _
  have hlen : sorted.length = values.length := List.length_insertionSort _ _
  have hpos := List.length_pos_iff.mpr hne
  have hnonneg : (0 : K) ≤ ((values.length - 1 : Nat) : K) := Nat.cast_nonneg _
  have hlt : ∀ r : K, r ≤ 1 → r * ((values.length - 1 : Nat) : K) < sorted.length := fun r hr => by
    have hless : ((values.length - 1 : Nat) : K) < sorted.length := Nat.cast_lt.mpr (by omega)
    exact (mul_le_of_le_one_left hnonneg hr).trans_lt hless
  have hmem : ∀ i < sorted.length, sorted.getD i 0 ∈ values := fun i hi => by
    rw [List.getD_eq_getElem _ _ hi]
    exact (List.mem_insertionSort _).mp (List.getElem_mem hi)
  simp only [percentile, if_neg hne]
  refine ⟨?_, ?_, ?_⟩
  · have hx := mul_nonneg hp hnonneg
    have hbelow := hlt p (hpq.trans hq)
    exact ⟨_, hmem _ (floor_lt_length hx hbelow), (interpolate_between hsorted hx hbelow).1⟩
  · exact interpolate_mono hsorted (mul_nonneg hp hnonneg) (mul_le_mul_of_nonneg_right hpq hnonneg) (hlt q hq)
  · have hy := mul_nonneg (hp.trans hpq) hnonneg
    exact ⟨_, hmem _ (by omega), (interpolate_between hsorted hy (hlt q hq)).2⟩

/-- A rate over less than a second is not less than the number, and not more than
twenty times as much. -/
theorem fps_between {now : K} {walls : List K} (h : ∀ w ∈ walls, 0 ≤ now - w ∧ now - w ≤ 1000) :
    (walls.length : K) ≤ fps now walls ∧ fps now walls ≤ 20 * walls.length := by
  cases walls with
  | nil => simp [fps]
  | cons first walls =>
    obtain ⟨-, hfirst⟩ := h first List.mem_cons_self
    have hcount : (0 : K) ≤ (walls.length + 1 : Nat) := Nat.cast_nonneg _
    rw [List.length_cons]
    by_cases hspan : (now - first) / 1000 > 0.05
    · have hpos : 0 < (now - first) / 1000 := lt_trans (by norm_num) hspan
      have hone : (now - first) / 1000 ≤ 1 := (div_le_one (by norm_num)).mpr hfirst
      simp only [fps, if_pos hspan]
      rw [le_div_iff₀ hpos, div_le_iff₀ hpos]
      have hmore : 1 ≤ 20 * ((now - first) / 1000) := by
        norm_num at hspan ⊢
        linarith
      exact ⟨mul_le_of_le_one_right hcount hone, by nlinarith⟩
    · simp only [fps, if_neg hspan]
      exact ⟨le_refl _, by linarith⟩

end

/-! ## The window -/

section

variable [Field K] [LinearOrder K] [IsStrictOrderedRing K] [FloorSemiring K] {acts : List (Act K)} {now T : K} {walls all : List K}

omit [FloorSemiring K] in
theorem prune_eq (now : K) (walls : List K) : prune now walls = walls.dropWhile fun w => id w < now - 1000 := by
  simp only [prune, gt_iff_lt, lt_sub_comm, id]

/-- Whenever it is pruned, a time that is not the last of all: only what is too old by
then is gone. -/
theorem run_window (hwalls : (acts.flatMap Act.walls).Pairwise (· ≤ ·)) (hT : ∀ t ∈ acts.flatMap Act.times, t ≤ T) :
    Window id (T - 1000) (acts.flatMap Act.walls) (run acts).frameWalls := by
  induction acts using List.reverseRecOn with
  | nil => exact Window.nil
  | append_singleton acts a ih =>
    rw [List.flatMap_append, List.flatMap_singleton] at hwalls hT ⊢
    have hpast := ih (List.pairwise_append.mp hwalls).1 fun t ht => hT t (List.mem_append_left _ ht)
    rw [run_concat]
    cases a with
    | recordFrame inferenceMs queueDelayMs wallMs =>
      have hle : ∀ b ∈ acts.flatMap Act.walls, id b ≤ id wallMs := fun b hb =>
        (List.pairwise_append.mp hwalls).2.2 b hb wallMs List.mem_cons_self
      have hwall := hT wallMs (List.mem_append_right _ List.mem_cons_self)
      have hnext := (hpast.record hle).pruneEarlier (sub_le_sub_right hwall 1000)
      rwa [← prune_eq] at hnext
    | addDropped n | addRateSkipped n =>
      simpa [Act.walls, Metrics.step] using hpast
    | toJson now =>
      have hnow := hT now (List.mem_append_right _ List.mem_cons_self)
      have hnext := hpast.pruneEarlier (sub_le_sub_right hnow 1000)
      rw [← prune_eq] at hnext
      simpa [Act.walls, Metrics.step, Metrics.toJson] using hnext

/-- The window is that of the time of the query. -/
theorem prune_run (hwalls : (acts.flatMap Act.walls).Pairwise (· ≤ ·)) (hnow : ∀ t ∈ acts.flatMap Act.times, t ≤ now) :
    prune now (run acts).frameWalls = (acts.flatMap Act.walls).filter fun w => now - w ≤ 1000 := by
  rw [prune_eq, (run_window hwalls hnow).prune.1]
  simp only [id, sub_le_comm]

omit [Field K] [IsStrictOrderedRing K] [FloorSemiring K] in
theorem walls_le_now (hnow : ∀ t ∈ acts.flatMap Act.times, t ≤ now) : ∀ w ∈ acts.flatMap Act.walls, w ≤ now := by
  intro w hw
  obtain ⟨a, ha, hwa⟩ := List.mem_flatMap.mp hw
  refine hnow w (List.mem_flatMap.mpr ⟨a, ha, ?_⟩)
  cases a with
  | recordFrame => exact hwa
  | addDropped | addRateSkipped | toJson => cases hwa

/-- What a query tells of all that was recorded before it, where the wall's clock does
not go back: a rate that is that of the last second, percentiles of the last frames,
and sums. -/
theorem metrics_told (hwalls : (acts.flatMap Act.walls).Pairwise (· ≤ ·)) (hnow : ∀ t ∈ acts.flatMap Act.times, t ≤ now) :
    let st := ((run acts).toJson now).2
    let live := (acts.flatMap Act.walls).filter fun w => now - w ≤ 1000
    let inferences := recent 256 (acts.flatMap Act.inferences)
    (st.fps = fps now live ∧ live.length ≤ st.fps ∧ st.fps ≤ 20 * live.length) ∧
      (inferences ≠ [] → Between inferences st.inferenceMsP50 st.inferenceMsP95) ∧
      st.queueDelayMsP95 = percentile (recent 256 (acts.flatMap Act.delays)) 0.95 ∧
      st.droppedFrames = (acts.map Act.drops).sum ∧ st.rateSkipped = (acts.map Act.skips).sum := by
  intro st live inferences
  have hrec := run_recorded acts
  have hfps : st.fps = fps now live := congrArg (fps now) (prune_run hwalls hnow)
  refine ⟨⟨hfps, ?_⟩, fun hne => ?_, ?_, hrec.dropped, hrec.rateSkipped⟩
  · rw [hfps]
    refine fps_between fun w hw => ?_
    obtain ⟨hmem, hyoung⟩ := List.mem_filter.mp hw
    exact ⟨sub_nonneg.mpr (walls_le_now hnow w hmem), by simpa using hyoung⟩
  · have hp50 : st.inferenceMsP50 = percentile inferences 0.5 := congrArg (percentile · 0.5) hrec.infMs
    have hp95 : st.inferenceMsP95 = percentile inferences 0.95 := congrArg (percentile · 0.95) hrec.infMs
    rw [hp50, hp95]
    exact percentile_between hne (by norm_num) (by norm_num) (by norm_num)
  · exact congrArg (percentile · 0.95) hrec.qdMs

end

/-- Two frames of the last second and one from before it, of which an earlier query
has told. -/
theorem metrics_told_threeFrames :
    let acts : List (Act ℚ) := [.recordFrame 9 1 100, .toJson 600, .recordFrame 5 1 1200, .recordFrame 7 1 1700]
    let st := ((run acts).toJson 2000).2
    (2 : ℚ) ≤ st.fps ∧ Between [9, 5, 7] st.inferenceMsP50 st.inferenceMsP95 := by
  intro acts st
  have hwalls : (acts.flatMap Act.walls).Pairwise (· ≤ ·) := by decide +kernel
  have hnow : ∀ t ∈ acts.flatMap Act.times, t ≤ 2000 := by decide +kernel
  have hlive : ((acts.flatMap Act.walls).filter fun w => (2000 : ℚ) - w ≤ 1000).length = 2 := by decide +kernel
  have hrecent : recent 256 (acts.flatMap Act.inferences) = [9, 5, 7] := by simp [recent, acts, Act.inferences]
  obtain ⟨⟨-, hfps, -⟩, hbetween, -⟩ := metrics_told hwalls hnow
  rw [hlive] at hfps
  rw [hrecent] at hbetween
  exact ⟨hfps, hbetween (by decide)⟩

end RetailVision.StreamMetrics
